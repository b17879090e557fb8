import Mathlib.Algebra.Ring.Int.Defs
import Mathlib.Algebra.Ring.Nat
import Mathlib.Data.Int.Basic
import Mathlib.Data.List.TakeWhile

/-!
Owns the decimal integer formats of the C++ standard library: `std::to_string`
on integers, and `std::stoi` / `std::stoll` with their conversion errors. The
laws say that every printed integer is read back, and which characters a
printed integer can contain.

Does not own floating-point formats.
-/

set_option autoImplicit false

namespace Sidewalk.Foundation.Decimal

/-- The exceptions of the `std::sto*` family. -/
inductive ConversionError where
  | invalidArgument
  | outOfRange
deriving DecidableEq, Repr

/-! ## Printing -/

/-- `std::to_string` of an unsigned integer. -/
def ofNat (value : Nat) : List Char := Nat.toDigits 10 value

/-- `std::to_string` of a signed integer. -/
def ofInt : Int → List Char
  | .ofNat value => ofNat value
  | .negSucc value => '-' :: ofNat (value + 1)

theorem ofInt_natCast (value : Nat) : ofInt (value : Int) = ofNat value := rfl

theorem isDigit_of_mem_ofNat {value : Nat} {c : Char} (member : c ∈ ofNat value) :
    c.isDigit = true :=
  Nat.isDigit_of_mem_toDigits (by decide) (by decide) member

theorem ofNat_ne_nil (value : Nat) : ofNat value ≠ [] := Nat.toDigits_ne_nil

theorem not_mem_ofNat (value : Nat) {c : Char} (notDigit : c.isDigit = false) :
    c ∉ ofNat value := by
  intro member
  rw [isDigit_of_mem_ofNat member] at notDigit
  exact Bool.noConfusion notDigit

theorem ofInt_ne_nil (value : Int) : ofInt value ≠ [] := by
  cases value with
  | ofNat value => exact ofNat_ne_nil value
  | negSucc value => simp [ofInt]

theorem not_mem_ofInt (value : Int) {c : Char} (notDigit : c.isDigit = false) (notSign : c ≠ '-') :
    c ∉ ofInt value := by
  cases value with
  | ofNat value => exact not_mem_ofNat value notDigit
  | negSucc value => simpa [ofInt, notSign] using not_mem_ofNat (value + 1) notDigit

/-! ## Reading -/

/-- `std::isspace` in the default locale. -/
def isSpace (c : Char) : Bool :=
  c = ' ' || c = '\t' || c = '\n' || c = '\x0b' || c = '\x0c' || c = '\r'

/-- The optional sign of a number: whether it is negative, and what follows. -/
def splitSign : List Char → Bool × List Char
  | '-' :: rest => (true, rest)
  | '+' :: rest => (false, rest)
  | text => (false, text)

/-- `strtoll` in base ten: leading white space, an optional sign, and the
longest run of digits; `none` when there is no digit. What follows the digits is
ignored. -/
def strtoll (text : List Char) : Option Int :=
  let (negative, body) := splitSign (text.dropWhile isSpace)
  let digits := body.takeWhile Char.isDigit
  if digits.isEmpty then
    none
  else
    let magnitude : Int := Nat.ofDigitChars 10 digits 0
    some (if negative then -magnitude else magnitude)

/-- `std::stoi` and `std::stoll`, which differ in the width of their result. -/
def stoInt (bits : Nat) (text : List Char) : Except ConversionError Int :=
  match strtoll text with
  | none => .error .invalidArgument
  | some value =>
      if -(2 ^ (bits - 1)) ≤ value ∧ value < 2 ^ (bits - 1) then .ok value
      else .error .outOfRange

/-- `std::stoi`. -/
def stoi (text : List Char) : Except ConversionError Int := stoInt 32 text

/-- `std::stoll`. -/
def stoll (text : List Char) : Except ConversionError Int := stoInt 64 text

/-- `std::stoul`: the magnitude has to fit 64 bits, and a minus sign negates within
them. -/
def stoul (text : List Char) : Except ConversionError Nat :=
  match strtoll text with
  | none => .error .invalidArgument
  | some value =>
      if value.natAbs < 2 ^ 64 then .ok (value % 2 ^ 64).toNat else .error .outOfRange

/-! ## Printing and reading back -/

private theorem splitSign_digits {text : List Char} (digits : ∀ c ∈ text, c.isDigit = true) :
    splitSign text = (false, text) := by
  unfold splitSign
  split
  · exact absurd (digits '-' (by simp)) (by decide)
  · exact absurd (digits '+' (by simp)) (by decide)
  · rfl

theorem isSpace_of_isDigit {c : Char} (digit : c.isDigit = true) : isSpace c = false := by
  by_contra space
  simp only [isSpace, Bool.or_eq_true, decide_eq_true_eq, Bool.not_eq_false] at space
  rcases space with ((((rfl | rfl) | rfl) | rfl) | rfl) | rfl <;> exact absurd digit (by decide)

/-- Nothing is dropped from the front of digits by what keeps digits. -/
theorem dropWhile_digits {drops : Char → Bool} (keeps : ∀ {c}, c.isDigit = true → drops c = false)
    {text : List Char} (digits : ∀ c ∈ text, c.isDigit = true) : text.dropWhile drops = text := by
  cases text with
  | nil => rfl
  | cons head tail =>
      rw [List.dropWhile_cons_of_neg]
      simp [keeps (digits head List.mem_cons_self)]

theorem strtoll_ofNat (value : Nat) : strtoll (ofNat value) = some (value : Int) := by
  have digits : ∀ c ∈ ofNat value, c.isDigit = true := fun c member => isDigit_of_mem_ofNat member
  unfold strtoll
  rw [dropWhile_digits isSpace_of_isDigit digits, splitSign_digits digits]
  simp only [List.takeWhile_eq_self_iff.mpr digits, List.isEmpty_iff, ofNat_ne_nil, if_false,
    Bool.false_eq_true]
  rw [ofNat, Nat.ofDigitChars_ten_toDigits]

theorem strtoll_ofInt (value : Int) : strtoll (ofInt value) = some value := by
  cases value with
  | ofNat value => exact strtoll_ofNat value
  | negSucc value =>
      have digits : ∀ c ∈ ofNat (value + 1), c.isDigit = true :=
        fun c member => isDigit_of_mem_ofNat member
      have noSpace : ('-' :: ofNat (value + 1)).dropWhile isSpace = '-' :: ofNat (value + 1) :=
        List.dropWhile_cons_of_neg (by decide)
      unfold strtoll ofInt
      simp only [noSpace, splitSign, List.takeWhile_eq_self_iff.mpr digits, List.isEmpty_iff,
        ofNat_ne_nil, if_false, if_true]
      rw [ofNat, Nat.ofDigitChars_ten_toDigits]
      rfl

theorem stoInt_ofInt {bits : Nat} {value : Int} (low : -(2 ^ (bits - 1)) ≤ value)
    (high : value < 2 ^ (bits - 1)) : stoInt bits (ofInt value) = .ok value := by
  simp [stoInt, strtoll_ofInt, low, high]

/-- `std::stoi` reads back every natural number below `2 ^ 31`. -/
theorem stoi_ofNat {value : Nat} (fits : value < 2 ^ 31) :
    stoi (ofNat value) = .ok (value : Int) := by
  rw [← ofInt_natCast]
  exact stoInt_ofInt (by omega) (by omega)

/-- `std::stoll` reads back every 64-bit signed integer. -/
theorem stoll_ofInt {value : Int} (low : -(2 ^ 63) ≤ value) (high : value < 2 ^ 63) :
    stoll (ofInt value) = .ok value :=
  stoInt_ofInt low high

/-- `std::stoul` reads back every 64-bit unsigned integer. -/
theorem stoul_ofNat {value : Nat} (fits : value < 2 ^ 64) : stoul (ofNat value) = .ok value := by
  have magnitude : (value : Int).natAbs < 2 ^ 64 := by omega
  have kept : ((value : Int) % 2 ^ 64).toNat = value := by omega
  unfold stoul
  rw [strtoll_ofNat]
  simp only [if_pos magnitude, kept]

theorem ofInt_injective : Function.Injective ofInt := by
  intro left right equal
  have readBack := strtoll_ofInt left
  rw [equal, strtoll_ofInt right] at readBack
  exact (Option.some.inj readBack).symm

example : stoi (ofNat 20) = .ok 20 := by decide

example : stoi ['4', '2', '9', '4', '9', '6', '7', '2', '9', '6'] = .error .outOfRange := by decide

end Sidewalk.Foundation.Decimal
