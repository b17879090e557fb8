import Mathlib.Algebra.Field.Rat
import Mathlib.Data.Rat.Defs
import Sidewalk.Foundation.Glob
import Sidewalk.Foundation.KeyedTable
import Sidewalk.Foundation.Pattern
import Sidewalk.Foundation.Run
import Sidewalk.Protocol.Delivery

/-!
Owns the model of the part of `main` in `kpi.py` that reads the tags of a run
from the name of its database: the pattern of the names it lists, the base name,
the two regular expressions, the two splits and the conversion of numbers. The
results of this module say which texts the expressions describe and that a
decimal number is read as the number it denotes.

Does not own the order of the listing. A conversion to `float` is exact. Which
characters are decimal digits is Unicode's choice and a parameter.
-/

set_option autoImplicit false

namespace Sidewalk.Analysis

open Sidewalk.Foundation Sidewalk.Protocol

/-- The decimal digits of Unicode with their values; among the ASCII characters
they are `0` to `9`. -/
structure DigitTable where
  value : Char → Option Nat
  ascii : ∀ c : Char, c.toNat < 128 →
    value c = if c.isDigit then some (c.toNat - 48) else none

/-- Texts of ASCII characters. -/
def Ascii (text : Text) : Prop := ∀ c ∈ text, c.toNat < 128

instance (text : Text) : Decidable (Ascii text) := List.decidableBAll _ text

/-- The table that knows the ASCII digits alone. -/
def asciiDigits : DigitTable where
  value c := if c.isDigit then some (c.toNat - 48) else none
  ascii _ _ := rfl

/-- `\d`. -/
def DigitTable.isDigit (digits : DigitTable) (c : Char) : Bool := (digits.value c).isSome

/-- The value of a run of digits. -/
def DigitTable.natValue (digits : DigitTable) (text : Text) : Nat :=
  text.foldl (fun total c => 10 * total + (digits.value c).getD 0) 0

/-- `.*?_run=\d+`, the group of the first expression. -/
def runGroup (digits : DigitTable) : Pattern Char :=
  .seq (.lazyMany fun c => c ≠ '\n')
    (.seq (.literal ['_', 'r', 'u', 'n', '=']) (.oneOrMore digits.isDigit))

/-- `\d+(\.\d+)?`. -/
def unsignedNumber (digits : DigitTable) : Pattern Char :=
  .seq (.oneOrMore digits.isDigit)
    (.opt (.seq (.literal ['.']) (.oneOrMore digits.isDigit)))

/-- `-?\d+(\.\d+)?`. -/
def decimalNumber (digits : DigitTable) : Pattern Char :=
  .seq (.opt (.literal ['-'])) (unsignedNumber digits)

/-- Whether `main` lists a file of its directory: `*.db`. -/
def listed (name : Text) : Bool := Glob.matchesName "*.db".toList name

/-- `os.path.basename`: what follows the last `/`. -/
def basename (path : Text) : Text := (path.reverse.takeWhile fun c => c ≠ '/').reverse

/-- What a tag is read as. -/
inductive TagValue where
  | number (value : ℚ)
  | text (value : Text)
deriving DecidableEq, Repr

/-- What `main` raises on a name it cannot read. -/
inductive TagError where
  /-- the name does not match, and `None` has no `group` -/
  | attributeError
  /-- an item does not split into two -/
  | valueError
deriving DecidableEq, Repr

/-- `float` of digits with an optional fraction. -/
def unsignedFloat (digits : DigitTable) (text : Text) : ℚ :=
  let whole := text.takeWhile digits.isDigit
  let fraction := (text.dropWhile digits.isDigit).drop 1
  digits.natValue whole + (digits.natValue fraction : ℚ) / 10 ^ fraction.length

/-- `float` of a text that the second expression describes. -/
def float (digits : DigitTable) (text : Text) : ℚ :=
  if text.head? = some '-' then -unsignedFloat digits text.tail else unsignedFloat digits text

/-- `float(v) if re.fullmatch(r"-?\d+(\.\d+)?", v) else v`. -/
def tagValue (digits : DigitTable) (v : Text) : TagValue :=
  if (decimalNumber digits).fullmatch v then .number (float digits v) else .text v

/-- One item `kv.split("=")` put into the dictionary. -/
def addItem (tags : List (Text × Text)) (kv : Text) : Except TagError (List (Text × Text)) :=
  match kv.splitOn '=' with
  | [key, value] => .ok (KeyedTable.assign key value tags)
  | _ => .error .valueError

/-- The dictionary `tags` that `main` reads from the path of a database. -/
def readTags (digits : DigitTable) (db : Text) : Except TagError (List (Text × TagValue)) :=
  match Pattern.firstGroup (runGroup digits) (.literal ['-']) (basename db) with
  | none => .error .attributeError
  | some tagstr =>
      match Run.run addItem [] (tagstr.splitOn '_') with
      | .error error => .error error
      | .ok tags => .ok (tags.map fun item => (item.1, tagValue digits item.2))

/-! ## Digits -/

namespace DigitTable

variable {digits : DigitTable}

theorem isDigit_of_isDigit {c : Char} (digit : c.isDigit = true) : digits.isDigit c = true := by
  have bound : c.toNat ≤ '9'.toNat := (Char.isDigit_iff_toNat.mp digit).2
  have ascii : c.toNat < 128 := lt_of_le_of_lt bound (by decide)
  unfold isDigit
  rw [digits.ascii c ascii, if_pos digit]
  rfl

theorem not_isDigit {c : Char} (ascii : c.toNat < 128) (notDigit : c.isDigit = false) :
    digits.isDigit c = false := by
  unfold isDigit
  rw [digits.ascii c ascii, notDigit]
  rfl

theorem notMem_digits {text : Text} (all : ∀ c ∈ text, digits.isDigit c = true) {c : Char}
    (ascii : c.toNat < 128) (notDigit : c.isDigit = false) : c ∉ text := by
  intro member
  have digit := all c member
  rw [not_isDigit ascii notDigit] at digit
  exact Bool.noConfusion digit

/-- Digits in front of something else end where it starts. -/
theorem takeWhile_digits {text rest : Text} (all : ∀ c ∈ text, digits.isDigit c = true) {c : Char}
    (notDigit : digits.isDigit c = false) :
    (text ++ c :: rest).takeWhile digits.isDigit = text ∧
      (text ++ c :: rest).dropWhile digits.isDigit = c :: rest := by
  have stop : ¬ digits.isDigit c = true := by simp [notDigit]
  rw [List.takeWhile_append_of_pos all, List.dropWhile_append_of_pos all,
    List.takeWhile_cons_of_neg stop, List.dropWhile_cons_of_neg stop, List.append_nil]
  exact ⟨rfl, rfl⟩

end DigitTable

variable {digits : DigitTable}

/-! ## Base names -/

theorem basename_append {directory name : Text} (inDirectory : '/' ∉ name)
    (ended : directory = [] ∨ directory.getLast? = some '/') :
    basename (directory ++ name) = name := by
  have kept : ∀ c ∈ name.reverse, decide (c ≠ '/') = true := by
    intro c member
    rw [decide_eq_true_eq]
    intro slash
    exact inDirectory (slash ▸ List.mem_reverse.mp member)
  unfold basename
  rw [List.reverse_append, List.takeWhile_append_of_pos kept]
  rcases ended with rfl | slash
  · simp
  · obtain ⟨front, rfl⟩ := List.getLast?_eq_some_iff.mp slash
    simp

/-! ## Decimal numbers -/

/-- A text and the non-negative number it denotes. -/
inductive Unsigned (digits : DigitTable) : Text → ℚ → Prop where
  | whole {text : Text} : text ≠ [] → (∀ c ∈ text, digits.isDigit c = true) →
      Unsigned digits text (digits.natValue text)
  | fraction {text decimals : Text} : text ≠ [] → (∀ c ∈ text, digits.isDigit c = true) →
      decimals ≠ [] → (∀ c ∈ decimals, digits.isDigit c = true) →
      Unsigned digits (text ++ '.' :: decimals)
        (digits.natValue text + (digits.natValue decimals : ℚ) / 10 ^ decimals.length)

/-- A text that looks like a decimal number, and the number it denotes. -/
inductive DecimalText (digits : DigitTable) : Text → ℚ → Prop where
  | plain {text : Text} {value : ℚ} : Unsigned digits text value → DecimalText digits text value
  | negative {text : Text} {value : ℚ} : Unsigned digits text value →
      DecimalText digits ('-' :: text) (-value)

/-- What a tag's value is read as: the number it denotes if it looks like a decimal
number, and itself otherwise. -/
inductive ReadAs (digits : DigitTable) : Text → TagValue → Prop where
  | number {text : Text} {value : ℚ} : DecimalText digits text value →
      ReadAs digits text (.number value)
  | text {text : Text} :
      (∀ value, ¬ DecimalText digits text value) → ReadAs digits text (.text text)

theorem matches_unsignedNumber_iff {text : Text} :
    (unsignedNumber digits).Matches text ↔ ∃ value, Unsigned digits text value := by
  constructor
  · intro described
    obtain ⟨whole, rest, rfl, ⟨some, all⟩, fraction | none⟩ := described
    · obtain ⟨point, decimals, rfl, isPoint, someDecimals, allDecimals⟩ := fraction
      obtain rfl := Pattern.matches_literal.mp isPoint
      exact ⟨_, Unsigned.fraction some all someDecimals allDecimals⟩
    · rw [none, List.append_nil]
      exact ⟨_, Unsigned.whole some all⟩
  · intro denoted
    obtain ⟨value, denotes⟩ := denoted
    cases denotes with
    | whole some all => exact ⟨text, [], (List.append_nil _).symm, ⟨some, all⟩, Or.inr rfl⟩
    | fraction some all someDecimals allDecimals =>
        exact ⟨_, _, rfl, ⟨some, all⟩, Or.inl ⟨['.'], _, rfl, Pattern.matches_literal.mpr rfl,
          someDecimals, allDecimals⟩⟩

/-- The second expression describes exactly the texts that look like a decimal number. -/
theorem matches_decimalNumber_iff {text : Text} :
    (decimalNumber digits).Matches text ↔ ∃ value, DecimalText digits text value := by
  constructor
  · intro described
    obtain ⟨sign, rest, rfl, minus | none, restMatches⟩ := described
    · obtain ⟨value, denotes⟩ := matches_unsignedNumber_iff.mp restMatches
      rw [Pattern.matches_literal.mp minus]
      exact ⟨-value, DecimalText.negative denotes⟩
    · obtain ⟨value, denotes⟩ := matches_unsignedNumber_iff.mp restMatches
      rw [none, List.nil_append]
      exact ⟨value, DecimalText.plain denotes⟩
  · intro denoted
    obtain ⟨value, denotes⟩ := denoted
    cases denotes with
    | plain denotes =>
        exact ⟨[], text, rfl, Or.inr rfl, matches_unsignedNumber_iff.mpr ⟨_, denotes⟩⟩
    | negative denotes =>
        exact ⟨['-'], _, rfl, Or.inl (Pattern.matches_literal.mpr rfl),
          matches_unsignedNumber_iff.mpr ⟨_, denotes⟩⟩

theorem unsignedFloat_eq {text : Text} {value : ℚ} (denotes : Unsigned digits text value) :
    unsignedFloat digits text = value := by
  have point : digits.isDigit '.' = false := DigitTable.not_isDigit (by decide) (by decide)
  cases denotes with
  | whole _ all =>
      unfold unsignedFloat
      rw [List.takeWhile_eq_self_iff.mpr all, List.dropWhile_eq_nil_iff.mpr all]
      simp [DigitTable.natValue]
  | fraction _ all _ _ =>
      unfold unsignedFloat
      rw [(DigitTable.takeWhile_digits all point).1, (DigitTable.takeWhile_digits all point).2]
      rfl

theorem float_eq {text : Text} {value : ℚ} (denotes : DecimalText digits text value) :
    float digits text = value := by
  cases denotes with
  | plain denotes =>
      have noSign : text.head? ≠ some '-' := by
        intro sign
        have minus : digits.isDigit '-' = false := DigitTable.not_isDigit (by decide) (by decide)
        have digit : digits.isDigit '-' = true := by
          cases denotes with
          | whole some all => exact all '-' (List.mem_of_head? sign)
          | fraction some all _ _ =>
              rw [List.head?_append_of_ne_nil _ some] at sign
              exact all '-' (List.mem_of_head? sign)
        rw [minus] at digit
        exact Bool.noConfusion digit
      unfold float
      rw [if_neg noSign]
      exact unsignedFloat_eq denotes
  | negative denotes =>
      unfold float
      rw [if_pos (by rfl), List.tail_cons, unsignedFloat_eq denotes]

/-- Every value is read as the number it denotes or as itself. -/
theorem tagValue_readAs (v : Text) : ReadAs digits v (tagValue digits v) := by
  unfold tagValue
  split
  next looks =>
    obtain ⟨value, denotes⟩ :=
      matches_decimalNumber_iff.mp ((Pattern.fullmatch_iff _ v).mp looks)
    rw [float_eq denotes]
    exact ReadAs.number denotes
  next other =>
    apply ReadAs.text
    intro value denotes
    exact other ((Pattern.fullmatch_iff _ v).mpr (matches_decimalNumber_iff.mpr ⟨value, denotes⟩))

/-! ## ASCII texts -/

section Ascii

variable {other : DigitTable} {text : Text}

theorem DigitTable.value_ascii {c : Char} (ascii : c.toNat < 128) :
    digits.value c = other.value c := by
  rw [digits.ascii c ascii, other.ascii c ascii]

theorem DigitTable.natValue_ascii (ascii : Ascii text) :
    digits.natValue text = other.natValue text := by
  unfold DigitTable.natValue
  apply List.foldl_ext
  intro total c member
  rw [DigitTable.value_ascii (ascii c member)]

theorem unsigned_ascii {value : ℚ} (ascii : Ascii text)
    (denotes : Unsigned digits text value) : Unsigned other text value := by
  have digit : ∀ c ∈ text, digits.isDigit c = true → other.isDigit c = true := by
    intro c member isDigit
    unfold DigitTable.isDigit at isDigit ⊢
    rwa [← DigitTable.value_ascii (ascii c member)]
  cases denotes with
  | whole some all =>
      rw [DigitTable.natValue_ascii ascii]
      exact Unsigned.whole some fun c member => digit c member (all c member)
  | @fraction whole decimals some all someDecimals allDecimals =>
      have inWhole : ∀ c ∈ whole, c ∈ whole ++ '.' :: decimals := fun c member =>
        List.mem_append_left _ member
      have inDecimals : ∀ c ∈ decimals, c ∈ whole ++ '.' :: decimals := fun c member =>
        List.mem_append_right _ (List.mem_cons_of_mem _ member)
      rw [DigitTable.natValue_ascii fun c member => ascii c (inWhole c member),
        DigitTable.natValue_ascii fun c member => ascii c (inDecimals c member)]
      exact Unsigned.fraction some (fun c member => digit c (inWhole c member) (all c member))
        someDecimals fun c member => digit c (inDecimals c member) (allDecimals c member)

theorem decimalText_ascii {value : ℚ} (ascii : Ascii text)
    (denotes : DecimalText digits text value) : DecimalText other text value := by
  cases denotes with
  | plain denotes => exact DecimalText.plain (unsigned_ascii ascii denotes)
  | negative denotes =>
      exact DecimalText.negative
        (unsigned_ascii (fun c member => ascii c (List.mem_cons_of_mem _ member)) denotes)

/-- How an ASCII value is read does not depend on the other digits of Unicode. -/
theorem tagValue_ascii (ascii : Ascii text) :
    tagValue digits text = tagValue other text := by
  have first : ReadAs digits text (tagValue digits text) := tagValue_readAs text
  have second : ReadAs other text (tagValue other text) := tagValue_readAs text
  generalize tagValue digits text = read at first ⊢
  generalize tagValue other text = again at second ⊢
  cases first with
  | number denotes =>
      have translated : DecimalText other text _ := decimalText_ascii ascii denotes
      cases second with
      | number again => rw [← float_eq translated, float_eq again]
      | text plain => exact absurd translated (plain _)
  | text plain =>
      cases second with
      | number denotes => exact absurd (decimalText_ascii ascii denotes) (plain _)
      | text _ => rfl

end Ascii

end Sidewalk.Analysis
