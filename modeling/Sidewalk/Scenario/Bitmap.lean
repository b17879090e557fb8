import Sidewalk.Foundation.Run
import Sidewalk.Protocol.Delivery

/-!
Owns the model of `GetSlBitmapFromString`: the tokens of the string, the lookup
table, the fatal error and the vector it appends to. The grammar of a bitmap is
stated on its own, and the results say that the function accepts exactly that
grammar and what it appends.

Does not own what the caller does with the bits.
-/

set_option autoImplicit false

namespace Sidewalk.Scenario

open Sidewalk.Foundation Sidewalk.Protocol

/-- `std::bitset<1>`. -/
abbrev SlBit := BitVec 1

/-- `lookupTable`. -/
def lookupTable : List (Text × UInt8) := [(['0'], 0), (['1'], 1)]

/-- The text of `NS_FATAL_ERROR` for a token. -/
def invalidBitType (token : Text) : Text :=
  "Bit type ".toList ++ token ++ " not valid. Valid values are: 0 and 1".toList

/-- One turn of the loop over the extracted tokens. -/
def appendBit (slBitMapVector : List SlBit) (token : Text) : Except Text (List SlBit) :=
  match lookupTable.lookup token with
  | none => .error (invalidBitType token)
  | some value => .ok (slBitMapVector ++ [BitVec.ofNat 1 (value &&& 0x01).toNat])

/-- `GetSlBitmapFromString`: the vector afterwards, or the fatal error. -/
def getSlBitmapFromString (slBitMapString : Text) (slBitMapVector : List SlBit) :
    Except Text (List SlBit) :=
  Run.run appendBit slBitMapVector (Delimited.getlines '|' slBitMapString)

/-! ## The grammar -/

/-- The token of a bit. -/
def bitToken (bit : SlBit) : Text := if bit = 0 then ['0'] else ['1']

/-- One or more tokens with a single `|` between them, and their bits. -/
inductive BitTokens : Text → List SlBit → Prop where
  | one (bit : SlBit) : BitTokens (bitToken bit) [bit]
  | more (bit : SlBit) {text : Text} {bits : List SlBit} :
      BitTokens text bits → BitTokens (bitToken bit ++ '|' :: text) (bit :: bits)

/-- A bitmap: no token at all, or tokens with at most one `|` after the last. -/
inductive Bitmap : Text → List SlBit → Prop where
  | empty : Bitmap [] []
  | tokens {text : Text} {bits : List SlBit} : BitTokens text bits → Bitmap text bits
  | trailing {text : Text} {bits : List SlBit} : BitTokens text bits → Bitmap (text ++ ['|']) bits

/-- Bits joined by `|`. -/
def bitmapText (bits : List SlBit) : Text := ['|'].intercalate (bits.map bitToken)

theorem bitmapText_cons (bit : SlBit) {bits : List SlBit} (some : bits ≠ []) :
    bitmapText (bit :: bits) = bitToken bit ++ '|' :: bitmapText bits := by
  unfold bitmapText
  rw [List.map_cons, List.intercalate_cons_of_ne_nil (by simpa using some)]
  simp

theorem bitTokens_iff {text : Text} {bits : List SlBit} :
    BitTokens text bits ↔ bits ≠ [] ∧ text = bitmapText bits := by
  constructor
  · intro tokens
    induction tokens with
    | one bit => exact ⟨List.cons_ne_nil _ _, by simp [bitmapText]⟩
    | more bit rest inductionHypothesis =>
        obtain ⟨some, joined⟩ := inductionHypothesis
        exact ⟨List.cons_ne_nil _ _, by rw [bitmapText_cons bit some, joined]⟩
  · intro joined
    obtain ⟨some, rfl⟩ := joined
    induction bits with
    | nil => exact absurd rfl some
    | cons bit bits inductionHypothesis =>
        by_cases last : bits = []
        · subst last
          simpa [bitmapText] using BitTokens.one bit
        · rw [bitmapText_cons bit last]
          exact BitTokens.more bit (inductionHypothesis last)

/-! ## The tokens -/

theorem separator_notMem_bitToken (bit : SlBit) : '|' ∉ bitToken bit := by
  unfold bitToken
  split <;> decide

theorem bitToken_ne_nil (bit : SlBit) : bitToken bit ≠ [] := by
  unfold bitToken
  split <;> decide

/-- The tokens of a string are those of a bit list if and only if it is a bitmap
with these bits. -/
theorem getlines_eq_bits_iff {text : Text} {bits : List SlBit} :
    Delimited.getlines '|' text = bits.map bitToken ↔ Bitmap text bits := by
  rw [Delimited.getlines_eq_iff '|' (by simpa using fun bit _ => separator_notMem_bitToken bit)
    (by simpa using fun bit _ => bitToken_ne_nil bit)]
  rw [List.map_eq_nil_iff, ne_eq, List.map_eq_nil_iff, ← bitmapText]
  constructor
  · intro written
    rcases written with ⟨rfl, rfl⟩ | ⟨some, rfl | rfl⟩
    · exact Bitmap.empty
    · exact Bitmap.tokens (bitTokens_iff.mpr ⟨some, rfl⟩)
    · exact Bitmap.trailing (bitTokens_iff.mpr ⟨some, rfl⟩)
  · intro bitmap
    cases bitmap with
    | empty => exact Or.inl ⟨rfl, rfl⟩
    | tokens tokens =>
        obtain ⟨some, joined⟩ := bitTokens_iff.mp tokens
        exact Or.inr ⟨some, Or.inl joined⟩
    | trailing tokens =>
        obtain ⟨some, joined⟩ := bitTokens_iff.mp tokens
        exact Or.inr ⟨some, Or.inr (congrArg (· ++ ['|']) joined)⟩

/-! ## The loop -/

theorem appendBit_bitToken (slBitMapVector : List SlBit) (bit : SlBit) :
    appendBit slBitMapVector (bitToken bit) = .ok (slBitMapVector ++ [bit]) := by
  have cases : bit = 0 ∨ bit = 1 := by
    revert bit
    decide
  rcases cases with rfl | rfl <;> rfl

/-- A token that is not the token of a bit is not in the table. -/
theorem appendBit_other (slBitMapVector : List SlBit) {token : Text}
    (other : ∀ bit, token ≠ bitToken bit) :
    appendBit slBitMapVector token = .error (invalidBitType token) := by
  have notZero : (token == ['0']) = false := by simpa [bitToken] using other 0
  have notOne : (token == ['1']) = false := by simpa [bitToken] using other 1
  unfold appendBit lookupTable
  simp only [List.lookup_cons, List.lookup_nil, notZero, notOne]

theorem run_bitTokens (slBitMapVector bits : List SlBit) :
    Run.run appendBit slBitMapVector (bits.map bitToken) = .ok (slBitMapVector ++ bits) := by
  induction bits generalizing slBitMapVector with
  | nil => simp
  | cons bit bits inductionHypothesis =>
      rw [List.map_cons, Run.run_cons (appendBit_bitToken slBitMapVector bit), inductionHypothesis,
        List.append_assoc, List.singleton_append]

/-- Tokens are those of a bit list, or some first one of them is not. -/
theorem tokens_cases (tokens : List Text) :
    (∃ bits : List SlBit, tokens = bits.map bitToken) ∨
      ∃ (bits : List SlBit) (token : Text) (rest : List Text),
        tokens = bits.map bitToken ++ token :: rest ∧ ∀ bit, token ≠ bitToken bit := by
  induction tokens with
  | nil => exact Or.inl ⟨[], rfl⟩
  | cons token tokens inductionHypothesis =>
      by_cases known : ∃ bit, token = bitToken bit
      · obtain ⟨bit, rfl⟩ := known
        rcases inductionHypothesis with ⟨bits, rfl⟩ | ⟨bits, other, rest, rfl, unknown⟩
        · exact Or.inl ⟨bit :: bits, rfl⟩
        · exact Or.inr ⟨bit :: bits, other, rest, rfl, unknown⟩
      · exact Or.inr ⟨[], token, tokens, rfl, not_exists.mp known⟩

theorem getSlBitmapFromString_of_bitmap {slBitMapString : Text} {bits : List SlBit}
    (bitmap : Bitmap slBitMapString bits) (slBitMapVector : List SlBit) :
    getSlBitmapFromString slBitMapString slBitMapVector = .ok (slBitMapVector ++ bits) := by
  unfold getSlBitmapFromString
  rw [getlines_eq_bits_iff.mpr bitmap]
  exact run_bitTokens slBitMapVector bits

/-- A string that is no bitmap has a token outside the table, and the error names
the first such token. -/
theorem getSlBitmapFromString_of_not_bitmap {slBitMapString : Text}
    (notBitmap : ∀ bits, ¬ Bitmap slBitMapString bits) (slBitMapVector : List SlBit) :
    ∃ token ∈ Delimited.getlines '|' slBitMapString, (∀ bit, token ≠ bitToken bit) ∧
      getSlBitmapFromString slBitMapString slBitMapVector = .error (invalidBitType token) := by
  rcases tokens_cases (Delimited.getlines '|' slBitMapString) with
    ⟨bits, known⟩ | ⟨bits, token, rest, split, unknown⟩
  · exact absurd (getlines_eq_bits_iff.mp known) (notBitmap bits)
  · refine ⟨token, by simp [split], unknown, ?_⟩
    unfold getSlBitmapFromString
    rw [split, Run.run_append (run_bitTokens slBitMapVector bits)]
    unfold Run.run
    rw [appendBit_other _ unknown]

theorem getSlBitmapFromString_ok_iff {slBitMapString : Text}
    {slBitMapVector after : List SlBit} :
    getSlBitmapFromString slBitMapString slBitMapVector = .ok after ↔
      ∃ bits, Bitmap slBitMapString bits ∧ after = slBitMapVector ++ bits := by
  constructor
  · intro returned
    by_cases accepted : ∃ bits, Bitmap slBitMapString bits
    · obtain ⟨bits, bitmap⟩ := accepted
      rw [getSlBitmapFromString_of_bitmap bitmap, Except.ok.injEq] at returned
      exact ⟨bits, bitmap, returned.symm⟩
    · obtain ⟨token, -, -, fatal⟩ :=
        getSlBitmapFromString_of_not_bitmap (not_exists.mp accepted) slBitMapVector
      rw [fatal] at returned
      cases returned
  · intro spelled
    obtain ⟨bits, bitmap, rfl⟩ := spelled
    exact getSlBitmapFromString_of_bitmap bitmap slBitMapVector

/-! ## Acceptance -/

/-- `GetSlBitmapFromString` accepts exactly the bitmaps and appends their bits in
order; any other string is a fatal error. In particular every non-empty bit list
survives being joined and parsed. -/
theorem getSlBitmapFromString_accepts_bitmaps (slBitMapString : Text)
    (slBitMapVector : List SlBit) :
    (∀ after, getSlBitmapFromString slBitMapString slBitMapVector = .ok after ↔
      ∃ bits, Bitmap slBitMapString bits ∧ after = slBitMapVector ++ bits) ∧
    ((¬ ∃ bits, Bitmap slBitMapString bits) ↔
      ∃ token, getSlBitmapFromString slBitMapString slBitMapVector =
        .error (invalidBitType token)) ∧
    ∀ bits : List SlBit, bits ≠ [] → getSlBitmapFromString (bitmapText bits) [] = .ok bits := by
  refine ⟨fun after => getSlBitmapFromString_ok_iff, ?_, ?_⟩
  · constructor
    · intro rejected
      obtain ⟨token, -, -, fatal⟩ :=
        getSlBitmapFromString_of_not_bitmap (not_exists.mp rejected) slBitMapVector
      exact ⟨token, fatal⟩
    · intro fatal accepted
      obtain ⟨token, fatal⟩ := fatal
      obtain ⟨bits, bitmap⟩ := accepted
      rw [getSlBitmapFromString_of_bitmap bitmap] at fatal
      cases fatal
  · intro bits some
    have bitmap : Bitmap (bitmapText bits) bits := Bitmap.tokens (bitTokens_iff.mpr ⟨some, rfl⟩)
    exact getSlBitmapFromString_of_bitmap bitmap []

example : getSlBitmapFromString ['1', '|', '0', '|'] [] = .ok [1, 0] := by decide

example : getSlBitmapFromString ['1', '|', '|', '0'] [] = .error (invalidBitType []) := by decide

end Sidewalk.Scenario
