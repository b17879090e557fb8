import Mathlib.Data.List.Basic
import Sidewalk.Foundation.Decimal
import Sidewalk.Foundation.Delimited

/-!
Owns the reply fields of the gateway protocol as the comment of
`robot-gateway.h` states them: a delivery is `src:latency_us`, and the field of a
robot is its deliveries joined by `;`, empty when there are none. A field
determines its deliveries.

Does not own the code that writes fields (`HandleRx`) nor the code that reads
them (`handleReply`).
-/

set_option autoImplicit false

namespace Sidewalk.Protocol

open Sidewalk.Foundation

/-- The bytes of a `std::string`. -/
abbrev Text := List Char

/-- One packet received by a robot: who sent it and how long it took. -/
structure Delivery where
  src : Nat
  latencyUs : Int
deriving DecidableEq, Repr

/-- `src:latency_us`. -/
def Delivery.text (delivery : Delivery) : Text :=
  Decimal.ofNat delivery.src ++ ':' :: Decimal.ofInt delivery.latencyUs

/-- The reply field of one robot. -/
def fieldText (deliveries : List Delivery) : Text :=
  [';'].intercalate (deliveries.map Delivery.text)

/-- The items of a field: what stands between its separators. The empty field has
none. -/
def fieldItems (field : Text) : List Text :=
  if field.isEmpty then [] else field.splitOn ';'

/-! ## Texts of deliveries -/

theorem Delivery.text_ne_nil (delivery : Delivery) : delivery.text ≠ [] := by
  simp [Delivery.text]

/-- A delivery is written with digits, a colon and perhaps a minus sign. -/
theorem Delivery.not_mem_text (delivery : Delivery) {c : Char} (notDigit : c.isDigit = false)
    (notColon : c ≠ ':') (notSign : c ≠ '-') : c ∉ delivery.text := by
  simp [Delivery.text, notColon, Decimal.not_mem_ofNat _ notDigit,
    Decimal.not_mem_ofInt _ notDigit notSign]

/-! ## Texts of fields -/

private theorem texts_nonempty (deliveries : List Delivery) :
    ∀ item ∈ deliveries.map Delivery.text, item ≠ [] := by
  intro item member
  obtain ⟨delivery, -, rfl⟩ := List.mem_map.mp member
  exact delivery.text_ne_nil

private theorem texts_plain (deliveries : List Delivery) :
    ∀ item ∈ deliveries.map Delivery.text, ';' ∉ item := by
  intro item member
  obtain ⟨delivery, -, rfl⟩ := List.mem_map.mp member
  exact delivery.not_mem_text (by decide) (by decide) (by decide)

@[simp] theorem fieldText_nil : fieldText [] = [] := rfl

theorem fieldText_eq_nil_iff {deliveries : List Delivery} :
    fieldText deliveries = [] ↔ deliveries = [] := by
  rw [fieldText, Delimited.intercalate_eq_nil_iff ';' (texts_nonempty deliveries),
    List.map_eq_nil_iff]

theorem appendItem_fieldText (deliveries : List Delivery) (delivery : Delivery) :
    Delimited.appendItem ';' (fieldText deliveries) delivery.text =
      fieldText (deliveries ++ [delivery]) := by
  rw [fieldText, Delimited.appendItem_intercalate ';' (texts_nonempty deliveries), fieldText,
    List.map_append, List.map_singleton]

theorem foldl_appendItem_fieldText (deliveries : List Delivery) :
    deliveries.foldl (fun field delivery => Delimited.appendItem ';' field delivery.text) [] =
      fieldText deliveries := by
  rw [fieldText, ← Delimited.foldl_appendItem ';' (texts_nonempty deliveries), List.foldl_map]

theorem fieldItems_fieldText (deliveries : List Delivery) :
    fieldItems (fieldText deliveries) = deliveries.map Delivery.text := by
  by_cases none : deliveries = []
  · subst none
    rfl
  · have started : fieldText deliveries ≠ [] := mt fieldText_eq_nil_iff.mp none
    rw [fieldItems, if_neg (by simpa using started), fieldText,
      List.splitOn_intercalate ';' (texts_plain deliveries) (by simpa using none)]

/-- A `getline` loop over a field reads its deliveries one by one. -/
theorem getlines_fieldText (deliveries : List Delivery) :
    Delimited.getlines ';' (fieldText deliveries) = deliveries.map Delivery.text :=
  Delimited.getlines_intercalate ';' (texts_plain deliveries) (texts_nonempty deliveries)

/-- A field is written with digits, colons, semicolons and minus signs. -/
theorem not_mem_fieldText (deliveries : List Delivery) {c : Char} (notDigit : c.isDigit = false)
    (notColon : c ≠ ':') (notSign : c ≠ '-') (notSemicolon : c ≠ ';') :
    c ∉ fieldText deliveries := by
  induction deliveries using List.reverseRecOn with
  | nil => simp
  | append_singleton deliveries delivery inductionHypothesis =>
      have item := delivery.not_mem_text notDigit notColon notSign
      rw [← appendItem_fieldText, Delimited.appendItem]
      split <;> simp [inductionHypothesis, item, notSemicolon]

end Sidewalk.Protocol
