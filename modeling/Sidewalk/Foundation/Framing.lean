import Mathlib.Data.List.Infix

/-!
Owns lines ended by a two-symbol terminator: the first occurrence of a text in
another, and the law that a stream determines its first line as soon as the two
symbols differ, even where the line ends with the terminator's first symbol.

Does not own buffers nor how a stream arrives.
-/

set_option autoImplicit false

namespace Sidewalk.Foundation.Framing

variable {α : Type} [DecidableEq α]

/-- The position of the first occurrence, `std::string::find`; `none` is `npos`. -/
def find (needle : List α) : List α → Option Nat
  | [] => if needle.isEmpty then some 0 else none
  | head :: tail =>
      if needle.isPrefixOf (head :: tail) then some 0 else (find needle tail).map (· + 1)

theorem find_eq_none_iff (needle text : List α) : find needle text = none ↔ ¬ needle <:+: text := by
  induction text with
  | nil =>
      rw [find, List.infix_nil]
      split <;> simp_all
  | cons head tail inductionHypothesis =>
      rw [find, List.infix_cons_iff, ← List.isPrefixOf_iff_prefix]
      split
      next here => simp [here]
      next notHere => simp [notHere, inductionHypothesis]

/-- What `find` returns is an occurrence: the text is what stands before it, the
needle, and what stands after it. -/
theorem find_split {needle text : List α} {position : Nat}
    (found : find needle text = some position) :
    text = text.take position ++ (needle ++ text.drop (position + needle.length)) := by
  induction text generalizing position with
  | nil =>
      rw [find] at found
      split at found
      next empty => simp [List.isEmpty_iff.mp empty]
      next => exact Option.noConfusion rfl (heq_of_eq found)
  | cons head tail inductionHypothesis =>
      rw [find] at found
      split at found
      next here =>
        rw [Option.some.injEq] at found
        have split := List.prefix_iff_eq_append.mp (List.isPrefixOf_iff_prefix.mp here)
        rw [← found, List.take_zero, List.nil_append, Nat.zero_add, split]
      next =>
        obtain ⟨later, laterFound, rfl⟩ := Option.map_eq_some_iff.mp found
        rw [List.take_succ_cons, List.cons_append, Nat.add_right_comm, List.drop_succ_cons,
          ← inductionHypothesis laterFound]

variable {a b : α}

/-- A line without the terminator ends at the first terminator. -/
theorem find_frame (different : a ≠ b) {line : List α} (plain : ¬ [a, b] <:+: line)
    (rest : List α) : find [a, b] (line ++ a :: b :: rest) = some line.length := by
  induction line with
  | nil => simp [find]
  | cons head tail inductionHypothesis =>
      rw [List.infix_cons_iff, not_or] at plain
      -- An occurrence at the head would lie in the line, or end with the
      -- terminator's first symbol.
      have notHere : [a, b].isPrefixOf (head :: (tail ++ a :: b :: rest)) = false := by
        rw [Bool.eq_false_iff, Ne, List.isPrefixOf_iff_prefix]
        intro here
        obtain ⟨headEq, next⟩ := List.cons_prefix_cons.mp here
        cases tail with
        | nil => exact different (List.cons_prefix_cons.mp next).1.symm
        | cons second others =>
            have secondEq : b = second := (List.cons_prefix_cons.mp next).1
            exact plain.1 (by simp [headEq, secondEq])
      rw [List.cons_append, find, notHere, inductionHypothesis plain.2]
      rfl

theorem not_infix_take_find {text : List α} {position : Nat}
    (found : find [a, b] text = some position) : ¬ [a, b] <:+: text.take position := by
  induction text generalizing position with
  | nil => simp [find] at found
  | cons head tail inductionHypothesis =>
      rw [find] at found
      split at found
      next =>
        rw [Option.some.injEq] at found
        simp [← found]
      next notHere =>
        obtain ⟨later, laterFound, rfl⟩ := Option.map_eq_some_iff.mp found
        rw [List.take_succ_cons, List.infix_cons_iff, not_or]
        refine ⟨fun here => notHere ?_, inductionHypothesis laterFound⟩
        rw [List.isPrefixOf_iff_prefix]
        exact here.trans (by simpa using List.take_prefix later tail)

/-- A stream determines its first line and what follows the terminator. -/
theorem frame_unique (different : a ≠ b) {line other rest otherRest : List α}
    (plain : ¬ [a, b] <:+: line) (otherPlain : ¬ [a, b] <:+: other)
    (same : line ++ a :: b :: rest = other ++ a :: b :: otherRest) :
    line = other ∧ rest = otherRest := by
  have position := find_frame different plain rest
  rw [same, find_frame different otherPlain otherRest, Option.some.injEq] at position
  obtain ⟨lineEq, tailEq⟩ := List.append_inj same position.symm
  simpa [lineEq] using tailEq

end Sidewalk.Foundation.Framing
