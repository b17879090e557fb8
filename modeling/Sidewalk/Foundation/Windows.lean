import Mathlib.Algebra.Order.Floor.Semiring
import Mathlib.Tactic.Ring
import Sidewalk.Foundation.Binary64

/-!
Owns the division of time into windows of one length, one after the other, with
boundaries computed in rounded arithmetic. What lies inside a window, farther from its
ends than the rounding moves them, is found in this window and no other; whatever is
found in a window lies in it up to that margin; and as many windows are made as fit
before a moment, up to that margin.

Does not own the rounding: it is a parameter with a bound on its error.
-/

set_option autoImplicit false

namespace Sidewalk.Foundation.Windows

open Binary64

/-- Where window number `k` begins, and the one before it ends. -/
def edge (start length : ℚ) (k : Nat) : ℚ := start + k * length

/-- `time` is found in window number `k`, by its computed boundaries. -/
def InWindow (opens closes : Nat → ℚ) (k : Nat) (time : ℚ) : Prop :=
  opens k ≤ time ∧ time < closes k

instance (opens closes : Nat → ℚ) (k : Nat) (time : ℚ) : Decidable (InWindow opens closes k time) :=
  inferInstanceAs (Decidable (_ ∧ _))

/-- `time` lies in window number `k`, at least `margin` away from its ends. -/
def WellInside (start length margin : ℚ) (k : Nat) (time : ℚ) : Prop :=
  edge start length k + margin ≤ time ∧ time < edge start length (k + 1) - margin

/-- `time` lies in window number `k`, up to `margin`. -/
def NearWindow (start length margin : ℚ) (k : Nat) (time : ℚ) : Prop :=
  edge start length k - margin ≤ time ∧ time < edge start length (k + 1) + margin

/-- The boundaries of the first `count` windows are computed up to `margin`. -/
structure Approximate (start length margin : ℚ) (count : Nat) (opens closes : Nat → ℚ) :
    Prop where
  opens : ∀ k < count, |opens k - edge start length k| ≤ margin
  closes : ∀ k < count, |closes k - edge start length (k + 1)| ≤ margin

variable {start length margin time : ℚ} {count k l : Nat} {opens closes : Nat → ℚ}

theorem edge_succ (start length : ℚ) (k : Nat) :
    edge start length (k + 1) = edge start length k + length := by
  rw [edge, edge, Nat.cast_add, Nat.cast_one]
  ring

theorem edge_le (start : ℚ) (nonneg : 0 ≤ length) (ordered : k ≤ l) :
    edge start length k ≤ edge start length l := by
  have cast : (k : ℚ) ≤ l := Nat.cast_le.mpr ordered
  have scaled := mul_le_mul_of_nonneg_right cast nonneg
  rw [edge, edge]
  linarith

/-! ## Finding a moment -/

section Approximate

variable (approximate : Approximate start length margin count opens closes)

include approximate

theorem near_of_inWindow (below : k < count) (found : InWindow opens closes k time) :
    NearWindow start length margin k time := by
  have low := abs_le.mp (approximate.opens k below)
  have high := abs_le.mp (approximate.closes k below)
  obtain ⟨opened, before⟩ := found
  constructor <;> linarith [low.1, high.2]

theorem inWindow_of_wellInside (below : k < count)
    (inside : WellInside start length margin k time) : InWindow opens closes k time := by
  have low := abs_le.mp (approximate.opens k below)
  have high := abs_le.mp (approximate.closes k below)
  obtain ⟨after, before⟩ := inside
  constructor <;> linarith [low.2, high.1]

/-- What lies well inside a window is found there and nowhere else. -/
theorem inWindow_iff (nonneg : 0 ≤ length) (below : k < count)
    (inside : WellInside start length margin k time) (other : l < count) :
    InWindow opens closes l time ↔ l = k := by
  constructor
  · intro found
    obtain ⟨low, high⟩ := near_of_inWindow approximate other found
    obtain ⟨after, before⟩ := inside
    rcases Nat.lt_trichotomy l k with earlier | same | later
    · have ordered := edge_le start nonneg (Nat.succ_le_of_lt earlier)
      linarith
    · exact same
    · have ordered := edge_le start nonneg (Nat.succ_le_of_lt later)
      linarith
  · rintro rfl
    exact inWindow_of_wellInside approximate below inside

/-- With a margin below half a window, only neighbouring windows share a moment. -/
theorem adjacent_of_inWindow (positive : 0 < length) (small : 2 * margin < length)
    (below : k < count) (other : l < count) (found : InWindow opens closes k time)
    (again : InWindow opens closes l time) : l ≤ k + 1 := by
  obtain ⟨-, high⟩ := near_of_inWindow approximate below found
  obtain ⟨low, -⟩ := near_of_inWindow approximate other again
  by_contra apart
  have ordered := edge_le start positive.le (show k + 2 ≤ l by omega)
  have next := edge_succ start length (k + 1)
  linarith

/-- After the last window nothing is found. -/
theorem not_inWindow_of_late (nonneg : 0 ≤ length) (below : k < count)
    (late : edge start length count + margin ≤ time) : ¬ InWindow opens closes k time := by
  intro found
  obtain ⟨-, high⟩ := near_of_inWindow approximate below found
  have ordered := edge_le start nonneg (Nat.succ_le_of_lt below)
  linarith

end Approximate

/-! ## Rounded boundaries -/

section Rounded

variable {round : ℚ → ℚ} {range error : ℚ} (close : Close round range error)

include close

/-- The beginning of a window, computed as `start + k * length`. -/
theorem abs_opens_sub (lengthIn : |length| ≤ range) (scaledIn : |k * round length| ≤ range)
    (placedIn : |start + round (k * round length)| ≤ range) :
    |round (start + round (k * round length)) - edge start length k| ≤ (k + 2) * error := by
  have scaled : |k * round length - k * length| ≤ k * error := by
    rw [← mul_sub, abs_mul, Nat.abs_cast]
    exact mul_le_mul_of_nonneg_left (close length lengthIn) (Nat.cast_nonneg k)
  have product := close.of_near scaled scaledIn
  have placed : |start + round (k * round length) - edge start length k| ≤ k * error + error := by
    rw [edge, add_sub_add_left_eq_sub]
    exact product
  exact (close.of_near placed placedIn).trans_eq (by ring)

/-- The end of a window, computed as its beginning plus `length`. -/
theorem abs_closes_sub (lengthIn : |length| ≤ range) {opened : ℚ}
    (opensNear : |opened - edge start length k| ≤ (k + 2) * error)
    (sumIn : |opened + round length| ≤ range) :
    |round (opened + round length) - edge start length (k + 1)| ≤ (k + 4) * error := by
  have sum : |opened + round length - edge start length (k + 1)| ≤ (k + 2) * error + error := by
    rw [edge_succ, add_sub_add_comm]
    exact (abs_add_le _ _).trans (add_le_add opensNear (close length lengthIn))
  exact (close.of_near sum sumIn).trans_eq (by ring)

/-- The number of windows, computed as the whole part of `span / length`. -/
theorem counted (lengthIn : |length| ≤ range) (positive : 0 < round length)
    (short : round length ≤ 1) {span computed : ℚ} (nonneg : 0 ≤ span)
    (spanNear : |computed - span| ≤ error) (quotientIn : |computed / round length| ≤ range)
    (countIs : ⌊round (computed / round length)⌋₊ = count) :
    count * length ≤ span + (count + 2) * error ∧
      span < (count + 1) * length + (count + 3) * error := by
  have quotient := abs_le.mp (close (computed / round length) quotientIn)
  have lengths := abs_le.mp (close length lengthIn)
  have spans := abs_le.mp spanNear
  have errorNonneg : 0 ≤ error := (abs_nonneg _).trans spanNear
  have inverse : computed / round length * round length = computed :=
    div_mul_cancel₀ computed positive.ne'
  have shorter : error * round length ≤ error := mul_le_of_le_one_right errorNonneg short
  have counts : (0 : ℚ) ≤ count := Nat.cast_nonneg count
  constructor
  · rcases Nat.eq_zero_or_pos count with rfl | some
    · rw [Nat.cast_zero, zero_mul]
      linarith
    have low : count ≤ round (computed / round length) :=
      (Nat.le_floor_iff' some.ne').mp countIs.ge
    have fits : (count - error) * round length ≤ computed := by
      rw [← inverse]
      apply mul_le_mul_of_nonneg_right _ positive.le
      linarith [quotient.2]
    have lengthened : count * (length - error) ≤ count * round length :=
      mul_le_mul_of_nonneg_left (by linarith [lengths.1]) counts
    linarith [spans.2]
  · have high : round (computed / round length) < count + 1 :=
      countIs ▸ Nat.lt_floor_add_one _
    have exceeds : computed < (count + 1 + error) * round length := by
      rw [← inverse]
      apply mul_lt_mul_of_pos_right _ positive
      linarith [quotient.1]
    have lengthened : (count + 1) * round length ≤ (count + 1) * (length + error) :=
      mul_le_mul_of_nonneg_left (by linarith [lengths.2]) (by linarith)
    linarith [spans.1]

end Rounded

end Sidewalk.Foundation.Windows
