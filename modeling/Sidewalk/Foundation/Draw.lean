import Mathlib.Algebra.BigOperators.Intervals
import Mathlib.Algebra.BigOperators.Ring.Finset
import Mathlib.Algebra.Order.BigOperators.Group.List
import Mathlib.Algebra.Order.Field.Basic
import Mathlib.Order.Interval.Finset.Nat
import Mathlib.Tactic.Ring
import Sidewalk.Foundation.OrderStatistic

/-!
Owns uniform draws from a list: the share of the items up to a value, the order of
two draws by these shares and by their order statistics, and the mean of a cost.
The main laws compare a draw from a list with one from its lower part, all of whose
values are below those of the rest.

Does not own how a draw is made.
-/

set_option autoImplicit false

namespace Sidewalk.Foundation.Draw

section Shares

variable {Item α : Type} [LinearOrder α] {items : List Item} {value : Item → α}
  {kept : Item → Bool}

/-- The items that are kept are below those that are not. -/
def Lower (items : List Item) (value : Item → α) (kept : Item → Bool) : Prop :=
  ∀ low ∈ items, kept low = true → ∀ high ∈ items, kept high = false → value low < value high

/-- At every value the share of the items up to it is at least as large on the left
as on the right: a draw from the left is never later. -/
def Dominates (left right : List α) : Prop :=
  ∀ bound, right.countP (fun other => other ≤ bound) * left.length ≤
    left.countP (fun other => other ≤ bound) * right.length

theorem dominates_of_lower (lower : Lower items value kept) :
    Dominates ((items.filter kept).map value) (items.map value) := by
  intro bound
  rw [List.countP_map, List.countP_map, List.length_map, List.length_map]
  by_cases reached : ∃ high ∈ items, kept high = false ∧ value high ≤ bound
  · -- all that is kept lies up to the bound
    obtain ⟨high, member, dropped, le⟩ := reached
    have all : (items.filter kept).countP ((fun other => decide (other ≤ bound)) ∘ value) =
        (items.filter kept).length := by
      rw [List.countP_eq_length]
      intro low lowMember
      obtain ⟨inItems, isKept⟩ := List.mem_filter.mp lowMember
      exact decide_eq_true ((lower low inItems isKept high member dropped).le.trans le)
    rw [all, Nat.mul_comm]
    exact Nat.mul_le_mul_left _ List.countP_le_length
  · -- nothing up to the bound is dropped
    have same : items.countP ((fun other => decide (other ≤ bound)) ∘ value) =
        (items.filter kept).countP ((fun other => decide (other ≤ bound)) ∘ value) := by
      rw [List.countP_filter]
      apply List.countP_congr
      intro item member
      simp only [Function.comp_apply, decide_eq_true_eq, Bool.and_eq_true]
      constructor
      · intro le
        refine ⟨le, ?_⟩
        by_contra dropped
        exact reached ⟨item, member, Bool.eq_false_iff.mpr dropped, le⟩
      · exact fun both => both.1
    rw [same]
    exact Nat.mul_le_mul_left _ (List.length_filter_le _ _)

/-- The order statistics of a draw that is never later are not later either. -/
theorem ofRank_le {left right : List α} (dominates : Dominates left right)
    {leftRank rightRank : Nat}
    (ranks : leftRank * right.length < (rightRank + 1) * left.length) {low high : α}
    (isLow : OrderStatistic.ofRank left leftRank = some low)
    (isHigh : OrderStatistic.ofRank right rightRank = some high) : low ≤ high := by
  by_contra later
  have few := OrderStatistic.countP_le_of_ofRank isLow (not_le.mp later)
  have many : rightRank + 1 ≤ right.countP fun other => other ≤ high :=
    OrderStatistic.lt_countP_of_ofRank isHigh
  have shares := dominates high
  have leftBound := Nat.mul_le_mul_right right.length few
  have rightBound := Nat.mul_le_mul_right left.length many
  omega

end Shares

section Means

/-- A sum splits into what is kept and what is not. -/
theorem sum_split {Item Value : Type} [AddCommMonoid Value] (items : List Item)
    (cost : Item → Value) (kept : Item → Bool) :
    (items.map cost).sum = ((items.filter kept).map cost).sum +
      ((items.filter fun item => !kept item).map cost).sum := by
  have perm := (List.filter_append_perm kept items).map cost
  rw [← perm.sum_eq, List.map_append, List.sum_append]

theorem length_split {Item : Type} (items : List Item) (kept : Item → Bool) :
    items.length = (items.filter kept).length + (items.filter fun item => !kept item).length := by
  rw [← (List.filter_append_perm kept items).length_eq, List.length_append]

variable {Item K : Type} [Field K] [LinearOrder K] [IsStrictOrderedRing K]

/-- The mean cost of a draw. -/
def average (cost : Item → K) (items : List Item) : K := (items.map cost).sum / items.length

variable {items : List Item} {cost : Item → K} {kept : Item → Bool}

/-- How much more a draw from all items costs than one from those that are kept. -/
theorem average_sub (some : items.filter kept ≠ []) :
    average cost items - average cost (items.filter kept) =
      ((items.filter kept).length * ((items.filter fun item => !kept item).map cost).sum -
          (items.filter fun item => !kept item).length * ((items.filter kept).map cost).sum) /
        (items.length * (items.filter kept).length) := by
  have keptPositive : (0 : K) < (items.filter kept).length :=
    Nat.cast_pos.mpr (List.length_pos_of_ne_nil some)
  have positive : (0 : K) < items.length := by
    apply lt_of_lt_of_le keptPositive
    exact Nat.cast_le.mpr (List.length_filter_le _ _)
  unfold average
  rw [div_sub_div _ _ positive.ne' keptPositive.ne', sum_split items cost kept]
  congr 1
  rw [length_split items kept, Nat.cast_add]
  ring

/-- If what is kept costs no more than what is dropped, a draw from it costs no more
on average than one from all items. -/
theorem average_le_of_lower (some : items.filter kept ≠ [])
    (lower : ∀ low ∈ items, kept low = true → ∀ high ∈ items, kept high = false →
      cost low ≤ cost high) :
    average cost (items.filter kept) ≤ average cost items := by
  rw [← sub_nonneg, average_sub some]
  apply div_nonneg
  · rw [sub_nonneg]
    have each : ∀ high ∈ items.filter fun item => !kept item,
        ((items.filter kept).map cost).sum ≤ (items.filter kept).length * cost high := by
      intro high member
      obtain ⟨inItems, dropped⟩ := List.mem_filter.mp member
      have sums : ((items.filter kept).map cost).sum ≤
          ((items.filter kept).map fun _ => cost high).sum := by
        apply List.sum_le_sum
        intro low lowMember
        obtain ⟨lowItems, isKept⟩ := List.mem_filter.mp lowMember
        exact lower low lowItems isKept high inItems (by simpa using dropped)
      rwa [List.map_const', List.sum_replicate, nsmul_eq_mul] at sums
    have sums := List.sum_le_sum each
    rwa [List.map_const', List.sum_replicate, nsmul_eq_mul, List.sum_map_mul_left] at sums
  · exact mul_nonneg (Nat.cast_nonneg _) (Nat.cast_nonneg _)

/-- If what is kept costs less than what is dropped and something is dropped, a draw
from it costs less on average. -/
theorem average_lt_of_lower (some : items.filter kept ≠ [])
    (lower : ∀ low ∈ items, kept low = true → ∀ high ∈ items, kept high = false →
      cost low < cost high) (drops : ∃ high ∈ items, kept high = false) :
    average cost (items.filter kept) < average cost items := by
  obtain ⟨top, topMember, topDropped⟩ := drops
  have someDropped : (items.filter fun item => !kept item) ≠ [] :=
    List.ne_nil_of_mem (List.mem_filter.mpr ⟨topMember, by simpa using topDropped⟩)
  rw [← sub_pos, average_sub some]
  apply div_pos
  · rw [sub_pos]
    have each : ∀ high ∈ items.filter fun item => !kept item,
        ((items.filter kept).map cost).sum < (items.filter kept).length * cost high := by
      intro high member
      obtain ⟨inItems, dropped⟩ := List.mem_filter.mp member
      have sums : ((items.filter kept).map cost).sum <
          ((items.filter kept).map fun _ => cost high).sum := by
        apply List.sum_lt_sum_of_ne_nil some
        intro low lowMember
        obtain ⟨lowItems, isKept⟩ := List.mem_filter.mp lowMember
        exact lower low lowItems isKept high inItems (by simpa using dropped)
      rwa [List.map_const', List.sum_replicate, nsmul_eq_mul] at sums
    have sums := List.sum_lt_sum_of_ne_nil someDropped _ _ each
    rwa [List.map_const', List.sum_replicate, nsmul_eq_mul, List.sum_map_mul_left] at sums
  · apply mul_pos
    · exact Nat.cast_pos.mpr (List.length_pos_of_mem topMember)
    · exact Nat.cast_pos.mpr (List.length_pos_of_ne_nil some)

/-! ## Evenly spread values -/

theorem toFinset_even {values : List Nat} {start count times : Nat} (someTimes : 0 < times)
    (even : ∀ value,
      values.count value = if start ≤ value ∧ value < start + count then times else 0) :
    values.toFinset = Finset.Ico start (start + count) := by
  ext value
  rw [List.mem_toFinset, Finset.mem_Ico, ← List.count_pos_iff, even value]
  split
  next inside => exact iff_of_true someTimes inside
  next outside => exact iff_of_false (lt_irrefl 0) outside

/-- Over values that each occur equally often the mean is that of the values. -/
theorem average_even {values : List Nat} {start count times : Nat} (someTimes : 0 < times)
    (someCount : 0 < count)
    (even : ∀ value,
      values.count value = if start ≤ value ∧ value < start + count then times else 0) :
    average (fun value : Nat => (value : K) - start) values = ((count : K) - 1) / 2 := by
  have counts : ∀ value ∈ Finset.Ico start (start + count), values.count value = times := by
    intro value member
    rw [even value, if_pos (Finset.mem_Ico.mp member)]
  have length : values.length = count * times := by
    rw [← List.sum_toFinset_count_eq_length, toFinset_even someTimes even,
      Finset.sum_congr rfl counts, Finset.sum_const, Nat.card_Ico, Nat.add_sub_cancel_left]
    rfl
  have sum : (values.map fun value : Nat => (value : K) - start).sum =
      times * ∑ offset ∈ Finset.range count, (offset : K) := by
    rw [Finset.sum_list_map_count, toFinset_even someTimes even, Finset.sum_Ico_eq_sum_range,
      Nat.add_sub_cancel_left, Finset.mul_sum]
    apply Finset.sum_congr rfl
    intro offset member
    have inside : start + offset ∈ Finset.Ico start (start + count) := by
      rw [Finset.mem_Ico]
      have bound := Finset.mem_range.mp member
      omega
    rw [counts _ inside, nsmul_eq_mul, Nat.cast_add, add_sub_cancel_left]
  have triangle : (∑ offset ∈ Finset.range count, (offset : K)) * 2 = count * (count - 1) := by
    have natural := congrArg (Nat.cast (R := K)) (Finset.sum_range_id_mul_two count)
    rwa [Nat.cast_mul, Nat.cast_sum, Nat.cast_mul, Nat.cast_pred someCount,
      Nat.cast_ofNat] at natural
  have timesNonzero : (times : K) ≠ 0 := Nat.cast_ne_zero.mpr (by omega)
  have countNonzero : (count : K) ≠ 0 := Nat.cast_ne_zero.mpr (by omega)
  unfold average
  rw [sum, length, Nat.cast_mul, div_eq_div_iff (mul_ne_zero countNonzero timesNonzero) two_ne_zero,
    mul_assoc, triangle]
  ring

end Means

end Sidewalk.Foundation.Draw
