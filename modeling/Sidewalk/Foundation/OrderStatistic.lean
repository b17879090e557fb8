import Mathlib.Data.List.Sort

/-!
Owns the order statistics of a list over a linear order: the element of a given
rank in its sorted copy, when it exists, and how it depends on the list and on
the rank.

Does not own any choice of ranks, such as those of a percentile.
-/

set_option autoImplicit false

namespace Sidewalk.Foundation.OrderStatistic

variable {α : Type} [LinearOrder α]

/-- A sorted copy of a list. -/
def sorted (values : List α) : List α := values.insertionSort (· ≤ ·)

/-- The element of rank `rank`, counted from zero, in the sorted copy. -/
def ofRank (values : List α) (rank : Nat) : Option α := (sorted values)[rank]?

/-! ## The sorted copy -/

@[simp] theorem length_sorted (values : List α) : (sorted values).length = values.length :=
  List.length_insertionSort (· ≤ ·) values

theorem sorted_perm (values : List α) : (sorted values).Perm values :=
  List.perm_insertionSort (· ≤ ·) values

/-- The sorted copy depends on the multiset of the values alone. -/
theorem sorted_congr {left right : List α} (perm : left.Perm right) :
    sorted left = sorted right := by
  apply List.Perm.eq_of_sortedLE
  · exact List.sortedLE_insertionSort
  · exact List.sortedLE_insertionSort
  · exact (sorted_perm left).trans (perm.trans (sorted_perm right).symm)

/-! ## Ranks -/

theorem ofRank_congr {left right : List α} (perm : left.Perm right) (rank : Nat) :
    ofRank left rank = ofRank right rank := by
  unfold ofRank
  rw [sorted_congr perm]

theorem ofRank_of_lt {values : List α} {rank : Nat} (inside : rank < values.length) :
    ∃ value ∈ values, ofRank values rank = some value := by
  have inSorted : rank < (sorted values).length := by rwa [length_sorted]
  have member : (sorted values)[rank] ∈ values :=
    (sorted_perm values).mem_iff.mp (List.getElem_mem inSorted)
  exact ⟨(sorted values)[rank], member, List.getElem?_eq_getElem inSorted⟩

/-- A smaller rank has a smaller value. -/
theorem ofRank_mono {values : List α} {low high : Nat} {lowValue highValue : α} (le : low ≤ high)
    (lowIs : ofRank values low = some lowValue) (highIs : ofRank values high = some highValue) :
    lowValue ≤ highValue := by
  obtain ⟨lowInside, rfl⟩ := List.getElem?_eq_some_iff.mp lowIs
  obtain ⟨highInside, rfl⟩ := List.getElem?_eq_some_iff.mp highIs
  exact List.sortedLE_insertionSort.getElem_le_getElem_of_le le

/-- Up to the value of a rank there are more values than the rank counts. -/
theorem lt_countP_of_ofRank {values : List α} {rank : Nat} {value : α}
    (isRank : ofRank values rank = some value) :
    rank < values.countP fun other => other ≤ value := by
  obtain ⟨inside, rfl⟩ := List.getElem?_eq_some_iff.mp isRank
  have upTo : ∀ other ∈ (sorted values).take (rank + 1), other ≤ (sorted values)[rank] := by
    intro other member
    obtain ⟨index, bound, rfl⟩ := List.mem_take_iff_getElem.mp member
    exact List.sortedLE_insertionSort.getElem_le_getElem_of_le (by omega)
  have counted : ((sorted values).take (rank + 1)).countP
      (fun other => other ≤ (sorted values)[rank]) = rank + 1 := by
    rw [List.countP_eq_length.mpr (by simpa using upTo), List.length_take]
    omega
  have fewer := (List.take_sublist (rank + 1) (sorted values)).countP_le
    (p := fun other => decide (other ≤ (sorted values)[rank]))
  rw [counted, (sorted_perm values).countP_eq] at fewer
  exact fewer

/-- Below the value of a rank there are at most as many values as the rank counts. -/
theorem countP_le_of_ofRank {values : List α} {rank : Nat} {value bound : α}
    (isRank : ofRank values rank = some value) (below : bound < value) :
    (values.countP fun other => other ≤ bound) ≤ rank := by
  obtain ⟨inside, rfl⟩ := List.getElem?_eq_some_iff.mp isRank
  have above : ∀ other ∈ (sorted values).drop rank, ¬ other ≤ bound := by
    intro other member
    obtain ⟨index, inDrop, rfl⟩ := List.mem_drop_iff_getElem.mp member
    have le : (sorted values)[rank] ≤ (sorted values)[rank + index] :=
      List.sortedLE_insertionSort.getElem_le_getElem_of_le (by omega)
    exact not_le.mpr (lt_of_lt_of_le below le)
  have none : ((sorted values).drop rank).countP (fun other => other ≤ bound) = 0 :=
    List.countP_eq_zero.mpr (by simpa using above)
  have split := List.take_append_drop rank (sorted values)
  rw [← (sorted_perm values).countP_eq, ← split, List.countP_append, none, Nat.add_zero]
  exact (List.countP_le_length).trans (List.length_take_le rank _)

/-- The least and the greatest of two values. -/
theorem ofRank_pair (left right : α) :
    ofRank [left, right] 0 = some (min left right) ∧
      ofRank [left, right] 1 = some (max left right) := by
  unfold ofRank sorted
  by_cases le : left ≤ right
  · simp [le]
  · have ge : right ≤ left := (lt_of_not_ge le).le
    simp [le, ge]

end Sidewalk.Foundation.OrderStatistic
