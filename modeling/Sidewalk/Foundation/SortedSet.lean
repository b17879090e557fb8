import Mathlib.Data.Finset.Sort

/-!
Owns ordered sets in the manner of `std::set`: an ascending list without
duplicates that carries its order as a field, insertion, and iterators as
positions, whose advance and dereference fail outside the set. Its main law
says that a comparison with the element at position `count - 1` selects exactly
the `count` smallest elements.

Does not own what the elements are.
-/

set_option autoImplicit false

namespace Sidewalk.Foundation

/-- A `std::set`: its elements in ascending order, each once. -/
structure SortedSet (α : Type*) [LinearOrder α] where
  elems : List α
  ascending : elems.Pairwise (· < ·)
deriving DecidableEq

namespace SortedSet

variable {α : Type*} [LinearOrder α]

/-! ## Operations -/

def empty : SortedSet α := ⟨[], List.Pairwise.nil⟩

/-- Insertion into an ascending list; an element that is present stays once. -/
def insertInto (a : α) : List α → List α
  | [] => [a]
  | head :: tail =>
      if a < head then a :: head :: tail
      else if head < a then head :: insertInto a tail
      else head :: tail

theorem mem_insertInto {a b : α} {elems : List α} :
    b ∈ insertInto a elems ↔ b = a ∨ b ∈ elems := by
  induction elems with
  | nil => simp [insertInto]
  | cons head tail inductionHypothesis =>
      unfold insertInto
      split_ifs with below above
      · simp
      · simp only [List.mem_cons, inductionHypothesis]
        tauto
      · have same : a = head := le_antisymm (not_lt.mp above) (not_lt.mp below)
        simp [same]

theorem insertInto_ascending (a : α) {elems : List α} (ascending : elems.Pairwise (· < ·)) :
    (insertInto a elems).Pairwise (· < ·) := by
  induction elems with
  | nil => simp [insertInto]
  | cons head tail inductionHypothesis =>
      obtain ⟨headBelow, tailAscending⟩ := List.pairwise_cons.mp ascending
      unfold insertInto
      split_ifs with below above
      · refine List.pairwise_cons.mpr ⟨fun b member => ?_, ascending⟩
        rcases List.mem_cons.mp member with rfl | later
        · exact below
        · exact below.trans (headBelow b later)
      · refine List.pairwise_cons.mpr ⟨fun b member => ?_, inductionHypothesis tailAscending⟩
        rcases mem_insertInto.mp member with rfl | later
        · exact above
        · exact headBelow b later
      · exact ascending

/-- `std::set::insert`. -/
def insert (s : SortedSet α) (a : α) : SortedSet α :=
  ⟨insertInto a s.elems, insertInto_ascending a s.ascending⟩

/-- `std::set::size`. -/
def size (s : SortedSet α) : Nat := s.elems.length

/-- `std::advance` of `begin()` by `distance`. The position `size` is `end()`;
moving past it is undefined behaviour. -/
def advance (s : SortedSet α) (distance : Nat) : Option Nat :=
  if distance ≤ s.size then some distance else none

/-- Dereference of the iterator at `position`; `none` is undefined behaviour. -/
def deref (s : SortedSet α) (position : Nat) : Option α := s.elems[position]?

/-! ## Laws -/

@[simp] theorem elems_empty : (empty : SortedSet α).elems = [] := rfl

@[simp] theorem mem_insert {s : SortedSet α} {a b : α} :
    b ∈ (s.insert a).elems ↔ b = a ∨ b ∈ s.elems :=
  mem_insertInto

theorem nodup (s : SortedSet α) : s.elems.Nodup :=
  s.ascending.imp fun below => below.ne

theorem mem_foldl_insert {β : Type*} (key : β → α) (items : List β) (s : SortedSet α) {a : α} :
    a ∈ (items.foldl (fun s item => s.insert (key item)) s).elems ↔
      a ∈ s.elems ∨ a ∈ items.map key := by
  induction items generalizing s with
  | nil => simp
  | cons head tail inductionHypothesis =>
      rw [List.foldl_cons, inductionHypothesis, mem_insert, List.map_cons, List.mem_cons]
      tauto

theorem elems_eq_sort (s : SortedSet α) : s.elems = s.elems.toFinset.sort := by
  have sorted : s.elems.Pairwise (· ≤ ·) := s.ascending.imp fun below => below.le
  exact ((List.toFinset_sort (· ≤ ·) s.nodup).mpr sorted).symm

theorem size_eq_card (s : SortedSet α) : s.size = s.elems.toFinset.card :=
  (List.toFinset_card_of_nodup s.nodup).symm

/-- In an ascending list, the first `count` elements are those not above the
element at position `count - 1`. -/
theorem mem_take_iff {elems : List α} (ascending : elems.Pairwise (· < ·)) {count : Nat}
    {last a : α}
    (lastAt : elems[count]? = some last) :
    a ∈ elems.take (count + 1) ↔ a ∈ elems ∧ ¬ last < a := by
  induction elems generalizing count with
  | nil => simp at lastAt
  | cons head tail inductionHypothesis =>
      obtain ⟨headBelow, tailAscending⟩ := List.pairwise_cons.mp ascending
      cases count with
      | zero =>
          have same : head = last := by simpa using lastAt
          subst same
          simp only [Nat.zero_add, List.take_one, List.head?_cons, Option.toList_some,
            List.mem_cons, List.not_mem_nil, or_false, not_lt]
          constructor
          · rintro rfl
            exact ⟨Or.inl rfl, le_rfl⟩
          · rintro ⟨rfl | later, notAbove⟩
            · rfl
            · exact absurd (headBelow a later) (not_lt.mpr notAbove)
      | succ count =>
          have tailAt : tail[count]? = some last := by simpa using lastAt
          have headNotAbove : ¬ last < head :=
            not_lt.mpr (headBelow last (List.mem_of_getElem? tailAt)).le
          simp only [List.take_succ_cons, List.mem_cons, inductionHypothesis tailAscending tailAt]
          constructor
          · rintro (rfl | ⟨later, notAbove⟩)
            · exact ⟨Or.inl rfl, headNotAbove⟩
            · exact ⟨Or.inr later, notAbove⟩
          · rintro ⟨rfl | later, notAbove⟩
            · exact Or.inl rfl
            · exact Or.inr ⟨later, notAbove⟩

/-- In an ascending list, the first `count` elements are those of rank at most
`count`, the rank of an element being the number of elements up to it. -/
theorem mem_take_iff_rank {elems : List α} (ascending : elems.Pairwise (· < ·)) {count : Nat}
    {a : α}
    (member : a ∈ elems) :
    a ∈ elems.take count ↔ (elems.filter (· ≤ a)).length ≤ count := by
  induction elems generalizing count with
  | nil => simp at member
  | cons head tail inductionHypothesis =>
      obtain ⟨headBelow, tailAscending⟩ := List.pairwise_cons.mp ascending
      rcases List.mem_cons.mp member with rfl | later
      · have noneBelow : tail.filter (· ≤ a) = [] :=
          List.filter_eq_nil_iff.mpr fun b bMember => by simpa using headBelow b bMember
        cases count with
        | zero => simp
        | succ count => simp [noneBelow]
      · have headLe : head ≤ a := (headBelow a later).le
        have different : a ≠ head := (headBelow a later).ne'
        cases count with
        | zero => simp [headLe]
        | succ count => simp [headLe, different, inductionHypothesis tailAscending later]

end SortedSet

end Sidewalk.Foundation
