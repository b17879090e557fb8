import Mathlib.Data.Finset.Sort
import Mathlib.Data.Finset.Powerset

/-!
Owns spaced selections from a set of positions: choosing a number of positions
that are pairwise at least `gap` apart. The greedy scan from the least position
is optimal, so it decides how many positions can be chosen and where the
earliest possible selection of each size ends.

Does not own what the positions are.
-/

set_option autoImplicit false

namespace Sidewalk.Foundation.Spacing

/-- Whether `count` of the `positions` are pairwise at least `gap` apart. -/
def Selectable (gap count : Nat) (positions : Finset Nat) : Prop :=
  ∃ picks ⊆ positions, picks.card = count ∧ ∀ a ∈ picks, ∀ b ∈ picks, a < b → a + gap ≤ b

instance (gap count : Nat) (positions : Finset Nat) : Decidable (Selectable gap count positions) :=
  decidable_of_iff
    (∃ picks ∈ positions.powerset,
      picks.card = count ∧ ∀ a ∈ picks, ∀ b ∈ picks, a < b → a + gap ≤ b)
    (by simp only [Finset.mem_powerset, Selectable])

/-- The greedy scan of an ascending list: take each position that is not below
`bound`, and raise the bound by `gap` past it. -/
def greedyFrom (gap : Nat) : Nat → List Nat → List Nat
  | _, [] => []
  | bound, head :: tail =>
      if bound ≤ head then head :: greedyFrom gap (head + gap) tail
      else greedyFrom gap bound tail

/-- The greedy selection from a set of positions. -/
def greedy (gap : Nat) (positions : Finset Nat) : List Nat :=
  greedyFrom gap 0 (positions.sort (· ≤ ·))

/-! ## The greedy selection is a selection -/

theorem greedyFrom_sublist (gap bound : Nat) (positions : List Nat) :
    List.Sublist (greedyFrom gap bound positions) positions := by
  induction positions generalizing bound with
  | nil => exact List.Sublist.refl _
  | cons head tail inductionHypothesis =>
      unfold greedyFrom
      split_ifs
      · exact (inductionHypothesis (head + gap)).cons_cons head
      · exact (inductionHypothesis bound).cons head

theorem le_of_mem_greedyFrom {gap bound pick : Nat} {positions : List Nat}
    (member : pick ∈ greedyFrom gap bound positions) : bound ≤ pick := by
  induction positions generalizing bound with
  | nil => simp [greedyFrom] at member
  | cons head tail inductionHypothesis =>
      rw [greedyFrom] at member
      split_ifs at member with admitted
      · rcases List.mem_cons.mp member with rfl | later
        · exact admitted
        · have past := inductionHypothesis later
          omega
      · exact inductionHypothesis member

theorem greedyFrom_spaced (gap bound : Nat) (positions : List Nat) :
    (greedyFrom gap bound positions).Pairwise fun a b => a + gap ≤ b := by
  induction positions generalizing bound with
  | nil => exact List.Pairwise.nil
  | cons head tail inductionHypothesis =>
      unfold greedyFrom
      split_ifs
      · exact List.pairwise_cons.mpr
          ⟨fun pick member => le_of_mem_greedyFrom member, inductionHypothesis (head + gap)⟩
      · exact inductionHypothesis bound

/-! ## The greedy selection stays ahead -/

/-- Every spaced selection of positions from `bound` on is matched, pick by pick,
by a greedy pick that lies no later. -/
theorem greedyFrom_ahead {gap : Nat} (picks : List Nat) {bound : Nat} {positions : List Nat}
    (ascending : positions.Pairwise (· < ·)) (chosen : ∀ pick ∈ picks, pick ∈ positions)
    (admitted : ∀ pick ∈ picks, bound ≤ pick)
    (spaced : picks.Pairwise fun a b => a < b ∧ a + gap ≤ b)
    {index pick : Nat} (pickAt : picks[index]? = some pick) :
    ∃ early, (greedyFrom gap bound positions)[index]? = some early ∧ early ≤ pick := by
  induction positions generalizing bound picks index with
  | nil =>
      have member := chosen pick (List.mem_of_getElem? pickAt)
      simp at member
  | cons head tail inductionHypothesis =>
      obtain ⟨headBelow, tailAscending⟩ := List.pairwise_cons.mp ascending
      unfold greedyFrom
      split_ifs with headAdmitted
      · cases picks with
        | nil => simp at pickAt
        | cons first rest =>
            obtain ⟨firstBelow, restSpaced⟩ := List.pairwise_cons.mp spaced
            have headLe : head ≤ first := by
              rcases List.mem_cons.mp (chosen first (by simp)) with rfl | later
              · exact le_rfl
              · exact (headBelow first later).le
            cases index with
            | zero =>
                have same : first = pick := by simpa using pickAt
                exact ⟨head, by simp, same ▸ headLe⟩
            | succ index =>
                have restAt : rest[index]? = some pick := by simpa using pickAt
                have restChosen : ∀ other ∈ rest, other ∈ tail := by
                  intro other member
                  have above := (firstBelow other member).1
                  exact List.mem_of_ne_of_mem (by omega) (chosen other (by simp [member]))
                have restAdmitted : ∀ other ∈ rest, head + gap ≤ other := by
                  intro other member
                  have far := (firstBelow other member).2
                  omega
                simpa using inductionHypothesis rest tailAscending restChosen restAdmitted
                  restSpaced restAt
      · have tailChosen : ∀ other ∈ picks, other ∈ tail := by
          intro other member
          have above := admitted other member
          exact List.mem_of_ne_of_mem (by omega) (chosen other member)
        exact inductionHypothesis picks tailAscending tailChosen admitted spaced pickAt

/-! ## What can be selected -/

theorem greedy_subset (gap : Nat) (positions : Finset Nat) {pick : Nat}
    (member : pick ∈ greedy gap positions) : pick ∈ positions :=
  (Finset.mem_sort (· ≤ ·)).mp ((greedyFrom_sublist gap 0 _).subset member)

theorem greedy_ascending (gap : Nat) (positions : Finset Nat) :
    (greedy gap positions).Pairwise (· < ·) :=
  positions.sortedLT_sort.pairwise.sublist (greedyFrom_sublist gap 0 _)

theorem greedy_apart {gap : Nat} {positions : Finset Nat} {a b : Nat}
    (aIn : a ∈ greedy gap positions) (bIn : b ∈ greedy gap positions) (below : a < b) :
    a + gap ≤ b := by
  have spaced : (greedy gap positions).Pairwise fun x y => x + gap ≤ y := greedyFrom_spaced gap 0 _
  obtain ⟨i, iBound, rfl⟩ := List.getElem_of_mem aIn
  obtain ⟨j, jBound, rfl⟩ := List.getElem_of_mem bIn
  have order : i < j := by
    by_contra notBefore
    rcases Nat.lt_or_eq_of_le (Nat.le_of_not_lt notBefore) with after | same
    · have above := List.pairwise_iff_getElem.mp (greedy_ascending gap positions)
        j i jBound iBound after
      omega
    · subst same
      omega
  exact List.pairwise_iff_getElem.mp spaced i j iBound jBound order

/-- A selection of `count + 1` positions is overtaken by the greedy pick number
`count`. -/
theorem greedy_of_selectable {gap count limit : Nat} {positions : Finset Nat}
    (selectable : Selectable gap (count + 1) (positions.filter (· ≤ limit))) :
    ∃ pick, (greedy gap positions)[count]? = some pick ∧ pick ≤ limit := by
  obtain ⟨picks, subset, size, spaced⟩ := selectable
  have length : (picks.sort (· ≤ ·)).length = count + 1 := by rw [Finset.length_sort, size]
  have lastAt := List.getElem?_eq_getElem (l := picks.sort (· ≤ ·)) (i := count) (by omega)
  set last := (picks.sort (· ≤ ·))[count]
  have member : ∀ pick ∈ picks.sort (· ≤ ·), pick ∈ picks :=
    fun pick member => (Finset.mem_sort (· ≤ ·)).mp member
  have sortSpaced : (picks.sort (· ≤ ·)).Pairwise fun a b => a < b ∧ a + gap ≤ b := by
    apply picks.sortedLT_sort.pairwise.imp_of_mem
    intro a b aMember bMember below
    exact ⟨below, spaced _ (member _ aMember) _ (member _ bMember) below⟩
  obtain ⟨early, earlyAt, earlyLe⟩ := greedyFrom_ahead
    (picks.sort (· ≤ ·)) positions.sortedLT_sort.pairwise
    (fun pick inPicks => (Finset.mem_sort (· ≤ ·)).mpr
      (Finset.mem_filter.mp (subset (member pick inPicks))).1)
    (fun pick _ => Nat.zero_le pick) sortSpaced lastAt
  have lastLe : last ≤ limit :=
    (Finset.mem_filter.mp (subset (member last (List.mem_of_getElem? lastAt)))).2
  exact ⟨early, earlyAt, earlyLe.trans lastLe⟩

theorem selectable_of_greedy {gap count limit pick : Nat} {positions : Finset Nat}
    (pickAt : (greedy gap positions)[count]? = some pick) (pickLe : pick ≤ limit) :
    Selectable gap (count + 1) (positions.filter (· ≤ limit)) := by
  have inRange : count < (greedy gap positions).length := (List.getElem?_eq_some_iff.mp pickAt).1
  have nodup : ((greedy gap positions).take (count + 1)).Nodup :=
    ((greedy_ascending gap positions).imp fun below => below.ne).sublist (List.take_sublist _ _)
  refine ⟨((greedy gap positions).take (count + 1)).toFinset, fun a member => ?_, ?_, ?_⟩
  · obtain ⟨index, bound, rfl⟩ := List.mem_take_iff_getElem.mp (List.mem_toFinset.mp member)
    refine Finset.mem_filter.mpr ⟨greedy_subset gap positions (List.getElem_mem _), ?_⟩
    have atCount : (greedy gap positions)[count] = pick :=
      Option.some.inj ((List.getElem?_eq_getElem inRange).symm.trans pickAt)
    rcases Nat.lt_or_eq_of_le (show index ≤ count by omega) with before | same
    · have below := List.pairwise_iff_getElem.mp (greedy_ascending gap positions)
        index count (by omega) inRange before
      omega
    · subst same
      omega
  · rw [List.toFinset_card_of_nodup nodup, List.length_take]
    omega
  · intro a aMember b bMember below
    have aIn := List.mem_of_mem_take (List.mem_toFinset.mp aMember)
    have bIn := List.mem_of_mem_take (List.mem_toFinset.mp bMember)
    exact greedy_apart aIn bIn below

/-- Among the positions up to `limit`, `count + 1` can be selected exactly when
the greedy selection has a pick number `count` within the limit. -/
theorem selectable_upTo_iff (gap count limit : Nat) (positions : Finset Nat) :
    Selectable gap (count + 1) (positions.filter (· ≤ limit)) ↔
      ∃ pick, (greedy gap positions)[count]? = some pick ∧ pick ≤ limit := by
  constructor
  · exact greedy_of_selectable
  · rintro ⟨pick, pickAt, pickLe⟩
    exact selectable_of_greedy pickAt pickLe

/-- From all positions, `count + 1` can be selected exactly when the greedy
selection has that many. -/
theorem selectable_iff (gap count : Nat) (positions : Finset Nat) :
    Selectable gap (count + 1) positions ↔ ∃ pick, (greedy gap positions)[count]? = some pick := by
  have all : positions.filter (· ≤ positions.sup id) = positions :=
    Finset.filter_true_of_mem fun a member => Finset.le_sup (f := id) member
  have upTo := selectable_upTo_iff gap count (positions.sup id) positions
  rw [all] at upTo
  rw [upTo]
  refine exists_congr fun pick => ⟨fun within => within.1, fun pickAt => ⟨pickAt, ?_⟩⟩
  exact Finset.le_sup (f := id) (greedy_subset gap positions (List.mem_of_getElem? pickAt))

end Sidewalk.Foundation.Spacing
