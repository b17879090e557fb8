import Sidewalk.Foundation.Draw
import Sidewalk.Scheduler.Feasibility

/-!
Owns what the restriction does to latency when the base class draws uniformly from
the list it is handed: no draw is later in distribution than under a larger
fraction, no percentile and no mean of a latency grows, and in a window whose slots
are all free the mean wait is half the kept slots.

Does not own how the base class draws further transmissions of a grant.
-/

set_option autoImplicit false

namespace Sidewalk.Scheduler

open Sidewalk.Foundation Sidewalk.Foundation.Draw

variable {Slot Rest : Type} [LinearOrder Slot]

/-! ## Lower parts -/

/-- Keeping fewer slots keeps a part of what keeping more does. -/
theorem candidatesOf_eq_filter (candResources : List (SlResourceInfo Slot Rest)) {fewer more : Nat}
    (le : fewer ≤ more) :
    candidatesOf fewer candResources = (candidatesOf more candResources).filter fun res =>
      res.sfn ∈ smallest (candidateSlots candResources) fewer := by
  unfold candidatesOf
  rw [List.filter_filter]
  apply List.filter_congr
  intro res _
  by_cases kept : res.sfn ∈ smallest (candidateSlots candResources) fewer
  · simp [kept, (smallest_sublist _ le).subset kept]
  · simp [kept]

/-- The kept part is the earlier part. -/
theorem candidatesOf_lower (candResources : List (SlResourceInfo Slot Rest)) (fewer more : Nat) :
    Lower (candidatesOf more candResources) SlResourceInfo.sfn fun res =>
      res.sfn ∈ smallest (candidateSlots candResources) fewer := by
  intro low _ kept high highMember dropped
  have isSlot : high.sfn ∈ candidateSlots candResources :=
    mem_candidateSlots.mpr ⟨high, (mem_candidatesOf.mp highMember).1, rfl⟩
  exact lt_of_mem_smallest (of_decide_eq_true kept) isSlot (of_decide_eq_false dropped)

theorem candidatesOf_ne_nil {candResources : List (SlResourceInfo Slot Rest)} {count : Nat}
    (positive : 0 < count) (fits : count ≤ (candidateSlots candResources).card) :
    candidatesOf count candResources ≠ [] := by
  intro none
  have card := candidateSlots_candidatesOf_card fits
  rw [none] at card
  exact absurd card.symm positive.ne'

/-- A larger number of slots adds candidates. -/
theorem exists_dropped {candResources : List (SlResourceInfo Slot Rest)} {fewer more : Nat}
    (lt : fewer < more) (fits : more ≤ (candidateSlots candResources).card) :
    ∃ high ∈ candidatesOf more candResources,
      decide (high.sfn ∈ smallest (candidateSlots candResources) fewer) = false := by
  by_contra none
  have same : candidatesOf fewer candResources = candidatesOf more candResources := by
    rw [candidatesOf_eq_filter candResources lt.le, List.filter_eq_self]
    intro res member
    by_contra dropped
    exact none ⟨res, member, Bool.eq_false_iff.mpr dropped⟩
  have fewerCard := candidateSlots_candidatesOf_card (lt.le.trans fits)
  rw [same, candidateSlots_candidatesOf_card fits] at fewerCard
  exact absurd fewerCard lt.ne'

/-! ## Earlier draws -/

/-- A draw under a smaller slot fraction is never later than one under a larger
fraction, such as that of the stock scheduler: up to every slot its share of the
resources is at least as large, its order statistics are no later at ranks that are
no further along, and the mean of no latency that grows with the slot is larger. The
mean of a latency that grows strictly is smaller, unless both keep equally many
slots. -/
theorem restriction_draws_earlier {K : Type} [Field K] [LinearOrder K] [IsStrictOrderedRing K]
    (fraction larger : SlotFraction) (le : fraction.value ≤ larger.value) (maxTx : Nat)
    (candResources : List (SlResourceInfo Slot Rest)) (nonempty : candResources ≠ []) :
    ∃ less more : List (SlResourceInfo Slot Rest),
      earliest fraction maxTx candResources = .ok less ∧
      earliest larger maxTx candResources = .ok more ∧
      (∀ slot, more.countP (fun res => res.sfn ≤ slot) * less.length ≤
        less.countP (fun res => res.sfn ≤ slot) * more.length) ∧
      (∀ lessRank moreRank lessSlot moreSlot,
        lessRank * more.length < (moreRank + 1) * less.length →
        OrderStatistic.ofRank (less.map SlResourceInfo.sfn) lessRank = some lessSlot →
        OrderStatistic.ofRank (more.map SlResourceInfo.sfn) moreRank = some moreSlot →
        lessSlot ≤ moreSlot) ∧
      ∀ delay : Slot → K,
        (Monotone delay → average (fun res => delay res.sfn) less ≤
          average (fun res => delay res.sfn) more) ∧
        (StrictMono delay →
          (average (fun res => delay res.sfn) less = average (fun res => delay res.sfn) more ↔
            keepCount fraction maxTx (candidateSlots candResources).card =
              keepCount larger maxTx (candidateSlots candResources).card)) := by
  have positive := candidateSlots_card_pos nonempty
  have fewerPositive := keepCount_pos fraction maxTx positive
  have moreFits := keepCount_le larger maxTx (candidateSlots candResources).card
  have counts := keepCount_mono le (le_refl maxTx) (candidateSlots candResources).card
  have lessReached := earliest_eq_candidatesOf fraction maxTx nonempty
  have moreReached := earliest_eq_candidatesOf larger maxTx nonempty
  generalize keepCount fraction maxTx (candidateSlots candResources).card = fewer at *
  generalize keepCount larger maxTx (candidateSlots candResources).card = more at *
  have part := candidatesOf_eq_filter candResources counts
  have lower := candidatesOf_lower candResources fewer more
  have some := candidatesOf_ne_nil fewerPositive (counts.trans moreFits)
  have dominates := dominates_of_lower lower
  rw [part] at some
  refine ⟨_, _, lessReached, moreReached, ?_, ?_, ?_⟩
  · intro slot
    have shares := dominates slot
    rw [List.countP_map, List.countP_map, List.length_map, List.length_map] at shares
    rw [part]
    exact shares
  · intro lessRank moreRank lessSlot moreSlot ranks
    apply ofRank_le
    · rw [part]
      exact dominates
    · rw [List.length_map, List.length_map]
      exact ranks
  · intro delay
    rw [part]
    constructor
    · intro monotone
      apply average_le_of_lower some
      intro low lowMember kept high highMember dropped
      exact monotone (lower low lowMember kept high highMember dropped).le
    · intro strict
      constructor
      · intro same
        by_contra different
        have less := average_lt_of_lower some
          (fun low lowMember kept high highMember dropped =>
            strict (lower low lowMember kept high highMember dropped))
          (exists_dropped (lt_of_le_of_ne counts different) moreFits)
        exact less.ne same
      · intro same
        rw [← part, same]

/-- A quarter of four slots against all of them. -/
theorem restriction_draws_earlier_quarter :
    ∃ less more : List (SlResourceInfo Nat Unit),
      earliest quarter 1 [⟨12, ()⟩, ⟨10, ()⟩, ⟨13, ()⟩, ⟨11, ()⟩] = .ok less ∧
      earliest wholeWindow 1 [⟨12, ()⟩, ⟨10, ()⟩, ⟨13, ()⟩, ⟨11, ()⟩] = .ok more ∧
      average (fun res => (res.sfn : ℚ)) less ≤ average (fun res => (res.sfn : ℚ)) more := by
  obtain ⟨less, more, lessReached, moreReached, -, -, means⟩ :=
    restriction_draws_earlier (K := ℚ) quarter wholeWindow (by norm_num [quarter, wholeWindow]) 1
      [(⟨12, ()⟩ : SlResourceInfo Nat Unit), ⟨10, ()⟩, ⟨13, ()⟩, ⟨11, ()⟩] (by decide)
  exact ⟨less, more, lessReached, moreReached, (means fun slot => (slot : ℚ)).1 Nat.mono_cast⟩

/-! ## A free window -/

section Window

variable {normalize : Slot → Nat} (order : StrictMono normalize)
include order

/-- The candidates at an index are kept or dropped together. -/
theorem count_candidatesOf (count : Nat) (candResources : List (SlResourceInfo Slot Rest))
    (index : Nat) :
    ((candidatesOf count candResources).map fun res => normalize res.sfn).count index =
      if slotsThrough normalize candResources index ≤ count then
        (candResources.map fun res => normalize res.sfn).count index
      else 0 := by
  have isIndex : ∀ (resources : List (SlResourceInfo Slot Rest)),
      index ∈ (resources.map fun res => normalize res.sfn) ↔
        index ∈ slotIndices normalize resources := by
    intro resources
    simp [slotIndices]
  by_cases kept : index ∈ slotIndices normalize (candidatesOf count candResources)
  · have few := ((mem_slotIndices_candidatesOf order).mp kept).2
    obtain ⟨first, firstMember, rfl⟩ := List.mem_map.mp ((isIndex _).mpr kept)
    have firstKept := (mem_candidatesOf.mp firstMember).2
    rw [if_pos few, List.count_eq_countP, List.count_eq_countP, List.countP_map, List.countP_map,
      candidatesOf, List.countP_filter]
    apply List.countP_congr
    intro res _
    simp only [Function.comp_apply, beq_iff_eq, Bool.and_eq_true, decide_eq_true_eq]
    constructor
    · exact fun both => both.1
    · intro same
      rw [order.injective same]
      exact ⟨rfl, firstKept⟩
  · have absent : index ∉ (candidatesOf count candResources).map fun res => normalize res.sfn :=
      fun member => kept ((isIndex _).mp member)
    rw [List.count_eq_zero.mpr absent]
    split
    next few =>
      have noCandidate : index ∉ candResources.map fun res => normalize res.sfn := by
        intro member
        exact kept ((mem_slotIndices_candidatesOf order).mpr ⟨(isIndex _).mp member, few⟩)
      exact (List.count_eq_zero.mpr noCandidate).symm
    next => rfl

/-- In a window of `count` consecutive slots, all with the same number of candidate
resources, a uniform draw under the stock scheduler waits `(count - 1) / 2` slots on
average, half the window. The restriction cuts this to half of the slots it keeps. -/
theorem mean_wait_of_free_window (slotFraction : SlotFraction) (maxTx : Nat)
    (candResources : List (SlResourceInfo Slot Rest)) {start count perSlot : Nat}
    (somePerSlot : 0 < perSlot) (someCount : 0 < count)
    (free : ∀ index, (candResources.map fun res => normalize res.sfn).count index =
      if start ≤ index ∧ index < start + count then perSlot else 0) :
    ∃ kept, earliest slotFraction maxTx candResources = .ok kept ∧
      average (fun res => (normalize res.sfn : ℚ) - start) candResources = ((count : ℚ) - 1) / 2 ∧
      average (fun res => (normalize res.sfn : ℚ) - start) kept =
        ((keepCount slotFraction maxTx count : ℚ) - 1) / 2 := by
  have indices : slotIndices normalize candResources = Finset.Ico start (start + count) := by
    rw [← toFinset_even somePerSlot free]
    ext index
    simp [slotIndices]
  have card : (candidateSlots candResources).card = count := by
    rw [← Finset.card_image_of_injective _ order.injective]
    change (slotIndices normalize candResources).card = count
    rw [indices, Nat.card_Ico, Nat.add_sub_cancel_left]
  have nonempty : candResources ≠ [] := by
    intro none
    rw [none] at card
    exact absurd card.symm someCount.ne'
  have mean : ∀ (resources : List (SlResourceInfo Slot Rest)) (slots : Nat), 0 < slots →
      (∀ index, (resources.map fun res => normalize res.sfn).count index =
        if start ≤ index ∧ index < start + slots then perSlot else 0) →
      average (fun res => (normalize res.sfn : ℚ) - start) resources = ((slots : ℚ) - 1) / 2 := by
    intro resources slots someSlots even
    rw [← average_even (K := ℚ) somePerSlot someSlots even]
    unfold average
    rw [List.map_map, List.length_map]
    rfl
  refine ⟨_, earliest_eq_candidatesOf slotFraction maxTx nonempty, ?_, ?_⟩
  · exact mean candResources count someCount free
  · rw [card]
    apply mean _ _ (keepCount_pos slotFraction maxTx someCount)
    intro index
    have fits := keepCount_le slotFraction maxTx count
    rw [count_candidatesOf order, free index]
    by_cases inside : start ≤ index ∧ index < start + count
    · have through : slotsThrough normalize candResources index = index + 1 - start := by
        have upTo : (Finset.Ico start (start + count)).filter (· ≤ index) =
            Finset.Ico start (index + 1) := by
          ext other
          simp only [Finset.mem_filter, Finset.mem_Ico]
          omega
        rw [slotsThrough, indices, upTo, Nat.card_Ico]
      rw [through, if_pos inside]
      congr 1
      rw [eq_iff_iff]
      omega
    · rw [if_neg inside, ite_self, if_neg (by omega)]

end Window

/-- Four free slots, two of which are kept for two transmissions. -/
theorem mean_wait_of_free_window_quarter :
    ∃ kept : List (SlResourceInfo Nat Unit),
      earliest quarter 2 [⟨12, ()⟩, ⟨10, ()⟩, ⟨13, ()⟩, ⟨11, ()⟩] = .ok kept ∧
      average (fun res => (res.sfn : ℚ) - 10) kept = 1 / 2 := by
  have free : ∀ index, (([⟨12, ()⟩, ⟨10, ()⟩, ⟨13, ()⟩, ⟨11, ()⟩] :
      List (SlResourceInfo Nat Unit)).map fun res => id res.sfn).count index =
        if 10 ≤ index ∧ index < 10 + 4 then 1 else 0 := by
    intro index
    simp only [List.map_cons, List.map_nil, List.count_cons, List.count_nil, beq_iff_eq, id_eq]
    split_ifs <;> omega
  have two : keepCount quarter 2 4 = 2 := by
    norm_num [keepCount, quarter]
  obtain ⟨kept, reached, -, mean⟩ :=
    mean_wait_of_free_window strictMono_id quarter 2 _ (by decide) (by decide) free
  refine ⟨kept, reached, ?_⟩
  rw [two] at mean
  norm_num at mean
  exact mean

end Sidewalk.Scheduler
