import Sidewalk.Foundation.Binary64
import Sidewalk.Foundation.Spacing
import Sidewalk.Scheduler.Restriction

/-!
Owns whether the restricted list can still be filled when the base class
demands a minimum gap between the transmissions of one transport block. The
floor on the number of kept slots counts slots and ignores how they are spaced,
so the restriction can turn a list that holds enough spaced slots into one that
does not; the exact condition is stated on the candidate slots.

Does not own how the base class draws: it is taken to place `maxTx`
transmissions exactly when its list holds that many slots at the gap.
-/

set_option autoImplicit false

namespace Sidewalk.Scheduler

open Sidewalk.Foundation Sidewalk.Foundation.Spacing Sidewalk.Foundation.Binary64

variable {Slot Rest : Type} [LinearOrder Slot]

/-- The normalised indices of the slots of a candidate list. -/
def slotIndices (normalize : Slot → Nat) (candResources : List (SlResourceInfo Slot Rest)) :
    Finset Nat :=
  (candidateSlots candResources).image normalize

/-- How many distinct candidate slots lie at or before an index. -/
def slotsThrough (normalize : Slot → Nat) (candResources : List (SlResourceInfo Slot Rest))
    (index : Nat) : Nat :=
  ((slotIndices normalize candResources).filter (· ≤ index)).card

/-- The candidate list holds `maxTx` slots pairwise at least `gap` apart. -/
def Fillable (normalize : Slot → Nat) (gap maxTx : Nat)
    (candResources : List (SlResourceInfo Slot Rest)) : Prop :=
  Selectable gap maxTx (slotIndices normalize candResources)

instance (normalize : Slot → Nat) (gap maxTx : Nat)
    (candResources : List (SlResourceInfo Slot Rest)) :
    Decidable (Fillable normalize gap maxTx candResources) :=
  inferInstanceAs (Decidable (Selectable _ _ _))

section Ranks

variable {normalize : Slot → Nat} (order : StrictMono normalize)
include order

theorem slotsThrough_eq_rank (candResources : List (SlResourceInfo Slot Rest)) (slot : Slot) :
    slotsThrough normalize candResources (normalize slot) =
      ((candidateSlots candResources).sort.filter (· ≤ slot)).length := by
  have upTo : (slotIndices normalize candResources).filter (· ≤ normalize slot) =
      ((candidateSlots candResources).filter (· ≤ slot)).image normalize := by
    ext index
    simp only [slotIndices, Finset.mem_filter, Finset.mem_image]
    constructor
    · rintro ⟨⟨other, member, rfl⟩, le⟩
      exact ⟨other, ⟨member, order.le_iff_le.mp le⟩, rfl⟩
    · rintro ⟨other, ⟨member, le⟩, rfl⟩
      exact ⟨⟨other, member, rfl⟩, order.le_iff_le.mpr le⟩
  have listed : ((candidateSlots candResources).sort.filter (· ≤ slot)).toFinset =
      (candidateSlots candResources).filter (· ≤ slot) := by
    rw [List.toFinset_filter, Finset.sort_toFinset]
    simp
  rw [slotsThrough, upTo, Finset.card_image_of_injective _ order.injective, ← listed]
  exact List.toFinset_card_of_nodup ((Finset.sort_nodup _ (· ≤ ·)).filter _)

theorem mem_slotIndices_candidatesOf {count : Nat} {candResources : List (SlResourceInfo Slot Rest)}
    {index : Nat} :
    index ∈ slotIndices normalize (candidatesOf count candResources) ↔
      index ∈ slotIndices normalize candResources ∧
        slotsThrough normalize candResources index ≤ count := by
  have rank : ∀ slot ∈ candidateSlots candResources,
      (slot ∈ smallest (candidateSlots candResources) count ↔
        slotsThrough normalize candResources (normalize slot) ≤ count) := by
    intro slot member
    rw [slotsThrough_eq_rank order]
    exact SortedSet.mem_take_iff_rank (Finset.sortedLT_sort _).pairwise
      ((Finset.mem_sort (· ≤ ·)).mpr member)
  simp only [slotIndices, Finset.mem_image, candidateSlots_candidatesOf, List.mem_toFinset]
  constructor
  · rintro ⟨slot, kept, rfl⟩
    have member := mem_of_mem_smallest kept
    exact ⟨⟨slot, member, rfl⟩, (rank slot member).mp kept⟩
  · rintro ⟨⟨slot, member, rfl⟩, few⟩
    exact ⟨slot, (rank slot member).mpr few, rfl⟩

/-- The kept indices are those up to the last kept one, because ranks grow with
the index. -/
theorem slotIndices_candidatesOf_upTo (count : Nat)
    (candResources : List (SlResourceInfo Slot Rest)) :
    slotIndices normalize (candidatesOf count candResources) = ∅ ∨
      ∃ limit, slotIndices normalize (candidatesOf count candResources) =
        (slotIndices normalize candResources).filter (· ≤ limit) := by
  set kept := slotIndices normalize (candidatesOf count candResources)
  rcases kept.eq_empty_or_nonempty with empty | nonempty
  · exact Or.inl empty
  · right
    obtain ⟨last, lastKept, lastEq⟩ := Finset.exists_mem_eq_sup kept nonempty id
    refine ⟨last, ?_⟩
    ext index
    rw [Finset.mem_filter]
    constructor
    · intro member
      have le : index ≤ kept.sup id := Finset.le_sup (f := id) member
      rw [lastEq] at le
      exact ⟨((mem_slotIndices_candidatesOf order).mp member).1, le⟩
    · rintro ⟨member, le⟩
      have lastRank := ((mem_slotIndices_candidatesOf order).mp lastKept).2
      refine (mem_slotIndices_candidatesOf order).mpr ⟨member, le_trans ?_ lastRank⟩
      apply Finset.card_le_card
      intro other inRank
      have bounds := Finset.mem_filter.mp inRank
      exact Finset.mem_filter.mpr ⟨bounds.1, bounds.2.trans le⟩

/-- The kept list holds `maxTx` spaced slots exactly when the greedy selection
from all candidates reaches its last pick within the kept number of slots. -/
theorem fillable_candidatesOf_iff {gap maxTx count : Nat}
    {candResources : List (SlResourceInfo Slot Rest)} :
    Fillable normalize gap (maxTx + 1) (candidatesOf count candResources) ↔
      ∃ pick, (greedy gap (slotIndices normalize candResources))[maxTx]? = some pick ∧
        slotsThrough normalize candResources pick ≤ count := by
  have candidate : ∀ pick, (greedy gap (slotIndices normalize candResources))[maxTx]? = some pick →
      pick ∈ slotIndices normalize candResources :=
    fun pick pickAt => greedy_subset gap _ (List.mem_of_getElem? pickAt)
  have reached : Selectable gap (maxTx + 1)
        (slotIndices normalize (candidatesOf count candResources)) ↔
      ∃ pick, (greedy gap (slotIndices normalize candResources))[maxTx]? = some pick ∧
        pick ∈ slotIndices normalize (candidatesOf count candResources) := by
    rcases slotIndices_candidatesOf_upTo order count candResources with empty | ⟨limit, upTo⟩
    · rw [empty]
      constructor
      · rintro ⟨picks, subset, size, -⟩
        rw [Finset.subset_empty.mp subset] at size
        simp at size
      · rintro ⟨pick, -, member⟩
        simp at member
    · rw [upTo, selectable_upTo_iff]
      refine exists_congr fun pick => and_congr_right fun pickAt => ?_
      rw [Finset.mem_filter, and_iff_right (candidate pick pickAt)]
  refine reached.trans (exists_congr fun pick => and_congr_right fun pickAt => ?_)
  rw [mem_slotIndices_candidatesOf order, and_iff_right (candidate pick pickAt)]

end Ranks

theorem lt_slotsThrough_of_greedy {normalize : Slot → Nat} {gap maxTx pick : Nat}
    {candResources : List (SlResourceInfo Slot Rest)}
    (pickAt : (greedy gap (slotIndices normalize candResources))[maxTx]? = some pick) :
    maxTx < slotsThrough normalize candResources pick := by
  obtain ⟨picks, subset, size, -⟩ := selectable_of_greedy pickAt le_rfl
  have counted := Finset.card_le_card subset
  rw [size] at counted
  exact counted

/-- However the product is rounded, the restriction keeps a fillable grant fillable
exactly when the earliest possible last transmission, the pick number `maxTx` of the
greedy selection, has at most `⌈slotFraction * N⌉` candidate slots up to it, with the
product rounded as the code does, or the `maxTx` earliest candidate slots are
themselves that selection. -/
theorem restriction_keeps_fillable_iff (normalize : Slot → Nat) (order : StrictMono normalize)
    (round : ℚ → ℚ) (slotFraction : SlotFraction) (gap maxTx : Nat) (transmits : 1 ≤ maxTx)
    (candResources : List (SlResourceInfo Slot Rest)) (nonempty : candResources ≠ []) :
    ∃ kept, earliestRounded round slotFraction maxTx candResources = .ok kept ∧
      ((Fillable normalize gap maxTx candResources → Fillable normalize gap maxTx kept) ↔
        ∀ pick, (greedy gap (slotIndices normalize candResources))[maxTx - 1]? = some pick →
          slotsThrough normalize candResources pick ≤
              ⌈round (slotFraction.value * (candidateSlots candResources).card)⌉₊ ∨
            slotsThrough normalize candResources pick = maxTx) := by
  refine ⟨_, earliestRounded_eq_candidatesOf round slotFraction maxTx nonempty, ?_⟩
  obtain ⟨last, rfl⟩ : ∃ last, maxTx = last + 1 := ⟨maxTx - 1, by omega⟩
  rw [fillable_candidatesOf_iff order, Fillable, selectable_iff, Nat.add_sub_cancel]
  -- Up to the last pick there are more than `last` slots, so the floor only helps at equality.
  have within : ∀ pick, (greedy gap (slotIndices normalize candResources))[last]? = some pick →
      (slotsThrough normalize candResources pick ≤
          keepRounded round slotFraction (last + 1) (candidateSlots candResources).card ↔
        slotsThrough normalize candResources pick ≤
            ⌈round (slotFraction.value * (candidateSlots candResources).card)⌉₊ ∨
          slotsThrough normalize candResources pick = last + 1) := by
    intro pick pickAt
    have many := lt_slotsThrough_of_greedy pickAt
    have total : slotsThrough normalize candResources pick ≤ (candidateSlots candResources).card :=
      (Finset.card_filter_le _ _).trans Finset.card_image_le
    rw [keepRounded, le_max_iff, le_min_iff]
    omega
  constructor
  · intro keeps pick pickAt
    obtain ⟨other, otherAt, few⟩ := keeps ⟨pick, pickAt⟩
    have same : other = pick := Option.some.inj (otherAt.symm.trans pickAt)
    subst same
    exact (within other otherAt).mp few
  · rintro condition ⟨pick, pickAt⟩
    exact ⟨pick, pickAt, (within pick pickAt).mpr (condition pick pickAt)⟩

/-- The fraction 0.4 as a `double`. -/
def twoFifths : SlotFraction := ⟨binary64 (2 / 5), by decide +kernel, by decide +kernel⟩

/-- Five candidate slots in a row. -/
def fiveSlots : List (SlResourceInfo Nat Unit) := [⟨1, ()⟩, ⟨2, ()⟩, ⟨3, ()⟩, ⟨4, ()⟩, ⟨5, ()⟩]

/-- Two transmissions two slots apart fit into five slots in a row, but not into what
the fraction 0.4 keeps: its product with 5 is rounded to 2. -/
theorem restriction_keeps_fillable_iff_twoFifths :
    ∃ kept, earliestRounded binary64 twoFifths 2 fiveSlots = .ok kept ∧
      Fillable id 2 2 fiveSlots ∧ ¬ Fillable id 2 2 kept := by
  obtain ⟨kept, forwarded, keeps⟩ := restriction_keeps_fillable_iff id strictMono_id binary64
    twoFifths 2 2 (by decide) fiveSlots (by decide)
  refine ⟨kept, forwarded, by decide, ?_⟩
  intro fillable
  have ceiling : ⌈binary64 (twoFifths.value * (candidateSlots fiveSlots).card)⌉₊ = 2 := by
    decide +kernel
  have indices : (slotIndices id fiveSlots).sort (· ≤ ·) = [1, 2, 3, 4, 5] := by
    rw [show slotIndices id fiveSlots = [1, 2, 3, 4, 5].toFinset by decide]
    exact (List.toFinset_sort (· ≤ ·) (by decide)).mpr (by decide)
  have third : (greedy 2 (slotIndices id fiveSlots))[2 - 1]? = some 3 := by
    rw [greedy, indices]
    rfl
  have pick := keeps.mp (fun _ => fillable) 3 third
  rw [ceiling] at pick
  exact absurd pick (by decide)

/-- With slots 10 to 13, the default fraction, two transmissions and a gap of two
slots, slots 10 and 12 fit a grant; the restriction keeps 10 and 11, which do
not. -/
theorem restriction_breaks_fillable :
    earliestRounded binary64 quarter 2
        [(⟨10, ()⟩ : SlResourceInfo Nat Unit), ⟨11, ()⟩, ⟨12, ()⟩, ⟨13, ()⟩] =
      .ok [⟨10, ()⟩, ⟨11, ()⟩] ∧
    Fillable id 2 2 [(⟨10, ()⟩ : SlResourceInfo Nat Unit), ⟨11, ()⟩, ⟨12, ()⟩, ⟨13, ()⟩] ∧
    ¬ Fillable id 2 2 [(⟨10, ()⟩ : SlResourceInfo Nat Unit), ⟨11, ()⟩] := by
  refine ⟨?_, by decide, by decide⟩
  have ceiling : ⌈binary64 (quarter.value * ((4 : Nat) : ℚ))⌉₊ = 1 := by decide +kernel
  have four : (distinctSlots
      [(⟨10, ()⟩ : SlResourceInfo Nat Unit), ⟨11, ()⟩, ⟨12, ()⟩, ⟨13, ()⟩]).size = 4 := by decide
  simp only [earliestRounded, four, ceiling]
  decide

end Sidewalk.Scheduler
