import Sidewalk.Scheduler.Earliest

/-!
Owns what the restriction to the earliest slots guarantees: the forwarded list
is exactly the candidates of the promised number of smallest slots, it grows
with the slot fraction and with the number of transmissions, and it is the whole
candidate list at fraction one or when there are no more slots than a grant
needs.

Does not own the spacing that the base class enforces on the list.
-/

set_option autoImplicit false

namespace Sidewalk.Scheduler

open Sidewalk.Foundation

variable {Slot Rest : Type} [LinearOrder Slot]

/-! ## The smallest slots -/

theorem smallest_sublist (slots : Finset Slot) {fewer more : Nat} (le : fewer ≤ more) :
    List.Sublist (smallest slots fewer) (smallest slots more) :=
  List.take_sublist_take_left le

theorem mem_of_mem_smallest {slots : Finset Slot} {count : Nat} {slot : Slot}
    (member : slot ∈ smallest slots count) : slot ∈ slots :=
  (Finset.mem_sort (· ≤ ·)).mp (List.mem_of_mem_take member)

theorem smallest_nodup (slots : Finset Slot) (count : Nat) : (smallest slots count).Nodup :=
  (Finset.sort_nodup slots (· ≤ ·)).sublist (List.take_sublist _ _)

theorem smallest_length (slots : Finset Slot) {count : Nat} (fits : count ≤ slots.card) :
    (smallest slots count).length = count := by
  rw [smallest, List.length_take, Finset.length_sort]
  exact min_eq_left fits

theorem mem_smallest_card {slots : Finset Slot} {slot : Slot} :
    slot ∈ smallest slots slots.card ↔ slot ∈ slots := by
  have all : slots.sort.take slots.card = slots.sort :=
    List.take_of_length_le (Finset.length_sort (· ≤ ·)).le
  rw [smallest, all, Finset.mem_sort]

theorem lt_of_mem_smallest {slots : Finset Slot} {count : Nat} {kept dropped : Slot}
    (keptMember : kept ∈ smallest slots count) (droppedMember : dropped ∈ slots)
    (isDropped : dropped ∉ smallest slots count) : kept < dropped := by
  have split := List.take_append_drop count (slots.sort (· ≤ ·))
  have ascending : (slots.sort (· ≤ ·)).Pairwise (· < ·) := slots.sortedLT_sort.pairwise
  have inSort : dropped ∈ slots.sort (· ≤ ·) := (Finset.mem_sort (· ≤ ·)).mpr droppedMember
  rw [← split] at ascending inSort
  have later := (List.mem_append.mp inSort).resolve_left isDropped
  exact (List.pairwise_append.mp ascending).2.2 kept keptMember dropped later

theorem min'_mem_smallest {slots : Finset Slot} (nonempty : slots.Nonempty) {count : Nat}
    (positive : 0 < count) : slots.min' nonempty ∈ smallest slots count := by
  have some : 0 < slots.sort.length := by
    rw [Finset.length_sort]
    exact Finset.card_pos.mpr nonempty
  rw [smallest, ← Finset.sorted_zero_eq_min' (h := some)]
  exact List.mem_take_iff_getElem.mpr ⟨0, by omega, rfl⟩

/-! ## The forwarded list -/

/-- The candidates of the `count` smallest candidate slots. -/
def candidatesOf (count : Nat) (candResources : List (SlResourceInfo Slot Rest)) :
    List (SlResourceInfo Slot Rest) :=
  candResources.filter fun res => res.sfn ∈ smallest (candidateSlots candResources) count

theorem mem_candidatesOf {count : Nat} {candResources : List (SlResourceInfo Slot Rest)}
    {res : SlResourceInfo Slot Rest} :
    res ∈ candidatesOf count candResources ↔
      res ∈ candResources ∧ res.sfn ∈ smallest (candidateSlots candResources) count := by
  simp [candidatesOf]

theorem earliest_eq_candidatesOf (slotFraction : SlotFraction) (maxTx : Nat)
    {candResources : List (SlResourceInfo Slot Rest)} (nonempty : candResources ≠ []) :
    earliest slotFraction maxTx candResources =
      .ok (candidatesOf
        (keepCount slotFraction maxTx (candidateSlots candResources).card) candResources) :=
  earliest_eq_filter slotFraction maxTx nonempty

theorem earliestRounded_eq_candidatesOf (round : ℚ → ℚ) (slotFraction : SlotFraction) (maxTx : Nat)
    {candResources : List (SlResourceInfo Slot Rest)} (nonempty : candResources ≠ []) :
    earliestRounded round slotFraction maxTx candResources =
      .ok (candidatesOf
        (keepRounded round slotFraction maxTx (candidateSlots candResources).card)
        candResources) :=
  earliestRounded_eq_filter round slotFraction maxTx nonempty

theorem doNrSlAllocation_eq {DstInfo Grants Info Result : Type}
    (base : List (SlResourceInfo Slot Rest) → DstInfo → Grants → Info → Result)
    (slotFraction : SlotFraction) (maxTx : Nat)
    {candResources : List (SlResourceInfo Slot Rest)} (nonempty : candResources ≠ [])
    (dstInfo : DstInfo) (slotAllocList : Grants) (allocationInfo : Info) :
    doNrSlAllocation base slotFraction maxTx candResources dstInfo slotAllocList allocationInfo =
      .ok (base (candidatesOf
        (keepCount slotFraction maxTx (candidateSlots candResources).card) candResources)
        dstInfo slotAllocList allocationInfo) := by
  rw [doNrSlAllocation, earliest_eq_candidatesOf slotFraction maxTx nonempty]
  rfl

theorem candidateSlots_candidatesOf (count : Nat)
    (candResources : List (SlResourceInfo Slot Rest)) :
    candidateSlots (candidatesOf count candResources) =
      (smallest (candidateSlots candResources) count).toFinset := by
  ext slot
  rw [mem_candidateSlots, List.mem_toFinset]
  constructor
  · rintro ⟨res, member, rfl⟩
    exact (mem_candidatesOf.mp member).2
  · intro kept
    obtain ⟨res, member, rfl⟩ := mem_candidateSlots.mp (mem_of_mem_smallest kept)
    exact ⟨res, mem_candidatesOf.mpr ⟨member, kept⟩, rfl⟩

theorem candidateSlots_candidatesOf_card {count : Nat}
    {candResources : List (SlResourceInfo Slot Rest)}
    (fits : count ≤ (candidateSlots candResources).card) :
    (candidateSlots (candidatesOf count candResources)).card = count := by
  rw [candidateSlots_candidatesOf, List.toFinset_card_of_nodup (smallest_nodup _ _),
    smallest_length _ fits]

/-- No candidate of a kept slot is lost. -/
theorem candidatesOf_filter_slot {count : Nat} {candResources : List (SlResourceInfo Slot Rest)}
    {slot : Slot} (kept : slot ∈ smallest (candidateSlots candResources) count) :
    (candidatesOf count candResources).filter (fun res => res.sfn = slot) =
      candResources.filter fun res => res.sfn = slot := by
  rw [candidatesOf, List.filter_filter]
  apply List.filter_congr
  intro res _
  by_cases here : res.sfn = slot
  · simp [here, kept]
  · simp [here]

/-- Keeping more slots keeps every resource that keeping fewer does, in order. -/
theorem candidatesOf_sublist (candResources : List (SlResourceInfo Slot Rest)) {fewer more : Nat}
    (le : fewer ≤ more) :
    List.Sublist (candidatesOf fewer candResources) (candidatesOf more candResources) := by
  apply List.monotone_filter_right candResources
  intro res kept
  simp only [decide_eq_true_eq] at kept ⊢
  exact (smallest_sublist _ le).subset kept

theorem candidatesOf_all {count : Nat} {candResources : List (SlResourceInfo Slot Rest)}
    (all : count = (candidateSlots candResources).card) :
    candidatesOf count candResources = candResources := by
  apply List.filter_eq_self.mpr
  intro res member
  rw [decide_eq_true_eq, all, mem_smallest_card]
  exact mem_candidateSlots.mpr ⟨res, member, rfl⟩

/-! ## Exactness -/

/-- The restriction is exact: with `keep` as the promised number of slots, the
base class receives all candidates of the `keep` smallest slots, in order and
with multiplicity, and nothing else. -/
theorem doNrSlAllocation_restricts_to_earliest {DstInfo Grants Info Result : Type}
    (base : List (SlResourceInfo Slot Rest) → DstInfo → Grants → Info → Result)
    (slotFraction : SlotFraction) (maxTx : Nat)
    (candResources : List (SlResourceInfo Slot Rest)) (nonempty : candResources ≠ [])
    (dstInfo : DstInfo) (slotAllocList : Grants) (allocationInfo : Info) :
    let slots := candidateSlots candResources
    let keep := max ⌈slotFraction.value * slots.card⌉₊ (min (max 1 maxTx) slots.card)
    let kept := candResources.filter fun res => res.sfn ∈ slots.sort.take keep
    keep ≤ slots.card ∧
      doNrSlAllocation base slotFraction maxTx candResources dstInfo slotAllocList allocationInfo =
        .ok (base kept dstInfo slotAllocList allocationInfo) ∧
      (candidateSlots kept).card = keep ∧
      min maxTx slots.card ≤ (candidateSlots kept).card ∧
      (∀ slot ∈ slots.sort.take keep,
        kept.filter (fun res => res.sfn = slot) =
          candResources.filter fun res => res.sfn = slot) ∧
      ∀ res ∈ kept, ∀ dropped ∈ candResources, dropped ∉ kept → res.sfn < dropped.sfn := by
  intro slots keep kept
  have fits : keep ≤ slots.card := keepCount_le slotFraction maxTx slots.card
  have distinct : (candidateSlots kept).card = keep := candidateSlots_candidatesOf_card fits
  refine ⟨fits, doNrSlAllocation_eq base slotFraction maxTx nonempty _ _ _, distinct, ?_,
    fun slot member => candidatesOf_filter_slot member, ?_⟩
  · have floor : min (max 1 maxTx) slots.card ≤ keep := le_max_right _ _
    rw [distinct]
    omega
  · intro res resKept dropped member isDropped
    have droppedSlot : dropped.sfn ∈ slots := mem_candidateSlots.mpr ⟨dropped, member, rfl⟩
    apply lt_of_mem_smallest (mem_candidatesOf.mp resKept).2 droppedSlot
    intro again
    exact isDropped (mem_candidatesOf.mpr ⟨member, again⟩)

/-- A quarter of the slots, the attribute's default. -/
def quarter : SlotFraction := ⟨1 / 4, by norm_num, by norm_num⟩

theorem doNrSlAllocation_restricts_to_earliest_quarter :
    ∃ kept : List (SlResourceInfo Nat Nat),
      doNrSlAllocation (fun kept (_ _ _ : Unit) => kept) quarter 2
        [⟨7, 0⟩, ⟨3, 0⟩, ⟨9, 1⟩, ⟨3, 1⟩, ⟨5, 0⟩] () () () = .ok kept ∧
      (candidateSlots kept).card = 2 := by
  obtain ⟨-, reached, distinct, -⟩ :=
    doNrSlAllocation_restricts_to_earliest (fun kept (_ _ _ : Unit) => kept) quarter 2
      [(⟨7, 0⟩ : SlResourceInfo Nat Nat), ⟨3, 0⟩, ⟨9, 1⟩, ⟨3, 1⟩, ⟨5, 0⟩] (by decide) () () ()
  refine ⟨_, reached, distinct.trans ?_⟩
  have four : (candidateSlots
      [(⟨7, 0⟩ : SlResourceInfo Nat Nat), ⟨3, 0⟩, ⟨9, 1⟩, ⟨3, 1⟩, ⟨5, 0⟩]).card = 4 := by decide
  rw [four]
  norm_num [quarter]

/-! ## Monotonicity and the stock scheduler -/

theorem keepCount_mono {fraction larger : SlotFraction} (le : fraction.value ≤ larger.value)
    {maxTx more : Nat} (txLe : maxTx ≤ more) (count : Nat) :
    keepCount fraction maxTx count ≤ keepCount larger more count := by
  have scaled : fraction.value * count ≤ larger.value * count :=
    mul_le_mul_of_nonneg_right le (Nat.cast_nonneg count)
  have floor : min (max 1 maxTx) count ≤ min (max 1 more) count := by omega
  exact max_le_max (Nat.ceil_mono scaled) floor

theorem keepCount_one {fraction : SlotFraction} (whole : fraction.value = 1) (maxTx count : Nat) :
    keepCount fraction maxTx count = count := by
  rw [keepCount, whole, one_mul, Nat.ceil_natCast]
  exact max_eq_left (min_le_right _ _)

theorem keepCount_few (fraction : SlotFraction) {maxTx count : Nat} (few : count ≤ max 1 maxTx) :
    keepCount fraction maxTx count = count := by
  apply le_antisymm (keepCount_le fraction maxTx count)
  rw [keepCount, min_eq_right few]
  exact le_max_right _ _

theorem least_mem_smallest {candResources : List (SlResourceInfo Slot Rest)} {slot : Slot}
    (member : slot ∈ candidateSlots candResources)
    (least : ∀ res ∈ candResources, slot ≤ res.sfn) {count : Nat} (positive : 0 < count) :
    slot ∈ smallest (candidateSlots candResources) count := by
  have isMin : (candidateSlots candResources).min' ⟨slot, member⟩ = slot := by
    refine le_antisymm (Finset.min'_le _ _ member) (Finset.le_min' _ _ _ fun other isSlot => ?_)
    obtain ⟨res, resMember, rfl⟩ := mem_candidateSlots.mp isSlot
    exact least res resMember
  rw [← isMin]
  exact min'_mem_smallest ⟨slot, member⟩ positive

/-- The restriction is nested in the slot fraction: a smaller fraction forwards a
sublist of what a larger one does, both with all candidates of the earliest
slot. At fraction one, or with no more slots than a grant needs, the base class
receives the candidate list itself, as under the stock scheduler. -/
theorem earliest_nested {DstInfo Grants Info Result : Type}
    (base : List (SlResourceInfo Slot Rest) → DstInfo → Grants → Info → Result)
    (fraction larger : SlotFraction) (le : fraction.value ≤ larger.value) (maxTx : Nat)
    (candResources : List (SlResourceInfo Slot Rest)) (nonempty : candResources ≠ []) :
    ∃ less more : List (SlResourceInfo Slot Rest),
      earliest fraction maxTx candResources = .ok less ∧
      earliest larger maxTx candResources = .ok more ∧
      List.Sublist less more ∧
      (∀ slot ∈ candidateSlots candResources, (∀ res ∈ candResources, slot ≤ res.sfn) →
        less.filter (fun res => res.sfn = slot) =
            candResources.filter (fun res => res.sfn = slot) ∧
          more.filter (fun res => res.sfn = slot) =
            candResources.filter fun res => res.sfn = slot) ∧
      (candidateSlots less).card ≤ (candidateSlots more).card ∧
      (∀ moreTx, maxTx ≤ moreTx → ∃ wider,
        earliest fraction moreTx candResources = .ok wider ∧
          (candidateSlots less).card ≤ (candidateSlots wider).card) ∧
      (fraction.value = 1 ∨ (candidateSlots candResources).card ≤ max 1 maxTx →
        less = candResources ∧
          ∀ dstInfo slotAllocList allocationInfo,
            doNrSlAllocation base fraction maxTx candResources dstInfo slotAllocList
                allocationInfo =
              .ok (base candResources dstInfo slotAllocList allocationInfo)) := by
  have positive := candidateSlots_card_pos nonempty
  have distinct := fun fraction maxTx => candidateSlots_candidatesOf_card
    (keepCount_le fraction maxTx (candidateSlots candResources).card)
  refine ⟨_, _, earliest_eq_candidatesOf fraction maxTx nonempty,
    earliest_eq_candidatesOf larger maxTx nonempty,
    candidatesOf_sublist _ (keepCount_mono le le_rfl _), ?_, ?_, ?_, ?_⟩
  · intro slot member least
    have kept := fun fraction => least_mem_smallest member least
      (keepCount_pos fraction maxTx positive)
    exact ⟨candidatesOf_filter_slot (kept fraction), candidatesOf_filter_slot (kept larger)⟩
  · rw [distinct, distinct]
    exact keepCount_mono le le_rfl _
  · intro moreTx txLe
    refine ⟨_, earliest_eq_candidatesOf fraction moreTx nonempty, ?_⟩
    rw [distinct, distinct]
    exact keepCount_mono le_rfl txLe _
  · intro whole
    have all : keepCount fraction maxTx (candidateSlots candResources).card =
        (candidateSlots candResources).card :=
      whole.elim (fun one => keepCount_one one maxTx _) (fun few => keepCount_few fraction few)
    have same := candidatesOf_all all
    refine ⟨same, fun dstInfo slotAllocList allocationInfo => ?_⟩
    rw [doNrSlAllocation_eq base fraction maxTx nonempty, same]

/-- All slots: the stock scheduler's choice. -/
def wholeWindow : SlotFraction := ⟨1, by norm_num, le_rfl⟩

theorem earliest_nested_quarter_whole :
    ∃ less more : List (SlResourceInfo Nat Nat),
      earliest quarter 1 [⟨7, 0⟩, ⟨3, 0⟩, ⟨3, 1⟩] = .ok less ∧
      earliest wholeWindow 1 [⟨7, 0⟩, ⟨3, 0⟩, ⟨3, 1⟩] = .ok more ∧
      List.Sublist less more := by
  obtain ⟨less, more, lessReached, moreReached, nested, -⟩ :=
    earliest_nested (fun kept (_ _ _ : Unit) => kept) quarter wholeWindow
      (by norm_num [quarter, wholeWindow]) 1
      [(⟨7, 0⟩ : SlResourceInfo Nat Nat), ⟨3, 0⟩, ⟨3, 1⟩] (by decide)
  exact ⟨less, more, lessReached, moreReached, nested⟩

end Sidewalk.Scheduler
