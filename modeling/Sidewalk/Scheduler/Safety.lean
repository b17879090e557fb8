import Sidewalk.Scheduler.Restriction

/-!
Owns the safety of the cutoff computation of `DoNrSlAllocation`: which operations
on the way to the base class have to stay inside their domain, and for which
candidate lists they do.

Does not own whether the scheduler's caller ever passes an empty list.
-/

set_option autoImplicit false

namespace Sidewalk.Scheduler

open Sidewalk.Foundation

variable {Slot Rest : Type} [LinearOrder Slot]

/-- Every operation up to `*cutoff` is inside its domain: the bounds of
`std::clamp` are ordered, `keep - 1` does not wrap, and the iterator advances to
an element of the slot set. -/
structure CutoffSafe (slotFraction : SlotFraction) (maxTx : Nat)
    (candResources : List (SlResourceInfo Slot Rest)) (keep cutoff : Nat) (lastKept : Slot) :
    Prop where
  ordered :
    min (max 1 maxTx) (distinctSlots candResources).size ≤ (distinctSlots candResources).size
  clamped : clamp ⌈slotFraction.value * (distinctSlots candResources).size⌉₊
    (min (max 1 maxTx) (distinctSlots candResources).size)
    (distinctSlots candResources).size = .ok keep
  noWrap : sizePred keep + 1 = keep
  advanced : (distinctSlots candResources).advance (sizePred keep) = some cutoff
  dereferenced : (distinctSlots candResources).deref cutoff = some lastKept
  element : lastKept ∈ candidateSlots candResources

/-- The call computes its cutoff safely and reaches the base class with a sublist
of its candidates. -/
def SafeAllocation {DstInfo Grants Info Result : Type}
    (base : List (SlResourceInfo Slot Rest) → DstInfo → Grants → Info → Result)
    (slotFraction : SlotFraction) (maxTx : Nat)
    (candResources : List (SlResourceInfo Slot Rest)) (dstInfo : DstInfo)
    (slotAllocList : Grants) (allocationInfo : Info) : Prop :=
  ∃ keep cutoff lastKept kept,
    CutoffSafe slotFraction maxTx candResources keep cutoff lastKept ∧
      List.Sublist kept candResources ∧
      doNrSlAllocation base slotFraction maxTx candResources dstInfo slotAllocList allocationInfo =
        .ok (base kept dstInfo slotAllocList allocationInfo)

/-! ## A pool with candidates -/

/-- The cutoff is safe on every candidate list with an element, at any fraction
and any number of transmissions. -/
theorem cutoffSafe_of_nonempty (slotFraction : SlotFraction) (maxTx : Nat)
    {candResources : List (SlResourceInfo Slot Rest)} (nonempty : candResources ≠ []) :
    ∃ keep cutoff lastKept, CutoffSafe slotFraction maxTx candResources keep cutoff lastKept := by
  have keepPositive := keepCount_pos slotFraction maxTx (candidateSlots_card_pos nonempty)
  have inSet := cutoff_lt_size keepPositive (keepCount_le slotFraction maxTx _)
  have clamped := clamp_eq_keepCount slotFraction maxTx (candidateSlots candResources).card
  rw [← distinctSlots_size] at clamped keepPositive inSet
  refine ⟨_, _, _, min_le_right _ _, clamped, sizePred_add_one keepPositive, if_pos inSet.le,
    List.getElem?_eq_getElem inSet, ?_⟩
  exact mem_distinctSlots.mp (List.getElem_mem inSet)

theorem doNrSlAllocation_sublist {DstInfo Grants Info Result : Type}
    (base : List (SlResourceInfo Slot Rest) → DstInfo → Grants → Info → Result)
    (slotFraction : SlotFraction) (maxTx : Nat)
    {candResources : List (SlResourceInfo Slot Rest)} (nonempty : candResources ≠ [])
    (dstInfo : DstInfo) (slotAllocList : Grants) (allocationInfo : Info) :
    ∃ kept, List.Sublist kept candResources ∧
      doNrSlAllocation base slotFraction maxTx candResources dstInfo slotAllocList allocationInfo =
        .ok (base kept dstInfo slotAllocList allocationInfo) := by
  refine ⟨_, ?_, doNrSlAllocation_eq base slotFraction maxTx nonempty _ _ _⟩
  exact List.filter_sublist

/-! ## An exhausted pool -/

/-- Without candidates `keep` is zero, `keep - 1` wraps, and the iterator is
advanced past the end; the base class is not reached. -/
theorem doNrSlAllocation_nil {DstInfo Grants Info Result : Type}
    (base : List (SlResourceInfo Slot Rest) → DstInfo → Grants → Info → Result)
    (slotFraction : SlotFraction) (maxTx : Nat) (dstInfo : DstInfo) (slotAllocList : Grants)
    (allocationInfo : Info) :
    doNrSlAllocation base slotFraction maxTx [] dstInfo slotAllocList allocationInfo =
      .error .advancePastEnd := by
  have none : (distinctSlots ([] : List (SlResourceInfo Slot Rest))).size = 0 := rfl
  have noKeep : keepCount slotFraction maxTx 0 = 0 :=
    Nat.le_zero.mp (keepCount_le slotFraction maxTx 0)
  have wrapped : (distinctSlots ([] : List (SlResourceInfo Slot Rest))).advance (sizePred 0) =
      Option.none := by
    unfold SortedSet.advance
    rw [none]
    exact if_neg (by decide)
  unfold doNrSlAllocation earliest earliestRounded
  simp only [none, id, clamp_eq_keepCount, noKeep]
  simp only [bind, Except.bind, wrapped, defined]

theorem not_safeAllocation_nil {DstInfo Grants Info Result : Type}
    (base : List (SlResourceInfo Slot Rest) → DstInfo → Grants → Info → Result)
    (slotFraction : SlotFraction) (maxTx : Nat) (dstInfo : DstInfo) (slotAllocList : Grants)
    (allocationInfo : Info) :
    ¬ SafeAllocation base slotFraction maxTx [] dstInfo slotAllocList allocationInfo := by
  intro safe
  obtain ⟨_, _, _, kept, _, _, reached⟩ := safe
  rw [doNrSlAllocation_nil] at reached
  cases reached

/-- The call is safe on exactly the candidate lists that are not empty. -/
theorem safeAllocation_iff {DstInfo Grants Info Result : Type}
    (base : List (SlResourceInfo Slot Rest) → DstInfo → Grants → Info → Result)
    (slotFraction : SlotFraction) (maxTx : Nat)
    (candResources : List (SlResourceInfo Slot Rest)) (dstInfo : DstInfo)
    (slotAllocList : Grants) (allocationInfo : Info) :
    SafeAllocation base slotFraction maxTx candResources dstInfo slotAllocList allocationInfo ↔
      candResources ≠ [] := by
  constructor
  · intro safe empty
    subst empty
    exact not_safeAllocation_nil base slotFraction maxTx dstInfo slotAllocList allocationInfo safe
  · intro nonempty
    obtain ⟨keep, cutoff, lastKept, cutoffSafe⟩ :=
      cutoffSafe_of_nonempty slotFraction maxTx nonempty
    obtain ⟨kept, sublist, reached⟩ :=
      doNrSlAllocation_sublist base slotFraction maxTx nonempty dstInfo slotAllocList allocationInfo
    exact ⟨keep, cutoff, lastKept, kept, cutoffSafe, sublist, reached⟩

/-- An exhausted pool under the default fraction: the iterator runs off the set. -/
theorem exhausted_pool_not_safe :
    doNrSlAllocation (fun (kept : List (SlResourceInfo Nat Nat)) (_ _ _ : Unit) => kept) quarter 1
        [] () () () = .error .advancePastEnd ∧
      ¬ SafeAllocation (fun (kept : List (SlResourceInfo Nat Nat)) (_ _ _ : Unit) => kept) quarter 1
        [] () () () := by
  constructor
  · apply doNrSlAllocation_nil
  · apply not_safeAllocation_nil

end Sidewalk.Scheduler
