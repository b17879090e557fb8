import Mathlib.Data.Rat.Floor
import Sidewalk.Foundation.SortedSet

/-!
Owns the model of `NrSlUeMacSchedulerEarliest::DoNrSlAllocation`: the distinct
candidate slots, the number of slots to keep, the cutoff slot and the filtered
list handed to the base class, with every operation of the standard library
that is undefined outside its domain modelled as a fault.

Does not own `NrSlUeMacSchedulerFixedMcs`: the base class is a parameter that
receives the list. How the product `m_slotFraction * slots.size()` is rounded is a
parameter; `earliest` and `doNrSlAllocation` take it exactly. The log statements are
left out.
-/

set_option autoImplicit false

namespace Sidewalk.Scheduler

open Sidewalk.Foundation

/-- The attribute `SlotFraction` within the bounds of its `MakeDoubleChecker`. -/
structure SlotFraction where
  value : ℚ
  nonneg : 0 ≤ value
  le_one : value ≤ 1

/-- `SlResourceInfo`. The allocation reads only the slot; the subchannel and
pool fields are carried along. -/
structure SlResourceInfo (Slot Rest : Type) where
  sfn : Slot
  rest : Rest
deriving DecidableEq, Repr

/-- What the standard library leaves undefined on the way to the base class. -/
inductive Fault where
  /-- `std::clamp` with `hi < lo` -/
  | clampBounds
  /-- `std::advance` beyond `end()` -/
  | advancePastEnd
  /-- dereference of `end()` -/
  | dereferenceEnd
deriving DecidableEq, Repr

variable {Slot Rest : Type} [LinearOrder Slot]

/-- The set filled by the loop `slots.insert(res.sfn)`. -/
def distinctSlots (candResources : List (SlResourceInfo Slot Rest)) : SortedSet Slot :=
  candResources.foldl (fun slots res => slots.insert res.sfn) SortedSet.empty

/-- `std::clamp`. -/
def clamp (value low high : Nat) : Except Fault Nat :=
  if high < low then .error .clampBounds
  else .ok (if value < low then low else if high < value then high else value)

/-- `keep - 1` on `std::size_t`, which wraps at zero. -/
def sizePred (keep : Nat) : Nat :=
  if keep = 0 then 2 ^ 64 - 1 else keep - 1

/-- An operation that is undefined where it yields nothing. -/
def defined {α : Type} (fault : Fault) : Option α → Except Fault α
  | none => .error fault
  | some value => .ok value

/-- The body of `DoNrSlAllocation` up to the call of the base class: the list
`earliest`. `maxTx` is the value of `GetSlMaxTxTransNumPssch()`, and `round` rounds
the product `m_slotFraction * slots.size()`. -/
def earliestRounded (round : ℚ → ℚ) (slotFraction : SlotFraction) (maxTx : Nat)
    (candResources : List (SlResourceInfo Slot Rest)) :
    Except Fault (List (SlResourceInfo Slot Rest)) := do
  let slots := distinctSlots candResources
  let minSlots := max 1 maxTx
  let keep ←
    clamp ⌈round (slotFraction.value * slots.size)⌉₊ (min minSlots slots.size) slots.size
  let cutoff ← defined .advancePastEnd (slots.advance (sizePred keep))
  let lastKept ← defined .dereferenceEnd (slots.deref cutoff)
  return candResources.filter fun res => ¬ lastKept < res.sfn

/-- The list `earliest` with the exact product. -/
def earliest (slotFraction : SlotFraction) (maxTx : Nat)
    (candResources : List (SlResourceInfo Slot Rest)) :
    Except Fault (List (SlResourceInfo Slot Rest)) :=
  earliestRounded id slotFraction maxTx candResources

/-- `NrSlUeMacSchedulerEarliest::DoNrSlAllocation` over the base class's method
`base`, whose result stands for everything that method returns and changes. -/
def doNrSlAllocation {DstInfo Grants Info Result : Type}
    (base : List (SlResourceInfo Slot Rest) → DstInfo → Grants → Info → Result)
    (slotFraction : SlotFraction) (maxTx : Nat)
    (candResources : List (SlResourceInfo Slot Rest)) (dstInfo : DstInfo)
    (slotAllocList : Grants) (allocationInfo : Info) : Except Fault Result := do
  let kept ← earliest slotFraction maxTx candResources
  return base kept dstInfo slotAllocList allocationInfo

/-! ## The intended selection -/

/-- The distinct slots of a candidate list. -/
def candidateSlots (candResources : List (SlResourceInfo Slot Rest)) : Finset Slot :=
  (candResources.map SlResourceInfo.sfn).toFinset

/-- The `count` smallest slots of a set. -/
def smallest (slots : Finset Slot) (count : Nat) : List Slot := slots.sort.take count

/-- The number of slots the class comment promises: the fraction of all slots,
but as many as a grant needs while there are that many. -/
def keepCount (slotFraction : SlotFraction) (maxTx count : Nat) : Nat :=
  max ⌈slotFraction.value * count⌉₊ (min (max 1 maxTx) count)

/-- The number of slots kept when the product is rounded. -/
def keepRounded (round : ℚ → ℚ) (slotFraction : SlotFraction) (maxTx count : Nat) : Nat :=
  max (min ⌈round (slotFraction.value * count)⌉₊ count) (min (max 1 maxTx) count)

/-! ## The set of slots -/

@[simp] theorem mem_candidateSlots {candResources : List (SlResourceInfo Slot Rest)} {slot : Slot} :
    slot ∈ candidateSlots candResources ↔ ∃ res ∈ candResources, res.sfn = slot := by
  simp [candidateSlots]

theorem mem_distinctSlots {candResources : List (SlResourceInfo Slot Rest)} {slot : Slot} :
    slot ∈ (distinctSlots candResources).elems ↔ slot ∈ candidateSlots candResources := by
  rw [distinctSlots, SortedSet.mem_foldl_insert]
  simp [candidateSlots]

theorem distinctSlots_toFinset (candResources : List (SlResourceInfo Slot Rest)) :
    (distinctSlots candResources).elems.toFinset = candidateSlots candResources := by
  ext slot
  rw [List.mem_toFinset, mem_distinctSlots]

theorem distinctSlots_elems (candResources : List (SlResourceInfo Slot Rest)) :
    (distinctSlots candResources).elems = (candidateSlots candResources).sort := by
  rw [SortedSet.elems_eq_sort, distinctSlots_toFinset]

theorem distinctSlots_size (candResources : List (SlResourceInfo Slot Rest)) :
    (distinctSlots candResources).size = (candidateSlots candResources).card := by
  rw [SortedSet.size_eq_card, distinctSlots_toFinset]

theorem candidateSlots_card_pos {candResources : List (SlResourceInfo Slot Rest)}
    (nonempty : candResources ≠ []) : 0 < (candidateSlots candResources).card := by
  obtain ⟨res, member⟩ := List.exists_mem_of_ne_nil candResources nonempty
  exact Finset.card_pos.mpr ⟨res.sfn, mem_candidateSlots.mpr ⟨res, member, rfl⟩⟩

/-! ## The number of slots kept -/

theorem ceil_fraction_le (slotFraction : SlotFraction) (count : Nat) :
    ⌈slotFraction.value * count⌉₊ ≤ count := by
  apply Nat.ceil_le.mpr
  have bound := mul_le_mul_of_nonneg_right slotFraction.le_one (Nat.cast_nonneg (α := ℚ) count)
  rwa [one_mul] at bound

theorem keepCount_le (slotFraction : SlotFraction) (maxTx count : Nat) :
    keepCount slotFraction maxTx count ≤ count :=
  max_le (ceil_fraction_le slotFraction count) (min_le_right _ _)

theorem keepCount_pos (slotFraction : SlotFraction) (maxTx : Nat) {count : Nat}
    (positive : 0 < count) : 0 < keepCount slotFraction maxTx count := by
  have floor : 0 < min (max 1 maxTx) count := by omega
  exact lt_of_lt_of_le floor (le_max_right _ _)

theorem keepRounded_id (slotFraction : SlotFraction) (maxTx count : Nat) :
    keepRounded id slotFraction maxTx count = keepCount slotFraction maxTx count := by
  have fits : ⌈id (slotFraction.value * count)⌉₊ ≤ count := ceil_fraction_le slotFraction count
  rw [keepRounded, min_eq_left fits, keepCount, id]

theorem keepRounded_le (round : ℚ → ℚ) (slotFraction : SlotFraction) (maxTx count : Nat) :
    keepRounded round slotFraction maxTx count ≤ count :=
  max_le (min_le_right _ _) (min_le_right _ _)

theorem keepRounded_pos (round : ℚ → ℚ) (slotFraction : SlotFraction) (maxTx : Nat) {count : Nat}
    (positive : 0 < count) : 0 < keepRounded round slotFraction maxTx count := by
  have floor : 0 < min (max 1 maxTx) count := by omega
  exact lt_of_lt_of_le floor (le_max_right _ _)

/-- The bounds handed to `std::clamp` are ordered, and its result is the number of
slots kept. -/
theorem clamp_eq_keepRounded (round : ℚ → ℚ) (slotFraction : SlotFraction) (maxTx count : Nat) :
    clamp ⌈round (slotFraction.value * count)⌉₊ (min (max 1 maxTx) count) count =
      .ok (keepRounded round slotFraction maxTx count) := by
  have low : min (max 1 maxTx) count ≤ count := min_le_right _ _
  rw [clamp, if_neg (not_lt.mpr low), keepRounded]
  congr 1
  split_ifs with below above
  · exact (max_eq_right ((min_le_left _ _).trans below.le)).symm
  · rw [min_eq_right above.le, max_eq_left low]
  · rw [min_eq_left (not_lt.mp above), max_eq_left (not_lt.mp below)]

theorem clamp_eq_keepCount (slotFraction : SlotFraction) (maxTx count : Nat) :
    clamp ⌈slotFraction.value * count⌉₊ (min (max 1 maxTx) count) count =
      .ok (keepCount slotFraction maxTx count) := by
  rw [← keepRounded_id, ← clamp_eq_keepRounded, id]

/-! ## The list handed on -/

theorem sizePred_add_one {keep : Nat} (positive : 0 < keep) : sizePred keep + 1 = keep := by
  unfold sizePred
  rw [if_neg (by omega)]
  omega

/-- On a non-empty candidate list the cutoff is a position inside the set. -/
theorem cutoff_lt_size {keep : Nat} {candResources : List (SlResourceInfo Slot Rest)}
    (positive : 0 < keep) (fits : keep ≤ (candidateSlots candResources).card) :
    sizePred keep < (distinctSlots candResources).size := by
  have back := sizePred_add_one positive
  rw [distinctSlots_size]
  omega

/-- On a non-empty candidate list the allocation reaches the base class with
exactly the resources whose slot is among the `keepRounded` smallest. -/
theorem earliestRounded_eq_filter (round : ℚ → ℚ) (slotFraction : SlotFraction) (maxTx : Nat)
    {candResources : List (SlResourceInfo Slot Rest)} (nonempty : candResources ≠ []) :
    earliestRounded round slotFraction maxTx candResources =
      .ok (candResources.filter fun res =>
        res.sfn ∈ smallest (candidateSlots candResources)
          (keepRounded round slotFraction maxTx (candidateSlots candResources).card)) := by
  have keepPositive :=
    keepRounded_pos round slotFraction maxTx (candidateSlots_card_pos nonempty)
  have inSet := cutoff_lt_size keepPositive (keepRounded_le round slotFraction maxTx _)
  generalize keepEq : keepRounded round slotFraction maxTx (candidateSlots candResources).card =
    keep at *
  have advanced : (distinctSlots candResources).advance (sizePred keep) = some (sizePred keep) :=
    if_pos inSet.le
  have lastAt := List.getElem?_eq_getElem inSet
  unfold earliestRounded
  simp only [distinctSlots_size, clamp_eq_keepRounded, keepEq]
  simp only [advanced, defined, SortedSet.deref, lastAt, bind, Except.bind, pure, Except.pure]
  congr 1
  apply List.filter_congr
  intro res member
  have slotMember : res.sfn ∈ (distinctSlots candResources).elems :=
    mem_distinctSlots.mpr (mem_candidateSlots.mpr ⟨res, member, rfl⟩)
  have cut := SortedSet.mem_take_iff (distinctSlots candResources).ascending lastAt (a := res.sfn)
  rw [sizePred_add_one keepPositive] at cut
  rw [decide_eq_decide, smallest, ← distinctSlots_elems, cut]
  exact ⟨fun notAbove => ⟨slotMember, notAbove⟩, fun kept => kept.2⟩

/-- With the exact product these are the slots that were promised. -/
theorem earliest_eq_filter (slotFraction : SlotFraction) (maxTx : Nat)
    {candResources : List (SlResourceInfo Slot Rest)} (nonempty : candResources ≠ []) :
    earliest slotFraction maxTx candResources =
      .ok (candResources.filter fun res =>
        res.sfn ∈ smallest (candidateSlots candResources)
          (keepCount slotFraction maxTx (candidateSlots candResources).card)) := by
  rw [earliest, earliestRounded_eq_filter id slotFraction maxTx nonempty, keepRounded_id]

end Sidewalk.Scheduler
