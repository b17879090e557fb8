import Mathlib.Algebra.Order.Ring.Int
import Sidewalk.Foundation.Decimal

/-!
Owns the part of the scenario's `main` that prepares the selection window: the
default of the reservation period, the limit on `T2` with its store in 16 bits,
the clamp with its notice, and the values handed to the MAC. The results say for
which command lines the window fits one reservation period.

Does not own the command line parser nor the MAC. The options are 16-bit, as
their variables are.
-/

set_option autoImplicit false

namespace Sidewalk.Scenario

open Sidewalk.Foundation

/-- The options that decide the selection window, with the defaults of `main`.
The numerologies of NR keep `1 << numerologyBwpSl` and its product in an `int`. -/
structure WindowOptions where
  msgPeriod : UInt16 := 100
  reservationPeriod : UInt16 := 0
  numerologyBwpSl : UInt16 := 0
  t1 : UInt16 := 2
  t2 : UInt16 := 33
  msgPeriod_pos : 1 ≤ msgPeriod := by decide
  numerology_le : numerologyBwpSl ≤ 4 := by decide

/-- What `main` hands on: the MAC attributes `T1` and `T2`, the reservation
period, and the notice on standard output when `T2` was clamped. -/
structure MacWindow where
  t1 : UInt8
  t2 : UInt16
  reservationPeriod : UInt16
  notice : Option (List Char)
deriving DecidableEq, Repr

/-- `reservationPeriod` once 0 is replaced by `msgPeriod`. -/
def WindowOptions.effectivePeriod (options : WindowOptions) : UInt16 :=
  if options.reservationPeriod = 0 then options.msgPeriod else options.reservationPeriod

/-- `reservationPeriod * (1 << numerologyBwpSl) - t1 - 1`, an `int`. -/
def WindowOptions.limit (options : WindowOptions) : Int :=
  (options.effectivePeriod.toNat * (1 <<< options.numerologyBwpSl.toNat) : Nat) -
    options.t1.toNat - 1

/-- `maxT2`: the limit stored in a `uint16_t`. -/
def WindowOptions.maxT2 (options : WindowOptions) : UInt16 := UInt16.ofInt options.limit

/-- The notice printed when `T2` is clamped. -/
def WindowOptions.clampNotice (options : WindowOptions) : List Char :=
  "Clamping T2 from ".toList ++ Decimal.ofNat options.t2.toNat ++ " to ".toList ++
    Decimal.ofNat options.maxT2.toNat ++ " slots to fit the ".toList ++
    Decimal.ofNat options.effectivePeriod.toNat ++ " ms reservation period\n".toList

/-- The window handed to the MAC. -/
def macWindow (options : WindowOptions) : MacWindow :=
  let clamped := options.maxT2 < options.t2
  { t1 := options.t1.toUInt8
    t2 := if clamped then options.maxT2 else options.t2
    reservationPeriod := options.effectivePeriod
    notice := if clamped then some options.clampNotice else none }

/-! ## A limit stored in a fixed width -/

/-- A limit that wrapped modulo `width` limits as the true one does if and only
if `value` stays below every multiple of `width` that the limit passes. -/
theorem min_emod_eq_iff {width value limit : Int} (valueNonneg : 0 ≤ value)
    (valueFits : value < width) (limitNonneg : 0 ≤ limit) :
    min value (limit % width) = min value limit ↔
      ∀ k : Int, 1 ≤ k → width * k ≤ limit → width * k + value ≤ limit := by
  have remainderNonneg : 0 ≤ limit % width := Int.emod_nonneg limit (by omega)
  have remainderLt : limit % width < width := Int.emod_lt_of_pos limit (by omega)
  have division : width * (limit / width) + limit % width = limit :=
    Int.mul_ediv_add_emod limit width
  constructor
  · intro same k positive passed
    -- the last multiple that the limit passes decides
    have atMost : k ≤ limit / width := Int.le_ediv_of_mul_le (by omega) (by rwa [mul_comm])
    have scaled : width * k ≤ width * (limit / width) :=
      Int.mul_le_mul_of_nonneg_left atMost (by omega)
    have above : width ≤ width * k := le_mul_of_one_le_right (by omega) positive
    have kept : value ≤ limit % width := by omega
    omega
  · intro stays
    by_cases small : limit < width
    · rw [Int.emod_eq_of_lt limitNonneg small]
    · have positive : 1 ≤ limit / width := Int.le_ediv_of_mul_le (by omega) (by omega)
      have kept := stays (limit / width) positive (by omega)
      have above : width ≤ width * (limit / width) := le_mul_of_one_le_right (by omega) positive
      omega

theorem toNat_ofInt (value : Int) : ((UInt16.ofInt value).toNat : Int) = value % 65536 := by
  have nonneg : 0 ≤ value % 65536 := Int.emod_nonneg value (by decide)
  unfold UInt16.ofInt
  rw [UInt16.toNat_ofNat']
  omega

/-! ## The reservation period -/

/-- The slots of one reservation period: `reservationPeriod * 2 ^ mu`. -/
def WindowOptions.periodSlots (options : WindowOptions) : Int :=
  options.effectivePeriod.toNat * 2 ^ options.numerologyBwpSl.toNat

theorem limit_eq (options : WindowOptions) :
    options.limit = options.periodSlots - options.t1.toNat - 1 := by
  unfold WindowOptions.limit WindowOptions.periodSlots
  rw [Nat.one_shiftLeft]
  push_cast
  rfl

theorem effectivePeriod_pos (options : WindowOptions) : 1 ≤ options.effectivePeriod.toNat := by
  have positive := UInt16.le_iff_toNat_le.mp options.msgPeriod_pos
  unfold WindowOptions.effectivePeriod
  split
  next => exact positive
  next nonzero =>
    have : options.reservationPeriod.toNat ≠ 0 := fun zero => nonzero (UInt16.toNat_inj.mp zero)
    omega

theorem periodSlots_pos (options : WindowOptions) : 0 < options.periodSlots := by
  have period := effectivePeriod_pos options
  unfold WindowOptions.periodSlots
  exact Int.mul_pos (by omega) (Int.pow_pos (by decide))

/-- A negative limit is stored as a value that is no limit at all. -/
theorem periodSlots_le_of_negative {options : WindowOptions}
    (negative : options.periodSlots ≤ options.t1.toNat) :
    options.periodSlots ≤ (options.periodSlots - options.t1.toNat - 1) % 65536 := by
  have t1Fits := options.t1.toNat_lt
  have positive := periodSlots_pos options
  rw [← Int.add_emod_right, Int.emod_eq_of_lt (by omega) (by omega)]
  omega

theorem macWindow_t2 (options : WindowOptions) :
    ((macWindow options).t2.toNat : Int) =
      min (options.t2.toNat : Int) (options.limit % 65536) := by
  rw [← toNat_ofInt]
  show (((if options.maxT2 < options.t2 then options.maxT2 else options.t2).toNat : Nat) : Int) = _
  have compare : options.maxT2 < options.t2 ↔ options.maxT2.toNat < options.t2.toNat :=
    UInt16.lt_iff_toNat_lt
  unfold WindowOptions.maxT2 at *
  split
  next above =>
    have := compare.mp above
    omega
  next notAbove =>
    have := mt compare.mpr notAbove
    omega

/-! ## The window inside one reservation period -/

/-- The window fits one reservation period: `T2` lies inside the period, and it is
the requested end limited by what the period leaves after `T1`, so an end that
fits is passed on unchanged. -/
structure FitsPeriod (options : WindowOptions) : Prop where
  inside : ((macWindow options).t2.toNat : Int) < options.periodSlots
  limited : options.t1.toNat + 1 ≤ options.periodSlots →
    ((macWindow options).t2.toNat : Int) =
      min (options.t2.toNat : Int) (options.periodSlots - options.t1.toNat - 1)
  unchanged : options.t1.toNat + options.t2.toNat + 1 ≤ options.periodSlots →
    (macWindow options).t2 = options.t2

/-- With `T1` inside the period the window fits if and only if the stored limit
limits like the true one. -/
theorem fitsPeriod_iff_of_inside {options : WindowOptions}
    (inside : options.t1.toNat + 1 ≤ options.periodSlots) :
    FitsPeriod options ↔
      ∀ k : Int, 1 ≤ k → options.t1.toNat + 65536 * k + 1 ≤ options.periodSlots →
        options.t1.toNat + options.t2.toNat + 65536 * k + 1 ≤ options.periodSlots := by
  have t2Fits := options.t2.toNat_lt
  have value := macWindow_t2 options
  rw [limit_eq] at value
  have alike : min (options.t2.toNat : Int) ((options.periodSlots - options.t1.toNat - 1) % 65536) =
      min (options.t2.toNat : Int) (options.periodSlots - options.t1.toNat - 1) ↔ _ :=
    min_emod_eq_iff (by omega) (by omega) (by omega)
  rw [← value] at alike
  constructor
  · intro fits k positive passed
    have := alike.mp (fits.limited inside) k positive (by omega)
    omega
  · intro condition
    have limited : ((macWindow options).t2.toNat : Int) =
        min (options.t2.toNat : Int) (options.periodSlots - options.t1.toNat - 1) := by
      apply alike.mpr
      intro k positive passed
      have := condition k positive (by omega)
      omega
    refine ⟨by omega, fun _ => limited, ?_⟩
    intro fits
    apply UInt16.toNat_inj.mp
    omega

/-- With `T1` beyond the period the limit is negative and limits nothing: the
window fits if and only if the requested `T2` lies inside the period. -/
theorem fitsPeriod_iff_of_outside {options : WindowOptions}
    (outside : options.periodSlots ≤ options.t1.toNat) :
    FitsPeriod options ↔ options.t2.toNat < options.periodSlots := by
  have value := macWindow_t2 options
  rw [limit_eq] at value
  have stored := periodSlots_le_of_negative outside
  constructor
  · intro fits
    have inside := fits.inside
    omega
  · intro requested
    refine ⟨by omega, ?_, ?_⟩
    · intro fits
      omega
    · intro fits
      omega

/-- The window fits one reservation period if and only if `T1` or the requested
`T2` lies inside the period, and the requested `T2` leads no multiple of 65536
that fits the period after `T1` out of it. -/
theorem fitsPeriod_iff (options : WindowOptions) :
    FitsPeriod options ↔
      (options.t1.toNat < options.periodSlots ∨ options.t2.toNat < options.periodSlots) ∧
      ∀ k : Int, 1 ≤ k → options.t1.toNat + 65536 * k + 1 ≤ options.periodSlots →
        options.t1.toNat + options.t2.toNat + 65536 * k + 1 ≤ options.periodSlots := by
  by_cases inside : options.t1.toNat + 1 ≤ options.periodSlots
  · rw [fitsPeriod_iff_of_inside inside]
    constructor
    · intro condition
      exact ⟨Or.inl (by omega), condition⟩
    · intro both
      exact both.2
  · have outside : options.periodSlots ≤ options.t1.toNat := by omega
    rw [fitsPeriod_iff_of_outside outside]
    constructor
    · intro requested
      refine ⟨Or.inr requested, ?_⟩
      intro k positive passed
      omega
    · intro both
      omega

/-- One message per millisecond in numerology 0, and the default window: the limit
is -2, so `T2` is not clamped. -/
def shortPeriod : WindowOptions := { msgPeriod := 1 }

/-- The longest period in numerology 1 and an end that fits: `T2` is clamped. -/
def longPeriod : WindowOptions :=
  { reservationPeriod := 65535, numerologyBwpSl := 1, t2 := 65535 }

/-- Both ends of the 16-bit store are reached: a `T2` beyond the period passes, and
one that fits is shortened. -/
theorem wrapped_limits_do_not_fit :
    (shortPeriod.periodSlots = 1 ∧ (macWindow shortPeriod).t2 = 33 ∧ ¬ FitsPeriod shortPeriod) ∧
      (longPeriod.periodSlots = 131070 ∧ (macWindow longPeriod).t2 = 65531 ∧
        ¬ FitsPeriod longPeriod) := by
  refine ⟨⟨by decide, by decide, ?_⟩, by decide, by decide, ?_⟩
  · intro fits
    exact absurd fits.inside (by decide)
  · intro fits
    exact absurd (fits.unchanged (by decide)) (by decide)

example : (macWindow { msgPeriod := 20 }).t2 = 17 := by decide

end Sidewalk.Scenario
