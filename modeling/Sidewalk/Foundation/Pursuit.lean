import Mathlib.Analysis.Convex.Basic
import Mathlib.Analysis.Normed.Module.Basic

/-!
Owns the pursuit of a target in a real normed space by steps of a given length:
one step reaches the target when it is near enough and otherwise moves along the
straight line to it. The laws say how far a step moves, how much nearer it comes,
and that it stays in every convex set that contains both points.

Does not own how targets and step lengths are chosen.
-/

set_option autoImplicit false

namespace Sidewalk.Foundation.Pursuit

variable {E : Type*} [NormedAddCommGroup E] [NormedSpace ℝ E]

open Classical in
/-- The position after one step of length `step` from `position` towards `target`. -/
noncomputable def stepTowards (position target : E) (step : ℝ) : E :=
  if dist position target ≤ step then target
  else position + (step / dist position target) • (target - position)

/-! ## The two cases of a step -/

theorem stepTowards_arrive {position target : E} {step : ℝ} (near : dist position target ≤ step) :
    stepTowards position target step = target := by
  unfold stepTowards
  exact if_pos near

theorem stepTowards_short {position target : E} {step : ℝ} (far : step < dist position target) :
    stepTowards position target step =
      position + (step / dist position target) • (target - position) := by
  unfold stepTowards
  exact if_neg (not_le.mpr far)

/-- A step no longer than the way moves along the straight line, also when it arrives. -/
theorem stepTowards_of_le {position target : E} {step : ℝ} (apart : 0 < dist position target)
    (within : step ≤ dist position target) :
    stepTowards position target step =
      position + (step / dist position target) • (target - position) := by
  rcases within.lt_or_eq with far | rfl
  · exact stepTowards_short far
  · rw [stepTowards_arrive le_rfl, div_self apart.ne', one_smul, add_sub_cancel]

/-! ## Distances -/

variable {position target : E} {step : ℝ}

theorem dist_stepTowards_of_short (nonneg : 0 ≤ step) (far : step < dist position target) :
    dist (stepTowards position target step) position = step := by
  have apart : 0 < dist position target := lt_of_le_of_lt nonneg far
  have ratio : 0 ≤ step / dist position target := div_nonneg nonneg apart.le
  rw [stepTowards_short far, dist_eq_norm, add_sub_cancel_left, norm_smul,
    Real.norm_of_nonneg ratio, ← dist_eq_norm' position target]
  exact div_mul_cancel₀ step apart.ne'

theorem dist_stepTowards_of_le (nonneg : 0 ≤ step) (within : step ≤ dist position target) :
    dist (stepTowards position target step) position = step := by
  rcases within.lt_or_eq with far | rfl
  · exact dist_stepTowards_of_short nonneg far
  · rw [stepTowards_arrive le_rfl, dist_comm]

/-- No step moves by more than its length. -/
theorem dist_stepTowards_le (nonneg : 0 ≤ step) :
    dist (stepTowards position target step) position ≤ step := by
  by_cases near : dist position target ≤ step
  · rw [stepTowards_arrive near, dist_comm]
    exact near
  · exact (dist_stepTowards_of_short nonneg (not_le.mp near)).le

/-- A step that does not arrive comes nearer by exactly its length. -/
theorem dist_target_stepTowards (nonneg : 0 ≤ step) (far : step < dist position target) :
    dist (stepTowards position target step) target = dist position target - step := by
  have apart : 0 < dist position target := lt_of_le_of_lt nonneg far
  have remaining : 0 ≤ 1 - step / dist position target := by
    rw [sub_nonneg, div_le_one apart]
    exact far.le
  have split : position + (step / dist position target) • (target - position) - target =
      -((1 - step / dist position target) • (target - position)) := by
    rw [sub_smul, one_smul]
    abel
  rw [stepTowards_short far, dist_eq_norm, split, norm_neg, norm_smul,
    Real.norm_of_nonneg remaining, ← dist_eq_norm' position target, sub_mul, one_mul,
    div_mul_cancel₀ step apart.ne']

/-! ## Convexity -/

/-- A step stays in every convex set that contains the position and the target. -/
theorem stepTowards_mem {region : Set E} (convex : Convex ℝ region)
    (positionIn : position ∈ region) (targetIn : target ∈ region) (nonneg : 0 ≤ step) :
    stepTowards position target step ∈ region := by
  by_cases near : dist position target ≤ step
  · rw [stepTowards_arrive near]
    exact targetIn
  · have far := not_le.mp near
    have apart : 0 < dist position target := lt_of_le_of_lt nonneg far
    rw [stepTowards_short far]
    apply convex.add_smul_sub_mem positionIn targetIn
    constructor
    · exact div_nonneg nonneg apart.le
    · rw [div_le_one apart]
      exact far.le

end Sidewalk.Foundation.Pursuit
