import Mathlib.Algebra.BigOperators.Group.List.Basic
import Mathlib.Algebra.Order.Group.Defs
import Mathlib.Algebra.Order.Monoid.Unbundled.MinMax
import Mathlib.Data.List.Induction
import Mathlib.Order.Bounds.Basic
import Mathlib.Tactic.Abel

/-!
Owns the pacing of a loop: after the work of each turn it sleeps until a deadline,
one step after the previous one, and wakes up late. The lag behind the deadline
follows Lindley's recursion. Its closed form names the stretch of turns that caused
it, and from it follow the bounds: turns that fit the step make up for a lag by
their slack and leave none but the lateness of waking up.

Does not own how time is measured.
-/

set_option autoImplicit false

namespace Sidewalk.Foundation.Pacing

variable {K : Type*} [AddCommGroup K]

/-- How long a turn works before it sleeps, and how late it wakes up. -/
structure Job (K : Type*) where
  work : K
  late : K

/-- The time a turn takes besides sleeping. -/
def Job.cost (job : Job K) : K := job.work + job.late

/-! ## Stretches of turns -/

/-- The lateness of the last turn. -/
def lateness (jobs : List (Job K)) : K := jobs.getLast?.elim 0 Job.late

/-- What turns take beyond their steps. -/
def excess (step : K) (jobs : List (Job K)) : K := (jobs.map fun job => job.cost - step).sum

theorem excess_concat (step : K) (jobs : List (Job K)) (job : Job K) :
    excess step (jobs ++ [job]) = excess step jobs + (job.cost - step) := by
  simp [excess]

/-- The lags that stretches of turns up to now would cause alone. -/
def stretches (step : K) (jobs : List (Job K)) : Set K :=
  {lag | ∃ past rest, jobs = past ++ rest ∧ lag = lateness past + excess step rest}

theorem lateness_mem (step : K) (jobs : List (Job K)) : lateness jobs ∈ stretches step jobs :=
  ⟨jobs, [], (List.append_nil jobs).symm, by simp [excess]⟩

theorem stretches_concat {step lag : K} {jobs : List (Job K)} {job : Job K} :
    lag ∈ stretches step (jobs ++ [job]) ↔
      lag = job.late ∨ ∃ earlier ∈ stretches step jobs, lag = earlier + (job.cost - step) := by
  constructor
  · rintro ⟨past, rest, split, rfl⟩
    rcases List.eq_nil_or_concat rest with rfl | ⟨between, last, rfl⟩
    · left
      rw [List.append_nil] at split
      simp [← split, lateness, excess]
    · right
      rw [List.concat_eq_append, ← List.append_assoc] at split
      obtain ⟨rfl, same⟩ := List.append_inj' split rfl
      obtain rfl := List.singleton_inj.mp same
      refine ⟨_, ⟨past, between, rfl, rfl⟩, ?_⟩
      rw [List.concat_eq_append, excess_concat, add_assoc]
  · rintro (rfl | ⟨earlier, ⟨past, rest, rfl, rfl⟩, rfl⟩)
    · have last := lateness_mem step (jobs ++ [job])
      rwa [lateness, List.getLast?_concat] at last
    · refine ⟨past, rest ++ [job], by rw [List.append_assoc], ?_⟩
      rw [excess_concat, add_assoc]

/-! ## The lag -/

variable [LinearOrder K]

/-- The lag after a turn. -/
def nextLag (step lag : K) (job : Job K) : K := max (lag + job.work - step) 0 + job.late

/-- The lag after all turns. -/
def lagAfter (step : K) (jobs : List (Job K)) : K := jobs.foldl (nextLag step) 0

theorem lagAfter_concat (step : K) (jobs : List (Job K)) (job : Job K) :
    lagAfter step (jobs ++ [job]) = nextLag step (lagAfter step jobs) job :=
  List.foldl_concat _ _ _ _

variable [IsOrderedAddMonoid K] {step : K}

/-- The lag is that of the worst stretch. -/
theorem lagAfter_greatest (step : K) (jobs : List (Job K)) :
    IsGreatest (stretches step jobs) (lagAfter step jobs) := by
  induction jobs using List.reverseRecOn with
  | nil =>
      constructor
      · exact lateness_mem step []
      · rintro lag ⟨past, rest, split, rfl⟩
        obtain ⟨rfl, rfl⟩ := List.append_eq_nil_iff.mp split.symm
        simp [lateness, excess, lagAfter]
  | append_singleton jobs job inductionHypothesis =>
      obtain ⟨attained, bound⟩ := inductionHypothesis
      rw [lagAfter_concat, nextLag]
      constructor
      · apply stretches_concat.mpr
        rcases le_total (lagAfter step jobs + job.work - step) 0 with early | behind
        · left
          rw [max_eq_right early, zero_add]
        · right
          refine ⟨_, attained, ?_⟩
          rw [max_eq_left behind, Job.cost]
          abel
      · intro lag member
        rcases stretches_concat.mp member with rfl | ⟨earlier, among, rfl⟩
        · exact le_add_of_nonneg_left (le_max_right _ _)
        · have grown : earlier + job.work - step ≤ lagAfter step jobs + job.work - step :=
            sub_le_sub_right (add_le_add_left (bound among) _) _
          calc earlier + (job.cost - step)
              = earlier + job.work - step + job.late := by
                rw [Job.cost]
                abel
            _ ≤ max (lagAfter step jobs + job.work - step) 0 + job.late :=
                add_le_add_left (grown.trans (le_max_left _ _)) _

/-- No turn begins before its deadline. -/
theorem lagAfter_nonneg {jobs : List (Job K)} (late : ∀ job ∈ jobs, 0 ≤ job.late) :
    0 ≤ lagAfter step jobs := by
  rcases List.eq_nil_or_concat jobs with rfl | ⟨past, last, rfl⟩
  · exact le_rfl
  · rw [List.concat_eq_append] at late ⊢
    rw [lagAfter_concat]
    exact add_nonneg (le_max_right _ _) (late last (by simp))

/-- A loop whose turns fit and that wakes up in time is never behind. -/
theorem lagAfter_eq_zero {jobs : List (Job K)}
    (punctual : ∀ job ∈ jobs, job.work ≤ step ∧ job.late = 0) : lagAfter step jobs = 0 := by
  induction jobs using List.reverseRecOn with
  | nil => rfl
  | append_singleton jobs job inductionHypothesis =>
      obtain ⟨fits, wakes⟩ := punctual job (by simp)
      have earlier := inductionHypothesis fun other member => punctual other (by simp [member])
      rw [lagAfter_concat, nextLag, earlier, wakes, zero_add, add_zero]
      apply max_eq_right
      exact sub_nonpos.mpr fits

/-- Turns that fit the step make up for a lag by their slack, until only the lateness
of waking up is left. -/
theorem lagAfter_append_le {past rest : List (Job K)} {bound : K}
    (fits : ∀ job ∈ rest, job.cost ≤ step) (wakes : ∀ job ∈ rest, job.late ≤ bound) :
    lagAfter step (past ++ rest) ≤ max (lagAfter step past + excess step rest) bound := by
  induction rest using List.reverseRecOn with
  | nil => simp [excess]
  | append_singleton rest job inductionHypothesis =>
      have earlier := inductionHypothesis (fun other member => fits other (by simp [member]))
        fun other member => wakes other (by simp [member])
      have slack : job.cost - step ≤ 0 := sub_nonpos.mpr (fits job (by simp))
      rw [← List.append_assoc, lagAfter_concat, excess_concat, nextLag]
      rcases le_total (lagAfter step (past ++ rest) + job.work - step) 0 with early | behind
      · rw [max_eq_right early, zero_add]
        exact (wakes job (by simp)).trans (le_max_right _ _)
      · calc max (lagAfter step (past ++ rest) + job.work - step) 0 + job.late
            = lagAfter step (past ++ rest) + (job.cost - step) := by
              rw [max_eq_left behind, Job.cost]
              abel
          _ ≤ max (lagAfter step past + excess step rest) bound + (job.cost - step) :=
              add_le_add_left earlier _
          _ ≤ max (lagAfter step past + (excess step rest + (job.cost - step))) bound := by
              rw [← max_add_add_right, add_assoc]
              exact max_le_max_left _ (add_le_of_nonpos_right slack)

end Sidewalk.Foundation.Pacing
