import Mathlib.Algebra.BigOperators.Ring.Finset
import Mathlib.Algebra.Order.BigOperators.Group.List
import Mathlib.Algebra.Order.Field.Basic
import Mathlib.Data.Rat.Cast.Order
import Mathlib.Tactic.Ring
import Sidewalk.Analysis.Pandas
import Sidewalk.Sensing.TraceSink

/-!
Owns the model of `sensing` in `kpi.py`, which turns the sensing trace of a run into
indicators, and what they mean for the runs of the sensing algorithm that the trace
was written for: how many selections had data, how often and how far the threshold
was raised, and which fraction of the candidates each step excluded.

Does not own pandas, whose functions are a parameter with laws. Arithmetic is exact.
-/

set_option autoImplicit false

namespace Sidewalk.Analysis

open Sidewalk.Foundation Sidewalk.Protocol Sidewalk.Sensing

/-! ## `sensing` -/

/-- What `sensing` can raise. -/
inductive SensingError where
  /-- there is no header, or no table -/
  | unreadable
  /-- there is no such column of integers -/
  | noColumn (name : Text)
deriving DecidableEq, Repr

/-- The dictionary `sensing` returns when it is not empty. -/
structure SensingKpis where
  selCount : Nat
  backoffFrac : Option ℚ
  backoffStepsMean : Number
  hdExclFrac : Number
  rsrpExclFrac : Number
deriving DecidableEq, Repr

/-- A column of the table. -/
def intColumn (table : Csv.Table) (name : String) : Except SensingError (List (Option Int)) :=
  match table.ints name.toList with
  | none => .error (.noColumn name.toList)
  | some column => .ok column

/-- `1 - (d.a / d.b).mean()`. -/
def exclFrac (pandas : Pandas) (a b : List (Option Int)) : Number :=
  (pandas.mean (List.zipWith Number.divide (a.map Number.ofCell) (b.map Number.ofCell))).oneMinus

/-- `sensing`, on the content of the file or `none` when it does not exist. The
empty dictionary is `none`. -/
def sensing (pandas : Pandas) (csv : Option Text) :
    Except SensingError (Option SensingKpis) :=
  match csv with
  | none => .ok none
  | some text =>
      match pandas.readCsv.read text with
      | none => .error .unreadable
      | some table => do
          let threshold ← intColumn table "rsrp_thr_init_dbm"
          if (pandas.dropna threshold threshold).isEmpty then
            return none
          else
            let backoffSteps ← intColumn table "backoff_steps"
            let step4 ← intColumn table "s_a_step4"
            let step5 ← intColumn table "s_a_step5"
            let candOut ← intColumn table "cand_out"
            let d := pandas.dropna threshold
            return some {
              selCount := (d threshold).length
              backoffFrac := mean ((d backoffSteps).map fun steps =>
                if 0 < steps.getD 0 then 1 else 0)
              backoffStepsMean := pandas.mean ((d backoffSteps).map Number.ofCell)
              hdExclFrac := exclFrac pandas (d step5) (d step4)
              rsrpExclFrac := exclFrac pandas (d candOut) (d step5) }

/-! ## Means -/

/-- The mean of numbers between two bounds lies between them. -/
theorem mean_bounds {column : List ℚ} {low high : ℚ}
    (within : ∀ value ∈ column, low ≤ value ∧ value ≤ high) {value : ℚ}
    (isMean : mean column = some value) : low ≤ value ∧ value ≤ high := by
  have someEntry : column ≠ [] := by
    intro none
    rw [none] at isMean
    cases isMean
  have positive : (0 : ℚ) < column.length := Nat.cast_pos.mpr (List.length_pos_of_ne_nil someEntry)
  rw [mean_of_ne_nil someEntry, Option.some.injEq] at isMean
  rw [← isMean, le_div_iff₀ positive, div_le_iff₀ positive]
  constructor
  · have least := List.card_nsmul_le_sum column low fun value member => (within value member).1
    rw [nsmul_eq_mul, mul_comm] at least
    exact least
  · have most := List.sum_le_card_nsmul column high fun value member => (within value member).2
    rw [nsmul_eq_mul, mul_comm] at most
    exact most

/-- The sum of the indicators of a condition is a count. -/
theorem sum_ones {Entry : Type} (entries : List Entry) (condition : Entry → Prop)
    [DecidablePred condition] :
    (entries.map fun entry => if condition entry then (1 : ℚ) else 0).sum =
      entries.countP fun entry => condition entry := by
  induction entries with
  | nil => rfl
  | cons entry entries inductionHypothesis =>
      rw [List.map_cons, List.sum_cons, inductionHypothesis, List.countP_cons]
      by_cases holds : condition entry
      · simp [holds, add_comm]
      · simp [holds]

/-! ## Excluded fractions -/

section Fractions

variable {Entry : Type} {entries : List Entry} {a b : Entry → Nat}

/-- The fraction of `b` candidates of which `a` are left that was excluded. -/
def excluded (a b : Nat) : ℚ := (b - a) / b

/-- A NaN or a number in the unit interval. -/
def Fraction (number : Number) : Prop :=
  number = .nan ∨ ∃ value, number = .finite value ∧ 0 ≤ value ∧ value ≤ 1

theorem divide_counts (a b : Nat) :
    Number.divide (.finite a) (.finite b) =
      if b = 0 then if a = 0 then .nan else .infinite else .finite (a / b) := by
  simp only [Number.divide, Nat.cast_eq_zero]

theorem quotients_eq :
    List.zipWith Number.divide ((entries.map fun entry => some (a entry : Int)).map Number.ofCell)
      ((entries.map fun entry => some (b entry : Int)).map Number.ofCell) =
      entries.map fun entry => Number.divide (.finite (a entry)) (.finite (b entry)) := by
  simp only [List.map_map, List.zipWith_map_left, List.zipWith_map_right, List.zipWith_self]
  apply List.map_congr_left
  intro entry _
  simp [Number.ofCell]

/-- The mean of the excluded fractions over the entries that had candidates, and a NaN
when none had. -/
def meanExcluded (a b : Entry → Nat) (entries : List Entry) : Number :=
  let had := entries.filter fun entry => 0 < b entry
  if had.isEmpty then .nan
  else .finite ((had.map fun entry => excluded (a entry) (b entry)).sum / had.length)

/-- Without candidates the quotient is a NaN, which the mean passes over. -/
theorem value?_divide_counts {a b : Nat} (left : a ≤ b) :
    (Number.divide (.finite a) (.finite b)).value? =
      if 0 < b then some ((a : ℚ) / b) else none := by
  rw [divide_counts]
  by_cases candidates : 0 < b
  · rw [if_neg candidates.ne', if_pos candidates]
    rfl
  · rw [if_pos (by omega), if_pos (by omega), if_neg candidates]
    rfl

theorem divide_counts_ne_infinite {a b : Nat} (left : a ≤ b) :
    Number.divide (.finite a) (.finite b) ≠ .infinite := by
  rw [divide_counts]
  by_cases noCandidate : b = 0
  · rw [if_pos noCandidate, if_pos (by omega)]
    exact Number.noConfusion
  · rw [if_neg noCandidate]
    exact Number.noConfusion

/-- One minus a mean is the mean of one minus each. -/
theorem one_sub_mean (had : List Entry) (some : had ≠ []) (value : Entry → ℚ) :
    1 - (had.map value).sum / had.length =
      (had.map fun entry => 1 - value entry).sum / had.length := by
  have total : (had.map fun entry => 1 - value entry).sum = had.length - (had.map value).sum := by
    rw [eq_sub_iff_add_eq, ← List.sum_map_add]
    simp
  have positive : (had.length : ℚ) ≠ 0 := by
    rw [Nat.cast_ne_zero]
    exact (List.length_pos_of_ne_nil some).ne'
  rw [total, sub_div, div_self positive]

/-- The indicator is the mean of the excluded fractions where there were candidates. -/
theorem exclFrac_eq (pandas : Pandas) (left : ∀ entry ∈ entries, a entry ≤ b entry) :
    exclFrac pandas (entries.map fun entry => some (a entry : Int))
      (entries.map fun entry => some (b entry : Int)) = meanExcluded a b entries := by
  have noInfinity : Number.infinite ∉
      entries.map fun entry => Number.divide (.finite (a entry)) (.finite (b entry)) := by
    intro member
    obtain ⟨entry, entryMember, isInfinite⟩ := List.mem_map.mp member
    exact divide_counts_ne_infinite (left entry entryMember) isInfinite
  have values : (entries.map fun entry => Number.divide (.finite (a entry))
      (.finite (b entry))).filterMap Number.value? =
        (entries.filter fun entry => 0 < b entry).map fun entry => (a entry : ℚ) / b entry := by
    rw [List.filterMap_map, ← List.filterMap_eq_map', List.filterMap_filter]
    apply List.filterMap_congr
    intro entry member
    simp only [Function.comp_apply, value?_divide_counts (left entry member), decide_eq_true_eq]
  have each : ∀ entry ∈ entries.filter fun entry => 0 < b entry,
      1 - (a entry : ℚ) / b entry = excluded (a entry) (b entry) := by
    intro entry member
    have candidates : 0 < b entry := of_decide_eq_true (List.mem_filter.mp member).2
    have positive : (b entry : ℚ) ≠ 0 := Nat.cast_ne_zero.mpr candidates.ne'
    rw [excluded, sub_div, div_self positive]
  unfold exclFrac meanExcluded
  rw [quotients_eq, pandas.mean_values _ noInfinity, Number.average, values]
  by_cases none : (entries.filter fun entry => 0 < b entry) = []
  · simp [none, Analysis.mean, Number.oneMinus]
  · rw [mean_of_ne_nil (by simpa using none), if_neg (by simpa using none), List.length_map,
      ← List.map_congr_left each, ← one_sub_mean _ none]
    rfl

theorem excluded_bounds {a b : Nat} (left : a ≤ b) (candidates : 0 < b) :
    0 ≤ excluded a b ∧ excluded a b ≤ 1 := by
  have positive : (0 : ℚ) < b := Nat.cast_pos.mpr candidates
  have small : (a : ℚ) ≤ b := Nat.cast_le.mpr left
  have nonneg : (0 : ℚ) ≤ a := Nat.cast_nonneg a
  rw [excluded, le_div_iff₀ positive, div_le_iff₀ positive, zero_mul, one_mul]
  exact ⟨sub_nonneg.mpr small, sub_le_self _ nonneg⟩

/-- Excluding from candidates never gives a fraction outside the unit interval. -/
theorem meanExcluded_bounds (left : ∀ entry ∈ entries, a entry ≤ b entry) :
    Fraction (meanExcluded a b entries) := by
  unfold meanExcluded
  by_cases none : (entries.filter fun entry => 0 < b entry) = []
  · simp [none, Fraction]
  · have within : ∀ value ∈ (entries.filter fun entry => 0 < b entry).map fun entry =>
        excluded (a entry) (b entry), 0 ≤ value ∧ value ≤ 1 := by
      intro value member
      obtain ⟨entry, kept, rfl⟩ := List.mem_map.mp member
      obtain ⟨inEntries, candidates⟩ := List.mem_filter.mp kept
      exact excluded_bounds (left entry inEntries) (of_decide_eq_true candidates)
    have isMean : mean ((entries.filter fun entry => 0 < b entry).map fun entry =>
        excluded (a entry) (b entry)) = _ := mean_of_ne_nil (by simpa using none)
    rw [List.length_map] at isMean
    exact Or.inr ⟨_, if_neg (by simpa using none), mean_bounds within isMean⟩

end Fractions

/-! ## The trace of a run -/

variable {printSeconds : Nat → Text} {calls : List SaveCall}

/-- The calls with data in the sensing window. -/
def sensed (calls : List SaveCall) : List SaveCall := calls.filter SaveCall.valid

/-- A column of the trace, restricted to the rows with a threshold, is that of the
calls with data. -/
theorem dropna_rowsOf (pandas : Pandas) (value : SaveCall → Option Int) :
    pandas.dropna
        ((rowsOf calls).map fun row => row.threshold SensingTraceReport.initialRsrpThreshold)
        ((rowsOf calls).map fun row => value row.call) =
      (sensed calls).map value := by
  rw [pandas.dropna_map]
  unfold rowsOf sensed
  rw [List.filter_map, List.map_map]
  congr 1
  apply List.filter_congr
  intro call _
  show (Row.threshold ⟨_, call⟩ _).isSome = call.valid
  unfold Row.threshold
  cases call.valid <;> rfl

/-- The table that is read from the trace. -/
def traceTable (printSeconds : Nat → Text) (calls : List SaveCall) : Csv.Table :=
  ⟨(schema printSeconds).names, (rowsOf calls).map (schema printSeconds).fields⟩

theorem intColumn_trace {name : String} {value : Row → Option Int}
    (isColumn : (name, value) ∈ cellColumns) :
    intColumn (traceTable printSeconds calls) name = .ok ((rowsOf calls).map value) := by
  have column : Csv.Table.ints (traceTable printSeconds calls) name.toList =
      some ((rowsOf calls).map value) := ints_read isColumn
  unfold intColumn
  rw [column]

/-- What `sensing` computes from the trace of a list of calls. -/
theorem sensing_trace (pandas : Pandas) (calls : List SaveCall)
    (plain : ∀ time, Csv.Plain (printSeconds time)) :
    sensing pandas (some ((schema printSeconds).write (rowsOf calls))) =
      if (sensed calls).isEmpty then .ok none
      else .ok (some {
        selCount := (sensed calls).length
        backoffFrac := mean ((sensed calls).map fun call => if 0 < call.backoffSteps then 1 else 0)
        backoffStepsMean := pandas.mean ((sensed calls).map fun call => .finite call.backoffSteps)
        hdExclFrac := exclFrac pandas
          ((sensed calls).map fun call => some (call.report.candidateResourcesSizeAfterStep5 : Int))
          ((sensed calls).map fun call => some (call.report.initialCandidateResourcesSize : Int))
        rsrpExclFrac := exclFrac pandas
          ((sensed calls).map fun call => some (call.candidateResources : Int))
          ((sensed calls).map fun call =>
            some (call.report.candidateResourcesSizeAfterStep5 : Int)) }) := by
  have readBack : pandas.readCsv.read ((schema printSeconds).write (rowsOf calls)) =
      some (traceTable printSeconds calls) :=
    pandas.readCsv.read_write fun row _ => plainRecord plain row
  have threshold : intColumn (traceTable printSeconds calls) "rsrp_thr_init_dbm" =
      .ok ((rowsOf calls).map fun row => row.threshold SensingTraceReport.initialRsrpThreshold) :=
    intColumn_trace (by simp [cellColumns])
  have steps : intColumn (traceTable printSeconds calls) "backoff_steps" =
      .ok ((rowsOf calls).map fun row => some row.call.backoffSteps) :=
    intColumn_trace (by simp [cellColumns])
  have step4 : intColumn (traceTable printSeconds calls) "s_a_step4" =
      .ok ((rowsOf calls).map fun row =>
        some (row.call.report.initialCandidateResourcesSize : Int)) :=
    intColumn_trace (by simp [cellColumns])
  have step5 : intColumn (traceTable printSeconds calls) "s_a_step5" =
      .ok ((rowsOf calls).map fun row =>
        some (row.call.report.candidateResourcesSizeAfterStep5 : Int)) :=
    intColumn_trace (by simp [cellColumns])
  have candOut : intColumn (traceTable printSeconds calls) "cand_out" =
      .ok ((rowsOf calls).map fun row => some (row.call.candidateResources : Int)) :=
    intColumn_trace (by simp [cellColumns])
  have kept : pandas.dropna
      ((rowsOf calls).map fun row => row.threshold SensingTraceReport.initialRsrpThreshold)
      ((rowsOf calls).map fun row => row.threshold SensingTraceReport.initialRsrpThreshold) =
      (sensed calls).map fun call =>
        (Row.mk 0 call).threshold SensingTraceReport.initialRsrpThreshold :=
    dropna_rowsOf pandas fun call =>
      (Row.mk 0 call).threshold SensingTraceReport.initialRsrpThreshold
  unfold sensing
  simp only [readBack, threshold, steps, step4, step5, candOut, bind, Except.bind, kept,
    List.isEmpty_map, List.length_map, dropna_rowsOf pandas fun call => some call.backoffSteps,
    dropna_rowsOf pandas fun call => some (call.report.initialCandidateResourcesSize : Int),
    dropna_rowsOf pandas fun call => some (call.report.candidateResourcesSizeAfterStep5 : Int),
    dropna_rowsOf pandas fun call => some (call.candidateResources : Int), List.map_map]
  rfl

/-! ## From the trace to the indicators -/

/-- A run of the sensing algorithm as the standard describes it: the threshold is
raised `raises` times by 3 dB, and each step leaves some of the candidates of the
step before. -/
structure SensingRun (raises : SaveCall → Nat) (call : SaveCall) : Prop where
  raised : call.report.finalRsrpThreshold = call.report.initialRsrpThreshold + 3 * raises call
  step5 : call.report.candidateResourcesSizeAfterStep5 ≤ call.report.initialCandidateResourcesSize
  step6 : call.candidateResources ≤ call.report.candidateResourcesSizeAfterStep5

theorem backoffSteps_eq {raises : SaveCall → Nat} {call : SaveCall}
    (sensingRun : SensingRun raises call)
    (valid : call.valid = true) : call.backoffSteps = raises call := by
  unfold SaveCall.backoffSteps
  rw [if_pos valid, sensingRun.raised, add_sub_cancel_left]
  exact Int.mul_tdiv_cancel_left _ (by omega)

/-- For every sequence of selections the sink's file is read back column by column,
and `sensing` computes from it what the columns mean: no dictionary if no selection
had data, and otherwise the number of those that had, the fraction of them whose
threshold was raised, the mean number of raises, and the mean fractions of the
candidates that steps 5 and 6 excluded, over the selections that had candidates; they
lie in the unit interval, or are a NaN when no selection had any. -/
theorem sensing_reads_trace (pandas : Pandas) {printSeconds : Nat → Text}
    (plain : ∀ time, Csv.Plain (printSeconds time)) {calls : List SaveCall}
    (named : ∀ call ∈ calls, ∃ id rest, id < 2 ^ 64 ∧ call.context = contextOf id rest)
    {raises : SaveCall → Nat} (sensingRuns : ∀ call ∈ sensed calls, SensingRun raises call) :
    ∃ text, Run.run (save printSeconds) header calls = .ok text ∧
      (∃ table, pandas.readCsv.read text = some table ∧ ∀ column ∈ cellColumns,
        table.ints column.1.toList = some ((rowsOf calls).map column.2)) ∧
      (sensed calls = [] → sensing pandas (some text) = .ok none) ∧
      (sensed calls ≠ [] → ∃ result, sensing pandas (some text) = .ok (some result) ∧
        result.selCount = (sensed calls).length ∧
        result.backoffFrac =
          some (((sensed calls).countP fun call => 0 < raises call : Nat) /
            ((sensed calls).length : ℚ)) ∧
        result.backoffStepsMean =
          .finite (((sensed calls).map raises).sum / (sensed calls).length) ∧
        Fraction result.hdExclFrac ∧ Fraction result.rsrpExclFrac ∧
        result.hdExclFrac = meanExcluded
          (fun call => call.report.candidateResourcesSizeAfterStep5)
          (fun call => call.report.initialCandidateResourcesSize) (sensed calls) ∧
        result.rsrpExclFrac = meanExcluded (fun call => call.candidateResources)
          (fun call => call.report.candidateResourcesSizeAfterStep5) (sensed calls)) := by
  have nodes : ∀ call ∈ calls, ∃ id, nodeId call.context = .ok id := by
    intro call member
    obtain ⟨id, rest, fits, context⟩ := named call member
    exact ⟨id, context ▸ nodeId_contextOf fits rest⟩
  have computed := sensing_trace pandas calls plain
  have steps : ∀ call ∈ sensed calls, call.backoffSteps = raises call := by
    intro call member
    exact backoffSteps_eq (sensingRuns call member) (List.mem_filter.mp member).2
  refine ⟨_, saves_eq nodes, ⟨traceTable printSeconds calls, ?_, ?_⟩, ?_, ?_⟩
  · exact pandas.readCsv.read_write fun row _ => plainRecord plain row
  · intro column member
    exact ints_read member
  · intro none
    rw [computed, none]
    rfl
  · intro some
    rw [if_neg (by simpa using some)] at computed
    have step5 := fun call member => (sensingRuns call member).step5
    have step6 := fun call member => (sensingRuns call member).step6
    refine ⟨_, computed, rfl, ?_, ?_, ?_, ?_, exclFrac_eq pandas step5,
      exclFrac_eq pandas step6⟩
    · have ones : ((sensed calls).map fun call =>
          if 0 < call.backoffSteps then (1 : ℚ) else 0) =
          (sensed calls).map fun call => if 0 < raises call then (1 : ℚ) else 0 := by
        apply List.map_congr_left
        intro call member
        rw [steps call member]
        simp
      show mean _ = _
      rw [ones, mean_of_ne_nil (by simpa using some), List.length_map, sum_ones]
    · have finite : ∀ call ∈ sensed calls,
          Number.finite (call.backoffSteps : ℚ) = .finite (raises call : ℚ) := by
        intro call member
        rw [steps call member, Int.cast_natCast]
      show pandas.mean _ = _
      rw [pandas.mean_finite some finite, Nat.cast_list_sum, List.map_map]
      rfl
    · show Fraction (exclFrac _ _ _)
      rw [exclFrac_eq pandas step5]
      exact meanExcluded_bounds step5
    · show Fraction (exclFrac _ _ _)
      rw [exclFrac_eq pandas step6]
      exact meanExcluded_bounds step6

/-- A trace of two selections at node 3, the first without data; the second raises
the threshold twice and keeps half of its candidates in each step. -/
def twoSelections : List SaveCall :=
  [⟨0, contextOf 3 "DeviceList/0".toList, ⟨10, 20, 1, 2, 33, 5, 1, 20, 16, 80, 80, 0, 0⟩, 80, 0, 0⟩,
    ⟨5, contextOf 3 "DeviceList/0".toList, ⟨40, 20, 1, 2, 33, 5, 1, 20, 16, 80, 40, -128, -122⟩, 20,
      7, 1⟩]

theorem sensing_reads_trace_of_two :
    ∃ text result, Run.run (save Decimal.ofNat) header twoSelections = .ok text ∧
      sensing .documented (some text) = .ok (some result) ∧ result.selCount = 1 := by
  have named : ∀ call ∈ twoSelections,
      ∃ id rest, id < 2 ^ 64 ∧ call.context = contextOf id rest := by
    intro call member
    refine ⟨3, "DeviceList/0".toList, by omega, ?_⟩
    rcases List.mem_cons.mp member with rfl | last
    · rfl
    · rw [List.mem_singleton.mp last]
  have selected : sensed twoSelections = twoSelections.drop 1 := rfl
  have runs : ∀ call ∈ sensed twoSelections, SensingRun (fun _ => 2) call := by
    intro call member
    rw [selected] at member
    rw [List.mem_singleton.mp member]
    exact ⟨by decide, by decide, by decide⟩
  obtain ⟨text, written, -, -, someData⟩ :=
    sensing_reads_trace .documented Csv.plain_ofNat named runs
  obtain ⟨result, computed, count, -⟩ := someData (by rw [selected]; exact List.cons_ne_nil _ _)
  exact ⟨text, result, written, computed, count⟩

end Sidewalk.Analysis
