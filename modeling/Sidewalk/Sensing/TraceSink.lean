import Sidewalk.Foundation.Csv
import Sidewalk.Foundation.Run
import Sidewalk.Protocol.Delivery

/-!
Owns the model of `SensingTraceSink`: the header its constructor writes, the node
it reads from the context of a trace source, and the row `Save` writes for one run
of the sensing algorithm. The rows are those of a schema, so that the file can be
read back column by column.

Does not own the trace source nor its reports. Of the lists that `Save` receives it
only writes the lengths. How a time prints is a parameter, and the difference of
the thresholds fits an `int`.
-/

set_option autoImplicit false

namespace Sidewalk.Sensing

open Sidewalk.Foundation Sidewalk.Protocol

/-- The members of `NrSlUeMac::SensingTraceReport` that `Save` uses; `slot` is
`m_sfn.Normalize()`. -/
structure SensingTraceReport where
  slot : Nat
  t0 : Nat
  tProc0 : Nat
  t1 : Nat
  t2 : Nat
  subchannels : Nat
  lSubch : Nat
  resourcePercentage : Nat
  initialCandidateSlotsSize : Nat
  initialCandidateResourcesSize : Nat
  candidateResourcesSizeAfterStep5 : Nat
  initialRsrpThreshold : Int
  finalRsrpThreshold : Int
deriving DecidableEq, Repr

/-- A call of `Save` at a time: its context, its report and the lengths of its
lists. -/
structure SaveCall where
  nowNs : Nat
  context : Text
  report : SensingTraceReport
  candidateResources : Nat
  sensingData : Nat
  transmitHistory : Nat
deriving DecidableEq, Repr

/-- What the constructor writes. -/
def header : Text :=
  "time_s,node,slot,t0,tproc0,t1,t2,subchannels,l_subch,resource_pct,".toList ++
    "init_cand_slots,s_a_step4,s_a_step5,rsrp_thr_init_dbm,rsrp_thr_final_dbm,".toList ++
    "backoff_steps,cand_out,sensing_entries,tx_history\n".toList

/-- `std::stoul(context.substr(10, context.find('/', 10) - 10))`. Without a `/` the
count is larger than any text. -/
def nodeId (context : Text) : Except Decimal.ConversionError Nat :=
  if context.length < 10 then .error .outOfRange
  else Decimal.stoul ((context.drop 10).takeWhile fun c => c ≠ '/')

/-- There was data in the sensing window. -/
def SaveCall.valid (call : SaveCall) : Bool := call.sensingData ≠ 0

/-- `backoffSteps`. -/
def SaveCall.backoffSteps (call : SaveCall) : Int :=
  if call.valid then
    (call.report.finalRsrpThreshold - call.report.initialRsrpThreshold).tdiv 3
  else 0

/-- `SensingTraceSink::Save` on what was written before. -/
def save (printSeconds : Nat → Text) (out : Text) (call : SaveCall) :
    Except Decimal.ConversionError Text := do
  let r := call.report
  let nodeId ← nodeId call.context
  return out ++ printSeconds call.nowNs ++ ',' :: Decimal.ofNat nodeId ++
    ',' :: Decimal.ofNat r.slot ++ ',' :: Decimal.ofNat r.t0 ++ ',' :: Decimal.ofNat r.tProc0 ++
    ',' :: Decimal.ofNat r.t1 ++ ',' :: Decimal.ofNat r.t2 ++ ',' :: Decimal.ofNat r.subchannels ++
    ',' :: Decimal.ofNat r.lSubch ++ ',' :: Decimal.ofNat r.resourcePercentage ++
    ',' :: Decimal.ofNat r.initialCandidateSlotsSize ++
    ',' :: Decimal.ofNat r.initialCandidateResourcesSize ++
    ',' :: Decimal.ofNat r.candidateResourcesSizeAfterStep5 ++ [','] ++
    (if call.valid then
      Decimal.ofInt r.initialRsrpThreshold ++ ',' :: Decimal.ofInt r.finalRsrpThreshold
    else [',']) ++
    ',' :: Decimal.ofInt call.backoffSteps ++ ',' :: Decimal.ofNat call.candidateResources ++
    ',' :: Decimal.ofNat call.sensingData ++ ',' :: Decimal.ofNat call.transmitHistory ++ ['\n']

/-! ## The schema of the file -/

/-- A row: the call it was written for and the node read from its context. -/
structure Row where
  nodeId : Nat
  call : SaveCall

/-- A threshold, which is left blank without data. -/
def Row.threshold (row : Row) (value : SensingTraceReport → Int) : Option Int :=
  if row.call.valid then some (value row.call.report) else none

/-- The columns of integers. -/
def cellColumns : List (String × (Row → Option Int)) :=
  [("node", fun row => some row.nodeId),
    ("slot", fun row => some row.call.report.slot),
    ("t0", fun row => some row.call.report.t0),
    ("tproc0", fun row => some row.call.report.tProc0),
    ("t1", fun row => some row.call.report.t1),
    ("t2", fun row => some row.call.report.t2),
    ("subchannels", fun row => some row.call.report.subchannels),
    ("l_subch", fun row => some row.call.report.lSubch),
    ("resource_pct", fun row => some row.call.report.resourcePercentage),
    ("init_cand_slots", fun row => some row.call.report.initialCandidateSlotsSize),
    ("s_a_step4", fun row => some row.call.report.initialCandidateResourcesSize),
    ("s_a_step5", fun row => some row.call.report.candidateResourcesSizeAfterStep5),
    ("rsrp_thr_init_dbm", fun row => row.threshold SensingTraceReport.initialRsrpThreshold),
    ("rsrp_thr_final_dbm", fun row => row.threshold SensingTraceReport.finalRsrpThreshold),
    ("backoff_steps", fun row => some row.call.backoffSteps),
    ("cand_out", fun row => some row.call.candidateResources),
    ("sensing_entries", fun row => some row.call.sensingData),
    ("tx_history", fun row => some row.call.transmitHistory)]

/-- The columns of the file. -/
def columns (printSeconds : Nat → Text) : List (Csv.Field × (Row → Csv.Field)) :=
  ("time_s".toList, fun row => printSeconds row.call.nowNs) ::
    cellColumns.map fun column => (column.1.toList, fun row => Csv.ofCell (column.2 row))

/-- The names of the header, in order. -/
theorem names_eq (printSeconds : Nat → Text) :
    (columns printSeconds).map Prod.fst =
      ["time_s", "node", "slot", "t0", "tproc0", "t1", "t2", "subchannels", "l_subch",
        "resource_pct", "init_cand_slots", "s_a_step4", "s_a_step5", "rsrp_thr_init_dbm",
        "rsrp_thr_final_dbm", "backoff_steps", "cand_out", "sensing_entries",
        "tx_history"].map String.toList := rfl

/-- The file of a sink as a schema. -/
def schema (printSeconds : Nat → Text) : Csv.Schema Row where
  columns := columns printSeconds
  several := by simp [columns, cellColumns]
  names_plain := by
    have plain : ∀ name ∈ (columns printSeconds).map Prod.fst, Csv.Plain name := by
      rw [names_eq]
      decide +kernel
    exact List.forall_mem_map.mp plain
  names_distinct := by
    rw [names_eq]
    decide +kernel

theorem header_eq (printSeconds : Nat → Text) : header = Csv.line (schema printSeconds).names := by
  change header = Csv.line ((columns printSeconds).map Prod.fst)
  rw [names_eq]
  decide +kernel

/-! ## What `Save` writes -/

variable {printSeconds : Nat → Text}

/-- The contexts that `Config::Connect` passes: `/NodeList/<id>/DeviceList/...`. -/
def contextOf (id : Nat) (rest : Text) : Text :=
  "/NodeList/".toList ++ Decimal.ofNat id ++ '/' :: rest

theorem nodeId_contextOf {id : Nat} (fits : id < 2 ^ 64) (rest : Text) :
    nodeId (contextOf id rest) = .ok id := by
  have digits : ∀ c ∈ Decimal.ofNat id, decide (c ≠ '/') = true := by
    intro c member
    rw [decide_eq_true_eq]
    intro slash
    exact Decimal.not_mem_ofNat id (by decide) (slash ▸ member)
  have front : "/NodeList/".toList.length = 10 := by decide +kernel
  have long : ¬ (contextOf id rest).length < 10 := by
    unfold contextOf
    rw [List.length_append, List.length_append, front]
    omega
  have dropped : (contextOf id rest).drop 10 = Decimal.ofNat id ++ '/' :: rest := by
    unfold contextOf
    rw [List.append_assoc]
    exact List.drop_left' front
  unfold nodeId
  rw [if_neg long, dropped, List.takeWhile_append_of_pos digits]
  rw [List.takeWhile_cons_of_neg (by decide), List.append_nil]
  exact Decimal.stoul_ofNat fits

/-- A call writes the row of the schema. -/
theorem save_eq {call : SaveCall} {id : Nat} (isNode : nodeId call.context = .ok id) (out : Text) :
    save printSeconds out call =
      .ok (out ++ Csv.line ((schema printSeconds).fields ⟨id, call⟩)) := by
  unfold save
  rw [isNode]
  simp only [bind, Except.bind, pure, Except.pure, Except.ok.injEq]
  by_cases valid : call.valid = true
  · simp [Csv.line, Csv.Schema.fields, schema, columns, cellColumns, Csv.ofCell,
      Row.threshold, valid, Decimal.ofInt_natCast, List.intercalate_cons_cons]
  · simp [Csv.line, Csv.Schema.fields, schema, columns, cellColumns, Csv.ofCell,
      Row.threshold, valid, Decimal.ofInt_natCast, List.intercalate_cons_cons]

/-- The rows of calls whose contexts name a node. -/
def rowsOf (calls : List SaveCall) : List Row :=
  calls.map fun call => ⟨(nodeId call.context).toOption.getD 0, call⟩

/-- The file after a list of calls is that of their rows. -/
theorem saves_eq {calls : List SaveCall}
    (named : ∀ call ∈ calls, ∃ id, nodeId call.context = .ok id) :
    Run.run (save printSeconds) header calls =
      .ok ((schema printSeconds).write (rowsOf calls)) := by
  have appended : ∀ out, Run.run (save printSeconds) out calls =
      .ok (out ++
        (rowsOf calls).flatMap fun row => Csv.line ((schema printSeconds).fields row)) := by
    induction calls with
    | nil =>
        intro out
        rw [Run.run_nil]
        exact congrArg Except.ok (List.append_nil out).symm
    | cons call calls inductionHypothesis =>
        intro out
        obtain ⟨⟨id, isNode⟩, later⟩ := List.forall_mem_cons.mp named
        rw [Run.run_cons (save_eq isNode out), inductionHypothesis later, List.append_assoc]
        simp [rowsOf, isNode, Except.toOption]
  rw [appended header, header_eq printSeconds]
  rfl

theorem plainRecord (plain : ∀ time, Csv.Plain (printSeconds time)) (row : Row) :
    (schema printSeconds).PlainRecord row := by
  intro column member
  rcases List.mem_cons.mp member with time | later
  · rw [time]
    exact plain row.call.nowNs
  · obtain ⟨cells, -, rfl⟩ := List.mem_map.mp later
    exact Csv.plain_ofCell (cells.2 row)

/-- Every column of integers is read back. -/
theorem ints_read {rows : List Row} {name : String} {value : Row → Option Int}
    (isColumn : (name, value) ∈ cellColumns) :
    Csv.Table.ints ⟨(schema printSeconds).names, rows.map (schema printSeconds).fields⟩
      name.toList = some (rows.map value) := by
  apply Csv.ints_write
  exact List.mem_cons_of_mem _ (List.mem_map_of_mem isColumn)

end Sidewalk.Sensing
