import Mathlib.Algebra.BigOperators.Group.List.Basic
import Mathlib.Data.List.ReduceOption
import Mathlib.Algebra.Ring.Rat
import Sidewalk.Foundation.KeyedTable

/-!
Owns the model of `kpis`: the reception ratio, the latencies and the other
indicators it computes from the tables of one run, with the exceptions it can
raise. The results of this module say what does not depend on the order of the
rows.

Does not own pandas nor NumPy: `set_index` with `reindex` is a keyed lookup that
gives NaN for an absent key and refuses repeated labels, and `np.percentile` is a
parameter. Arithmetic is exact; `none` stands for a NaN or an infinity.
-/

set_option autoImplicit false

namespace Sidewalk.Analysis

open Sidewalk.Foundation

/-- The two trace names in the column `txRx`. -/
inductive TxRx where
  | tx
  | rx
deriving DecidableEq, Repr

/-- A row of the table `pktTxRx`. `nodeId` is the node whose application wrote it,
which `kpis` does not select. -/
structure PktRow (Ip : Type) where
  timeSec : ℚ
  txRx : TxRx
  nodeId : Nat
  srcIp : Ip
  pktSeqNum : Nat
deriving DecidableEq, Repr

/-- A row of the table `simulPsschTx`. -/
structure PsschTx where
  numOverlapping : Nat
  totalTx : Nat
deriving DecidableEq, Repr

/-- A row of the table `PsschTbRx`. -/
structure PsschTbRx where
  psschFailCount : Nat
  totalRx : Nat
deriving DecidableEq, Repr

/-- The tables of one run that `kpis` reads. -/
structure Database (Ip : Type) where
  pktTxRx : List (PktRow Ip)
  avrgPir : List ℚ
  simulPsschTx : List PsschTx
  psschTbRx : List PsschTbRx

/-- What `kpis` can raise. -/
inductive KpiError where
  | zeroDivision
  | duplicateLabels
  | indexError
deriving DecidableEq, Repr

/-- The dictionary `kpis` returns. -/
structure Kpis where
  prr : ℚ
  pirMs : Option ℚ
  collisionFrac : Option ℚ
  psschFailFrac : ℚ
  latP50Ms : ℚ
  latP95Ms : ℚ
  withinPdb : Option ℚ
deriving DecidableEq, Repr

variable {Ip : Type} [DecidableEq Ip]

/-- The columns `srcIp` and `pktSeqNum`, by which a packet is identified. -/
def PktRow.packet (row : PktRow Ip) : Ip × Nat := (row.srcIp, row.pktSeqNum)

/-- `p[p.txRx == "tx"]`. -/
def txRows (p : List (PktRow Ip)) : List (PktRow Ip) := p.filter fun row => row.txRx = .tx

/-- `p[p.txRx == "rx"]`. -/
def rxRows (p : List (PktRow Ip)) : List (PktRow Ip) := p.filter fun row => row.txRx = .rx

/-- `p.srcIp.nunique()`. -/
def nNodes (p : List (PktRow Ip)) : Nat := KeyedTable.nunique (p.map PktRow.srcIp)

/-- `len(rx) / (len(tx) * (n_nodes - 1))`. -/
def prr (p : List (PktRow Ip)) : Except KpiError ℚ :=
  let potential : Int := (txRows p).length * ((nNodes p : Int) - 1)
  if potential = 0 then .error .zeroDivision else .ok ((rxRows p).length / potential)

/-- One entry of the subtraction of the re-indexed column. -/
def latency (rx : PktRow Ip) (tx : Option (PktRow Ip)) : Option ℚ :=
  tx.map fun tx => rx.timeSec - tx.timeSec

/-- `lat` once its NaN entries are dropped. -/
def lat (p : List (PktRow Ip)) : Except KpiError (List ℚ) :=
  match KeyedTable.reindex PktRow.packet (txRows p) ((rxRows p).map PktRow.packet) with
  | none => .error .duplicateLabels
  | some sent => .ok (List.zipWith latency (rxRows p) sent).reduceOption

/-- `mean()` of a column. -/
def mean (column : List ℚ) : Option ℚ :=
  if column.isEmpty then none else some (column.sum / column.length)

/-- `(lat <= pdb_s).mean()`. -/
def withinPdb (lat : List ℚ) (pdbS : ℚ) : Option ℚ :=
  mean (lat.map fun latency => if latency ≤ pdbS then 1 else 0)

/-- `iloc[0]`. -/
def iloc0 {Row : Type} (rows : List Row) : Except KpiError Row :=
  match rows with
  | [] => .error .indexError
  | row :: _ => .ok row

/-- `kpis`. -/
def kpis (percentile : List ℚ → ℚ → Except KpiError ℚ) (db : Database Ip) (pdbS : ℚ) :
    Except KpiError Kpis := do
  let prr ← prr db.pktTxRx
  let pir := mean db.avrgPir
  let st ← iloc0 db.simulPsschTx
  let tb ← iloc0 db.psschTbRx
  let lat ← lat db.pktTxRx
  let latP50 ← percentile lat 50
  let latP95 ← percentile lat 95
  return {
    prr := prr
    pirMs := pir.map fun pir => 1000 * pir
    collisionFrac := if st.totalTx = 0 then none else some (st.numOverlapping / st.totalTx)
    psschFailFrac := tb.psschFailCount / max tb.totalRx 1
    latP50Ms := 1000 * latP50
    latP95Ms := 1000 * latP95
    withinPdb := withinPdb lat pdbS }

/-! ## The latencies -/

/-- With unique packets the subtraction pairs each received row with its packet. -/
theorem lat_eq {p : List (PktRow Ip)} (unique : ((txRows p).map PktRow.packet).Nodup) :
    lat p = .ok ((rxRows p).map fun rx =>
      latency rx (KeyedTable.find? PktRow.packet (txRows p) rx.packet)).reduceOption := by
  unfold lat KeyedTable.reindex
  rw [if_pos unique]
  simp only [List.map_map, List.zipWith_map_right, List.zipWith_self, Function.comp_apply]

/-- Entries that are all there are all kept, in order. -/
theorem forall₂_reduceOption {Row Value : Type} {entry : Row → Option Value}
    {correct : Row → Value → Prop} {rows : List Row}
    (each : ∀ row ∈ rows, ∃ value, entry row = some value ∧ correct row value) :
    List.Forall₂ correct rows (rows.map entry).reduceOption := by
  induction rows with
  | nil => exact List.Forall₂.nil
  | cons row rows inductionHypothesis =>
      obtain ⟨value, found, holds⟩ := each row List.mem_cons_self
      rw [List.map_cons, found, List.reduceOption_cons_of_some]
      apply List.Forall₂.cons holds
      apply inductionHypothesis
      intro later member
      exact each later (List.mem_cons_of_mem row member)

/-- A block that returns got past its first statement. -/
theorem exists_of_bind_ok {ε α β : Type} {first : Except ε α} {next : α → Except ε β} {result : β}
    (returned : first >>= next = .ok result) :
    ∃ value, first = .ok value ∧ next value = .ok result := by
  cases first with
  | error error => cases returned
  | ok value => exact ⟨value, rfl, returned⟩

theorem kpis_ok {percentile : List ℚ → ℚ → Except KpiError ℚ} {db : Database Ip} {pdbS : ℚ}
    {result : Kpis} (returned : kpis percentile db pdbS = .ok result) :
    prr db.pktTxRx = .ok result.prr ∧
      ∃ values, lat db.pktTxRx = .ok values ∧ result.withinPdb = withinPdb values pdbS := by
  unfold kpis at returned
  obtain ⟨ratio, ratioEq, returned⟩ := exists_of_bind_ok returned
  obtain ⟨st, -, returned⟩ := exists_of_bind_ok returned
  obtain ⟨tb, -, returned⟩ := exists_of_bind_ok returned
  obtain ⟨values, valuesEq, returned⟩ := exists_of_bind_ok returned
  obtain ⟨latP50, -, returned⟩ := exists_of_bind_ok returned
  obtain ⟨latP95, -, returned⟩ := exists_of_bind_ok returned
  have result := Except.ok.inj returned
  subst result
  exact ⟨ratioEq, values, valuesEq, rfl⟩

/-- `kpis` returns once there is a ratio, the percentiles of the latencies exist and
the other two tables have a row. -/
theorem exists_kpis {percentile : List ℚ → ℚ → Except KpiError ℚ} {db : Database Ip} {ratio : ℚ}
    {values : List ℚ} (ratioEq : prr db.pktTxRx = .ok ratio)
    (valuesEq : lat db.pktTxRx = .ok values)
    (levels : ∀ level, ∃ value, percentile values level = .ok value)
    (someSt : db.simulPsschTx ≠ []) (someTb : db.psschTbRx ≠ []) (pdbS : ℚ) :
    ∃ result, kpis percentile db pdbS = .ok result := by
  obtain ⟨st, sts, stEq⟩ := List.exists_cons_of_ne_nil someSt
  obtain ⟨tb, tbs, tbEq⟩ := List.exists_cons_of_ne_nil someTb
  obtain ⟨latP50, p50Eq⟩ := levels 50
  obtain ⟨latP95, p95Eq⟩ := levels 95
  unfold kpis
  rw [ratioEq, valuesEq, stEq, tbEq]
  simp only [iloc0, bind, Except.bind, p50Eq, p95Eq]
  exact ⟨_, rfl⟩

/-! ## The order of the rows -/

variable {p other : List (PktRow Ip)}

theorem nNodes_congr (perm : p.Perm other) : nNodes p = nNodes other :=
  KeyedTable.nunique_congr (perm.map PktRow.srcIp)

theorem prr_congr (perm : p.Perm other) : prr p = prr other := by
  unfold prr txRows rxRows
  rw [nNodes_congr perm, (perm.filter _).length_eq, (perm.filter _).length_eq]

theorem lat_congr (unique : ((txRows p).map PktRow.packet).Nodup) (perm : p.Perm other) :
    ∃ values others, lat p = .ok values ∧ lat other = .ok others ∧ values.Perm others := by
  have txPerm : (txRows p).Perm (txRows other) := perm.filter _
  have otherUnique : ((txRows other).map PktRow.packet).Nodup :=
    (txPerm.map PktRow.packet).nodup_iff.mp unique
  refine ⟨_, _, lat_eq unique, lat_eq otherUnique, ?_⟩
  rw [KeyedTable.find?_congr unique txPerm]
  apply List.Perm.filterMap
  exact (perm.filter _).map _

theorem mean_congr {column permuted : List ℚ} (perm : column.Perm permuted) :
    mean column = mean permuted := by
  unfold mean
  rw [perm.isEmpty_eq, perm.sum_eq, perm.length_eq]

theorem withinPdb_congr {values others : List ℚ} (perm : values.Perm others) (pdbS : ℚ) :
    withinPdb values pdbS = withinPdb others pdbS :=
  mean_congr (perm.map _)

end Sidewalk.Analysis
