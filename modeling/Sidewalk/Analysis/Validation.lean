import Mathlib.Tactic.FieldSimp
import Sidewalk.Analysis.Pandas
import Sidewalk.Analysis.TruePrr
import Sidewalk.Cosim.EndToEnd

/-!
Owns the file of deliveries that the bridge writes and the model of `cosim.py`,
which compares it with the database of a standalone run. The results of this module
say what the script gets for every run of the co-simulation: the latencies that the
bridge published, and a reception ratio that is the one of `kpis` exactly when the
robot with the highest number shows up in the file.

Does not own the percentiles and the plot. How a time prints and the functions of
pandas are parameters.
-/

set_option autoImplicit false

namespace Sidewalk.Analysis

open Sidewalk.Foundation Sidewalk.Protocol Sidewalk.Bridge

/-! ## The file of deliveries -/

/-- What `BridgeNode` writes to `csv_` when it is constructed. -/
def csvHeader : Text := "sim_time_s,src,dst,latency_us\n".toList

/-- What `handleReply` writes to `csv_` for a delivery. -/
def csvRowText (printSeconds : Int → Text) (row : CsvRow) : Text :=
  printSeconds row.simNs ++ ',' :: Decimal.ofInt row.src ++ ',' :: Decimal.ofNat row.dst ++
    ',' :: Decimal.ofInt row.latencyUs ++ ['\n']

/-- The file of a node that has written these rows. -/
def csvFile (printSeconds : Int → Text) (rows : List CsvRow) : Text :=
  csvHeader ++ rows.flatMap (csvRowText printSeconds)

/-- The file as a schema. -/
def csvSchema (printSeconds : Int → Text) : Csv.Schema CsvRow where
  columns :=
    [("sim_time_s".toList, fun row => printSeconds row.simNs),
      ("src".toList, fun row => Csv.ofCell (some row.src)),
      ("dst".toList, fun row => Csv.ofCell (some (row.dst : Int))),
      ("latency_us".toList, fun row => Csv.ofCell (some row.latencyUs))]
  several := by simp
  names_plain := by
    have plain : ∀ name ∈ ["sim_time_s", "src", "dst", "latency_us"].map String.toList,
        Csv.Plain name := by decide +kernel
    exact List.forall_mem_map.mp plain
  names_distinct := by
    have distinct : (["sim_time_s", "src", "dst", "latency_us"].map String.toList).Nodup := by
      decide +kernel
    exact distinct

/-! ## `cosim.py` -/

/-- What the script can raise. -/
inductive ScriptError where
  | unreadable
  /-- there is no such column, or a cell is no integer -/
  | noColumn (name : Text)
  /-- `int` of the NaN that the maximum of an empty column is -/
  | valueError
  | kpi (error : KpiError)
deriving DecidableEq, Repr

/-- What the script compares: the latencies in milliseconds, the number of robots
and the reception ratio. -/
structure Comparison where
  coLat : List ℚ
  n : Int
  saLat : List ℚ
  saPrr : ℚ
deriving DecidableEq, Repr

/-- A column without blanks. -/
def wholeColumn (table : Csv.Table) (name : String) : Except ScriptError (List Int) :=
  match (table.ints name.toList).bind fun cells => cells.mapM id with
  | none => .error (.noColumn name.toList)
  | some column => .ok column

/-- `int(max(co.src.max(), co.dst.max())) + 1`. -/
def robotCount (src dst : List Int) : Except ScriptError Int :=
  match src.max?, dst.max? with
  | some src, some dst => .ok (max src dst + 1)
  | _, _ => .error .valueError

variable {Ip : Type} [DecidableEq Ip]

/-- `len(rx) / (len(tx) * (n - 1))`. -/
def saPrr (p : List (PktRow Ip)) (n : Int) : Except KpiError ℚ :=
  let potential : Int := (txRows p).length * (n - 1)
  if potential = 0 then .error .zeroDivision else .ok ((rxRows p).length / potential)

/-- `cosim.py`, on the bridge's file and the packets of the standalone run. -/
def cosim (pandas : Pandas) (csv : Text) (p : List (PktRow Ip)) :
    Except ScriptError Comparison := do
  let co ← match pandas.readCsv.read csv with
    | none => .error .unreadable
    | some table => .ok table
  let latencyUs ← wholeColumn co "latency_us"
  let src ← wholeColumn co "src"
  let dst ← wholeColumn co "dst"
  let n ← robotCount src dst
  let saLat ← (lat p).mapError .kpi
  let saPrr ← (saPrr p n).mapError .kpi
  return {
    coLat := latencyUs.map fun latency : Int => (latency : ℚ) / 1000
    n := n
    saLat := saLat.map fun latency => latency * 1000
    saPrr := saPrr }

/-! ## Reading the file back -/

variable {printSeconds : Int → Text} {rows : List CsvRow}

theorem csvFile_eq : csvFile printSeconds rows = (csvSchema printSeconds).write rows := by
  have header : csvHeader = Csv.line (csvSchema printSeconds).names := by
    change csvHeader = Csv.line (["sim_time_s", "src", "dst", "latency_us"].map String.toList)
    decide +kernel
  have row : csvRowText printSeconds =
      fun row => Csv.line ((csvSchema printSeconds).fields row) := by
    funext row
    simp [csvRowText, Csv.line, Csv.Schema.fields, csvSchema, Csv.ofCell, Decimal.ofInt_natCast,
      List.intercalate_cons_cons]
  unfold csvFile Csv.Schema.write
  rw [header, row]

/-- The table that is read from the file. -/
def csvTable (printSeconds : Int → Text) (rows : List CsvRow) : Csv.Table :=
  ⟨(csvSchema printSeconds).names, rows.map (csvSchema printSeconds).fields⟩

theorem read_csvFile (reader : Csv.Reader) (plain : ∀ time, Csv.Plain (printSeconds time)) :
    reader.read (csvFile printSeconds rows) = some (csvTable printSeconds rows) := by
  rw [csvFile_eq]
  apply reader.read_write
  intro row _ column member
  simp only [csvSchema, List.mem_cons, List.not_mem_nil, or_false] at member
  rcases member with rfl | rfl | rfl | rfl
  · exact plain row.simNs
  · exact Csv.plain_ofInt row.src
  · exact Csv.plain_ofInt (row.dst : Int)
  · exact Csv.plain_ofInt row.latencyUs

theorem mapM_some {Item Value : Type} (items : List Item) (value : Item → Value) :
    (items.map fun item => some (value item)).mapM id = some (items.map value) := by
  induction items with
  | nil => rfl
  | cons item items inductionHypothesis =>
      rw [List.map_cons, List.mapM_cons, inductionHypothesis]
      rfl

theorem wholeColumn_csvTable {name : String} {value : CsvRow → Int}
    (isColumn : (name.toList, fun row => Csv.ofCell (some (value row))) ∈
      (csvSchema printSeconds).columns) :
    wholeColumn (csvTable printSeconds rows) name = .ok (rows.map value) := by
  have ints : (csvTable printSeconds rows).ints name.toList =
      some (rows.map fun row => some (value row)) := Csv.ints_write isColumn
  unfold wholeColumn
  rw [ints, Option.bind_some, mapM_some]

/-- The script on a file of the bridge. -/
theorem cosim_csvFile (pandas : Pandas) (rows : List CsvRow)
    (plain : ∀ time, Csv.Plain (printSeconds time)) (p : List (PktRow Ip)) :
    cosim pandas (csvFile printSeconds rows) p = (do
      let n ← robotCount (rows.map CsvRow.src) (rows.map fun row => (row.dst : Int))
      let saLat ← (lat p).mapError .kpi
      let saPrr ← (saPrr p n).mapError .kpi
      return {
        coLat := rows.map fun row => (row.latencyUs : ℚ) / 1000
        n := n
        saLat := saLat.map fun latency => latency * 1000
        saPrr := saPrr }) := by
  have latencies : wholeColumn (csvTable printSeconds rows) "latency_us" =
      .ok (rows.map CsvRow.latencyUs) := wholeColumn_csvTable (by simp [csvSchema])
  have sources : wholeColumn (csvTable printSeconds rows) "src" = .ok (rows.map CsvRow.src) :=
    wholeColumn_csvTable (by simp [csvSchema])
  have receivers : wholeColumn (csvTable printSeconds rows) "dst" =
      .ok (rows.map fun row => (row.dst : Int)) := wholeColumn_csvTable (by simp [csvSchema])
  unfold cosim
  simp only [read_csvFile pandas.readCsv plain, latencies, sources, receivers, bind, Except.bind,
    List.map_map]
  rfl

/-! ## The number of robots -/

/-- The robots of a file are those up to the highest that sent or received, one more
than its number. -/
theorem robotCount_eq (src dst : List Int) (sameLength : src.length = dst.length)
    (some : src ≠ []) :
    ∃ highest, robotCount src dst = .ok (highest + 1) ∧ (highest ∈ src ∨ highest ∈ dst) ∧
      (∀ robot ∈ src, robot ≤ highest) ∧ ∀ robot ∈ dst, robot ≤ highest := by
  have someDst : dst ≠ [] := by
    apply List.ne_nil_of_length_pos
    rw [← sameLength]
    exact List.length_pos_of_ne_nil some
  obtain ⟨highSrc, srcMax⟩ := Option.isSome_iff_exists.mp (List.isSome_max?_of_ne_nil some)
  obtain ⟨highDst, dstMax⟩ := Option.isSome_iff_exists.mp (List.isSome_max?_of_ne_nil someDst)
  obtain ⟨srcMember, srcBound⟩ := List.max?_eq_some_iff.mp srcMax
  obtain ⟨dstMember, dstBound⟩ := List.max?_eq_some_iff.mp dstMax
  refine ⟨max highSrc highDst, ?_, ?_, ?_, ?_⟩
  · unfold robotCount
    rw [srcMax, dstMax]
  · rcases max_choice highSrc highDst with isSrc | isDst
    · rw [isSrc]
      exact Or.inl srcMember
    · rw [isDst]
      exact Or.inr dstMember
  · intro robot member
    exact le_trans (srcBound robot member) (le_max_left _ _)
  · intro robot member
    exact le_trans (dstBound robot member) (le_max_right _ _)

/-! ## The ratio with a number of robots -/

section Ratio

variable {N : Nat} {robots : Robots N Ip} {p : List (PktRow Ip)}

omit [DecidableEq Ip] in
theorem txRows_length_pos (table : RunTable robots p) (atLeastTwo : 2 ≤ N) :
    0 < (txRows p).length := by
  obtain ⟨tx, isTx, -⟩ := table.everyRobot ⟨0, by omega⟩
  exact List.length_pos_of_mem isTx

omit [DecidableEq Ip] in
theorem saPrr_eq (table : RunTable robots p) (atLeastTwo : 2 ≤ N) {count : Int}
    (several : 2 ≤ count) :
    saPrr p count =
      .ok ((rxRows p).length / (((txRows p).length : Int) * (count - 1) : Int)) := by
  have someTx := txRows_length_pos table atLeastTwo
  have potential : ((txRows p).length : Int) * (count - 1) ≠ 0 :=
    mul_ne_zero (by omega) (by omega)
  unfold saPrr
  rw [if_neg potential]

/-- `kpis` computes the ratio with the true number of robots. -/
theorem prr_eq_saPrr (table : RunTable robots p) : prr p = saPrr p N := by
  unfold prr saPrr
  rw [nNodes_eq table]

/-- With fewer robots than there are the ratio is larger, unless nothing was received. -/
theorem saPrr_compare (table : RunTable robots p) {count : Int} (several : 2 ≤ count)
    (atMost : count ≤ N) :
    ∃ ratio estimate, prr p = .ok ratio ∧ saPrr p count = .ok estimate ∧ ratio ≤ estimate ∧
      (estimate = ratio ↔ count = N ∨ rxRows p = []) := by
  have atLeastTwo : 2 ≤ N := by omega
  have someTx : (0 : ℚ) < (txRows p).length := Nat.cast_pos.mpr (txRows_length_pos table atLeastTwo)
  have seen : (0 : ℚ) < (count : ℚ) - 1 := by
    have cast : (2 : ℚ) ≤ count := by exact_mod_cast several
    linarith
  have fewer : (count : ℚ) - 1 ≤ (N : ℚ) - 1 := by
    have cast : (count : ℚ) ≤ N := by exact_mod_cast atMost
    linarith
  refine ⟨_, _, (prr_eq_saPrr table).trans (saPrr_eq table atLeastTwo (by omega)),
    saPrr_eq table atLeastTwo several, ?_, ?_⟩
  · push_cast
    apply div_le_div_of_nonneg_left (Nat.cast_nonneg _) (mul_pos someTx seen)
    exact mul_le_mul_of_nonneg_left fewer someTx.le
  · push_cast
    constructor
    · intro same
      by_cases none : rxRows p = []
      · exact Or.inr none
      · have someRx : ((rxRows p).length : ℚ) ≠ 0 :=
          Nat.cast_ne_zero.mpr (List.length_pos_of_ne_nil none).ne'
        rw [div_eq_div_iff (mul_pos someTx seen).ne' (mul_pos someTx (seen.trans_le fewer)).ne',
          mul_right_inj' someRx, mul_right_inj' someTx.ne'] at same
        have equal : (count : ℚ) = N := by linarith
        exact Or.inl (by exact_mod_cast equal)
    · intro either
      rcases either with same | none
      · rw [same]
        push_cast
        rfl
      · rw [none]
        simp

end Ratio

/-! ## Comparing the runs -/

section Runs

open Cosim

variable {n : Nat} {Coord : Type} {setting : Setting n Coord}

/-- In lock-step every row of the file names robots of the run. -/
theorem known_of_lockstep (lawful : setting.Lawful) {rounds : List (Round n Coord)}
    (schedule : Schedule setting rounds) {final : Coupled n Coord}
    (ran : Run.run (Cosim.step setting) (Coupled.initial setting) rounds = .ok final) {row : CsvRow}
    (member : row ∈ final.node.csv) : row.Known n ∧ row.dst < n := by
  have receiver := (ledger_of_lockstep lawful ran).receivers row member
  have mine : row ∈ final.node.csv.filter fun other =>
      other.dst = (⟨row.dst, receiver⟩ : Fin n).val :=
    List.mem_filter.mpr ⟨member, decide_eq_true rfl⟩
  rw [(csv_run lawful schedule ran).1 ⟨row.dst, receiver⟩] at mine
  obtain ⟨delivery, -, same⟩ := List.mem_map.mp mine
  have below := delivery.1.record.robot.isLt
  refine ⟨?_, receiver⟩
  rw [← same]
  show 0 ≤ (delivery.1.record.robot : Int) ∧ (delivery.1.record.robot : Int) < n
  omega

/-- The number of robots that the script takes from the file of a run. -/
theorem robotCount_of_lockstep (lawful : setting.Lawful) {rounds : List (Round n Coord)}
    (schedule : Schedule setting rounds) {final : Coupled n Coord}
    (ran : Run.run (Cosim.step setting) (Coupled.initial setting) rounds = .ok final)
    (some : final.node.csv ≠ []) :
    ∃ highest, robotCount (final.node.csv.map CsvRow.src)
        (final.node.csv.map fun row => (row.dst : Int)) = .ok (highest + 1) ∧
      0 ≤ highest ∧ highest < n ∧
      (∀ row ∈ final.node.csv, row.src ≤ highest ∧ (row.dst : Int) ≤ highest) ∧
      ∃ row ∈ final.node.csv, row.src = highest ∨ (row.dst : Int) = highest := by
  obtain ⟨highest, counted, isRobot, sources, receivers⟩ :=
    robotCount_eq (final.node.csv.map CsvRow.src)
      (final.node.csv.map fun row => (row.dst : Int)) (by simp) (by simpa using some)
  have found : ∃ row ∈ final.node.csv, row.src = highest ∨ (row.dst : Int) = highest := by
    rcases isRobot with source | receiver
    · obtain ⟨row, member, same⟩ := List.mem_map.mp source
      exact ⟨row, member, Or.inl same⟩
    · obtain ⟨row, member, same⟩ := List.mem_map.mp receiver
      exact ⟨row, member, Or.inr same⟩
  have bounds : ∀ row ∈ final.node.csv, row.src ≤ highest ∧ (row.dst : Int) ≤ highest := fun row
    member => ⟨sources _ (List.mem_map_of_mem member),
      receivers _ (List.mem_map_of_mem (f := fun row : CsvRow => (row.dst : Int)) member)⟩
  obtain ⟨row, member, same⟩ := found
  obtain ⟨⟨low, high⟩, receiver⟩ := known_of_lockstep lawful schedule ran member
  refine ⟨highest, counted, ?_, ?_, bounds, row, member, same⟩
  · exact low.trans (bounds row member).1
  · rcases same with source | receiverSame <;> omega

/-- The script on the file of any run of the co-simulation in lock-step and on the
packets of a standalone run with as many robots. Without a delivery it fails on the
number of robots, and when only robot 0 shows up it divides by zero. Otherwise it
compares the latencies the bridge published with those of the received packets, and
its ratio is that of `kpis` or larger: the same exactly when the last robot shows up
in the file or nothing was received. -/
theorem cosim_compares_runs (pandas : Pandas) (lawful : setting.Lawful)
    {rounds : List (Round n Coord)} (schedule : Schedule setting rounds) {final : Coupled n Coord}
    (ran : Run.run (Cosim.step setting) (Coupled.initial setting) rounds = .ok final)
    {printSeconds : Int → Text} (plain : ∀ time, Csv.Plain (printSeconds time))
    (robots : Robots n Ip) {p : List (PktRow Ip)} (table : RunTable robots p) :
    (final.node.csv = [] →
      cosim pandas (csvFile printSeconds final.node.csv) p = .error .valueError) ∧
    (final.node.csv ≠ [] → (∀ row ∈ final.node.csv, row.src = 0 ∧ row.dst = 0) →
      cosim pandas (csvFile printSeconds final.node.csv) p = .error (.kpi .zeroDivision)) ∧
    ((∃ row ∈ final.node.csv, row.src ≠ 0 ∨ row.dst ≠ 0) →
      ∃ result ratio values, cosim pandas (csvFile printSeconds final.node.csv) p = .ok result ∧
        result.coLat = final.node.latencyMs ∧
        lat p = .ok values ∧ result.saLat = values.map (fun latency => latency * 1000) ∧
        2 ≤ result.n ∧ result.n ≤ n ∧
        (result.n = n ↔
          ∃ row ∈ final.node.csv, row.src = (n : Int) - 1 ∨ (row.dst : Int) = (n : Int) - 1) ∧
        prr p = .ok ratio ∧ ratio ≤ result.saPrr ∧
        (result.saPrr = ratio ↔ result.n = n ∨ rxRows p = [])) := by
  have read := cosim_csvFile pandas final.node.csv plain p
  obtain ⟨values, latencies, -⟩ := lat_matches table
  rw [latencies] at read
  refine ⟨?_, ?_, ?_⟩
  · intro none
    rw [read, none]
    rfl
  · intro some onlyFirst
    obtain ⟨highest, counted, -, -, -, row, member, same⟩ :=
      robotCount_of_lockstep lawful schedule ran some
    have first := onlyFirst row member
    have isFirst : highest = 0 := by omega
    rw [read, counted, isFirst]
    have noOther : saPrr p (0 + 1) = .error .zeroDivision := by
      unfold saPrr
      rw [if_pos (by simp)]
    simp only [bind, Except.bind, Except.mapError, noOther]
  · intro others
    obtain ⟨other, otherMember, notFirst⟩ := others
    have some : final.node.csv ≠ [] := List.ne_nil_of_mem otherMember
    obtain ⟨highest, counted, -, below, bounds, found⟩ :=
      robotCount_of_lockstep lawful schedule ran some
    have otherBound := bounds other otherMember
    have otherKnown := (known_of_lockstep lawful schedule ran otherMember).1
    have several : 2 ≤ highest + 1 := by
      have low : 0 ≤ other.src := otherKnown.1
      omega
    have atMostN : highest + 1 ≤ n := by omega
    obtain ⟨ratio, estimate, isRatio, isEstimate, atMost, compare⟩ :=
      saPrr_compare table several atMostN
    rw [counted] at read
    simp only [bind, Except.bind, Except.mapError, isEstimate] at read
    refine ⟨_, ratio, values, read, ?_, latencies, rfl, several, atMostN, ?_, isRatio, atMost,
      compare⟩
    · exact (ledger_of_lockstep lawful ran).published.symm
    · show highest + 1 = (n : Int) ↔ _
      constructor
      · intro last
        obtain ⟨row, member, same⟩ := found
        exact ⟨row, member, by omega⟩
      · intro seen
        obtain ⟨row, member, same⟩ := seen
        have rowBound := bounds row member
        omega

/-- The delivery of a message that was overtaken, against two robots of which one
heard the other. -/
theorem cosim_compares_runs_overtaken :
    ∃ (final : Coupled 2 Int) (result : Comparison),
      Run.run (Cosim.step Cosim.twoRobots) (Coupled.initial Cosim.twoRobots) overtaken =
        .ok final ∧
      cosim .documented (csvFile Decimal.ofInt final.node.csv) twoRobotTable = .ok result ∧
      result.coLat = [10] ∧ result.n = 2 := by
  obtain ⟨final, ran⟩ := lockstep_total twoRobots_lawful overtaken_schedule
  have table : RunTable twoRobots twoRobotTable :=
    ⟨by decide, by decide, by decide, by decide, by decide, by decide⟩
  have file : (Run.run (Cosim.step Cosim.twoRobots) (Coupled.initial Cosim.twoRobots)
      overtaken).map (fun final => (final.node.csv, final.node.latencyMs)) =
        .ok ([⟨4200000000, 0, 1, 10000⟩], [10]) := by decide +kernel
  rw [ran] at file
  have outputs : (final.node.csv, final.node.latencyMs) =
      ([⟨4200000000, 0, 1, 10000⟩], [10]) := Except.ok.inj file
  obtain ⟨csv, topic⟩ := Prod.mk.inj outputs
  obtain ⟨-, -, compares⟩ := cosim_compares_runs .documented twoRobots_lawful overtaken_schedule ran
    Csv.plain_ofInt twoRobots table
  obtain ⟨result, ratio, values, computed, latencies, -, -, -, -, count, -⟩ :=
    compares ⟨⟨4200000000, 0, 1, 10000⟩, by rw [csv]; exact List.mem_singleton.mpr rfl,
      Or.inr (by decide)⟩
  refine ⟨final, result, ran, computed, latencies.trans topic, count.mpr ?_⟩
  exact ⟨⟨4200000000, 0, 1, 10000⟩, by rw [csv]; exact List.mem_singleton.mpr rfl,
    Or.inr (by decide)⟩

end Runs

end Sidewalk.Analysis
