import Sidewalk.Bridge.Ledger
import Sidewalk.Cosim.Neighbors
import Sidewalk.Cosim.PacketRatio
import Sidewalk.Cosim.Wire

/-!
Owns what becomes of a packet from its emission to the bridge's file: in every run
the file has exactly one row for each arrival of a packet emitted at most one
second before the step that precedes the arrival, with the transmitter, the
receiver, the latency and the time of the reply; and the counters and topics of
both processes agree with the file.

Does not own which packets arrive: the channel is part of the rounds. A row has the
time of the step, which the stream prints with six significant digits.
-/

set_option autoImplicit false

namespace Sidewalk.Cosim

open Sidewalk.Foundation Sidewalk.Protocol Sidewalk.Bridge Sidewalk.Gateway

variable {n : Nat} {Coord : Type} {setting : Setting n Coord}

/-! ## Rows of a round -/

/-- The row a delivery is written as by the reply of the step at `simNs`. -/
def rowOf (delivery : Reception n × Int) : CsvRow where
  simNs := delivery.2
  src := delivery.1.record.robot
  dst := delivery.1.robot
  latencyUs := delivery.1.delivery.latencyUs

/-- A reply with a table of readable deliveries writes them receiver by receiver. -/
theorem handleReply_table_csv {params : Params Coord} {simNs : Int} (small : n < 2 ^ 31)
    {table : Fin n → List (Report n)} (fits : ∀ j, ∀ report ∈ table j, report.Fits)
    {node next : BridgeNode n Coord}
    (handled : handleReply params (encodeReply table) simNs node = .ok next) :
    next.csv = node.csv ++ (List.finRange n).flatMap fun j =>
      (table j).map fun report => ⟨simNs, report.src, j, report.latencyUs⟩ := by
  rcases Nat.eq_zero_or_pos n with rfl | some
  · rw [(handleReply_ok handled).2]
    rfl
  · rw [handleReply_encodeReply params simNs some small fits, Except.ok.injEq] at handled
    rw [← handled]
    rfl

theorem awaiting_sameOutputs (system : Coupled n Coord) (round : Round n Coord) :
    SameOutputs (awaiting setting system round) system.node := by
  have waiting := (sameOutputs_afterMessage setting.params system.simNs system.node round.before
    round.during).1
  rw [stepMessage_eq] at waiting
  exact waiting

/-- The rows of a round are its deliveries, receiver by receiver. -/
theorem step_csv (lawful : setting.Lawful) {past : List (Round n Coord)}
    {system next : Coupled n Coord}
    (ran : Run.run (step setting) (Coupled.initial setting) past = .ok system)
    {round : Round n Coord} (timely : Timely setting past.length round)
    (stepped : step setting system round = .ok next) :
    next.node.csv = system.node.csv ++ (List.finRange n).flatMap (fun j =>
        (atRobot j (heard setting system round)).map fun reception =>
          rowOf (reception, system.simNs)) ∧
      next.gateway.numRx = system.gateway.numRx + (heard setting system round).length := by
  have nonneg : 0 ≤ system.simNs := (tracks_run ran).1 ▸ timeAt_nonneg setting past.length
  obtain ⟨collected, receives, -, -, serves⟩ :=
    serve_eq lawful nonneg system.gateway (callbacks system.node round.before) round
  obtain ⟨line, served, handled, -⟩ := step_ok stepped
  rw [serves, Except.ok.injEq, Prod.mk.injEq] at served
  constructor
  · rw [← served.2, reply_line lawful ran receives] at handled
    rw [handleReply_table_csv lawful.fewRobots (replyTable_fits lawful ran timely) handled]
    rw [(awaiting_sameOutputs system round).csv]
    congr 1
    apply List.flatMap_congr
    intro j _
    rw [replyTable, List.map_map]
    apply List.map_congr_left
    intro reception member
    have here : reception.robot = j := of_decide_eq_true (List.mem_filter.mp member).2
    simp [rowOf, report, here]
  · rw [← served.1]
    show collected.numRx = _
    rw [numRx_run receives]
    rfl

/-! ## The table between rounds -/

/-- The emissions of a round are those of its update. -/
theorem transmissions_of_emits (lawful : setting.Lawful) {past : List (Round n Coord)}
    {system : Coupled n Coord}
    (ran : Run.run (step setting) (Coupled.initial setting) past = .ok system)
    {round : Round n Coord} {i : Fin n} {uid : Uid} (emits : Emits setting past round i uid) :
    (uid, (⟨i, timeAt setting past.length⟩ : TxRecord n)) ∈ transmissions setting.config
      (updateEvent setting system.simNs (callbacks system.node round.before) round) :=
  (mem_transmissions_updateEvent lawful ran).mpr ⟨emits, rfl⟩

/-- The packets of an update are packets of its round, each once. -/
theorem transmissions_uids (lawful : setting.Lawful) (simNs : Int) (node : BridgeNode n Coord)
    (round : Round n Coord) :
    ((transmissions setting.config (updateEvent setting simNs node round)).map Prod.fst).Sublist
      round.uids := by
  rw [transmissions_update rfl (readRobot_messageFields lawful node), List.map_flatMap,
    Round.uids, List.filterMap_eq_flatMap_toList]
  have perRobot : ∀ i : Fin n, ((round.packet i).toList.map fun uid =>
      (uid, (⟨i, simNs⟩ : TxRecord n))).map Prod.fst = (round.packet i).toList := by
    intro i
    cases round.packet i <;> rfl
  simp only [updateEvent, perRobot]
  exact List.filter_sublist.flatMap _

/-- A packet emitted at most a second before the last step is still known, with
its own record. -/
theorem find?_of_emits (lawful : setting.Lawful) {rounds : List (Round n Coord)}
    {final : Coupled n Coord}
    (ran : Run.run (step setting) (Coupled.initial setting) rounds = .ok final)
    (unique : UniquePackets rounds) :
    ∀ earlier sender later i uid, rounds = earlier ++ sender :: later →
      Emits setting earlier sender i uid →
      timeAt setting (rounds.length - 1) - timeAt setting earlier.length ≤ seconds 1 →
        final.gateway.tx.find? uid = some ⟨i, timeAt setting earlier.length⟩ := by
  refine Run.history_induction (fun past system => ∀ earlier sender later i uid,
    past = earlier ++ sender :: later → Emits setting earlier sender i uid →
    timeAt setting (past.length - 1) - timeAt setting earlier.length ≤ seconds 1 →
      system.gateway.tx.find? uid = some ⟨i, timeAt setting earlier.length⟩) ran ?_ ?_
  · intro earlier sender later i uid split
    simp at split
  · intro past round rest middle next whole ranPast known stepped earlier sender later i uid split
      emits young
    have time := (tracks_run ranPast).1
    have nonneg : 0 ≤ middle.simNs := time ▸ timeAt_nonneg setting past.length
    have uniqueHere : UniquePackets (past ++ [round]) := by
      rw [whole, List.append_cons, UniquePackets, List.flatMap_append] at unique
      exact (List.nodup_append.mp unique).1
    obtain ⟨heard, receives, ⟨sameTx, -⟩, updated, serves⟩ :=
      serve_eq lawful nonneg middle.gateway (callbacks middle.node round.before) round
    obtain ⟨line, served, -⟩ := step_ok stepped
    rw [serves, Except.ok.injEq, Prod.mk.injEq] at served
    rw [← served.1]
    have uids := transmissions_uids lawful middle.simNs (callbacks middle.node round.before) round
    rw [List.length_append, List.length_singleton, Nat.add_sub_cancel] at young
    rcases List.eq_nil_or_concat later with rfl | ⟨between, last, rfl⟩
    · obtain ⟨rfl, lastEq⟩ := List.append_inj' split rfl
      obtain rfl := (List.cons.inj lastEq).1
      have distinct : round.uids.Nodup := by
        rw [UniquePackets, List.flatMap_append] at uniqueHere
        simpa using (List.nodup_append.mp uniqueHere).2.1
      exact find?_step_transmitted updated (distinct.sublist uids)
        (transmissions_of_emits lawful ranPast emits)
    · have shape : past ++ [round] = (earlier ++ sender :: between) ++ [last] := by
        rw [split]
        simp
      obtain ⟨rfl, lastEq⟩ := List.append_inj' shape rfl
      obtain rfl := (List.cons.inj lastEq).1
      have earlierYoung : timeAt setting ((earlier ++ sender :: between).length - 1) -
          timeAt setting earlier.length ≤ seconds 1 := by
        apply le_trans _ young
        apply Int.sub_le_sub_right
        apply Int.mul_le_mul_of_nonneg_right <;> omega
      have found := known earlier sender between i uid rfl emits earlierYoung
      have other : uid ∉ (transmissions setting.config
          (updateEvent setting middle.simNs (callbacks middle.node round.before) round)).map
            Prod.fst := by
        intro again
        have inRound := uids.subset again
        have inSender := mem_uids emits.2.2
        rw [UniquePackets, List.flatMap_append, List.flatMap_append] at uniqueHere
        exact (List.nodup_append.mp uniqueHere).2.2 uid (by simp [inSender]) uid
          (by simpa using inRound) rfl
      rw [find?_step updated other (sameTx ▸ found), if_pos]
      intro _
      show middle.simNs ≤ timeAt setting earlier.length + seconds 1
      rw [time]
      omega

/-! ## Deliveries and rows -/

/-- The rows of a round for receiver `j` are its own deliveries. -/
theorem rows_filter (all : List (Reception n)) (simNs : Int) (j : Fin n) :
    ((List.finRange n).flatMap fun i => (atRobot i all).map fun reception =>
        rowOf (reception, simNs)).filter (fun row => row.dst = j.val) =
      (atRobot j all).map fun reception => rowOf (reception, simNs) := by
  have perReceiver : ∀ i : Fin n, ((atRobot i all).map fun reception =>
      rowOf (reception, simNs)).filter (fun row => row.dst = j.val) =
        if i = j then (atRobot i all).map fun reception => rowOf (reception, simNs) else [] := by
    intro i
    have dst : ∀ row ∈ (atRobot i all).map fun reception => rowOf (reception, simNs),
        row.dst = i.val := by
      intro row member
      obtain ⟨reception, inRobot, rfl⟩ := List.mem_map.mp member
      exact congrArg Fin.val (of_decide_eq_true (List.mem_filter.mp inRobot).2)
    by_cases here : i = j
    · rw [if_pos here, List.filter_eq_self]
      intro row member
      simp [dst row member, here]
    · rw [if_neg here, List.filter_eq_nil_iff]
      intro row member
      simp [dst row member, here, Fin.val_inj]
  rw [List.filter_flatMap]
  simp only [perReceiver]
  exact flatMap_single (List.nodup_finRange n) (List.mem_finRange j) _

/-- The deliveries of a run at robot `j`. -/
def deliveriesAt (setting : Setting n Coord) (rounds : List (Round n Coord)) (j : Fin n) :
    List (Reception n × Int) :=
  (deliveries setting rounds).filter fun delivery => delivery.1.robot = j

/-- Over a whole run the file holds the deliveries of each receiver in order, and
the receive counter of the gateway their number. -/
theorem csv_run (lawful : setting.Lawful) {rounds : List (Round n Coord)}
    (schedule : Schedule setting rounds) {final : Coupled n Coord}
    (ran : Run.run (step setting) (Coupled.initial setting) rounds = .ok final) :
    (∀ j : Fin n, (final.node.csv.filter fun row => row.dst = j.val) =
        (deliveriesAt setting rounds j).map rowOf) ∧
      final.node.csv.length = (deliveries setting rounds).length ∧
      final.gateway.numRx = (deliveries setting rounds).length := by
  refine Run.history_induction (fun past system =>
    (∀ j : Fin n, (system.node.csv.filter fun row => row.dst = j.val) =
        (deliveriesAt setting past j).map rowOf) ∧
      system.node.csv.length = (deliveries setting past).length ∧
      system.gateway.numRx = (deliveries setting past).length) ran ⟨fun _ => rfl, rfl, rfl⟩ ?_
  intro past round rest system next split ranPast earlier stepped
  obtain ⟨rows, length, counter⟩ := earlier
  obtain ⟨csv, numRx⟩ := step_csv lawful ranPast (schedule past round rest split) stepped
  have grown : deliveries setting (past ++ [round]) = deliveries setting past ++
      (heard setting system round).map fun reception => (reception, system.simNs) := by
    rw [deliveries, Run.observe_concat ranPast]
    rfl
  refine ⟨?_, ?_, ?_⟩
  · intro j
    rw [csv, List.filter_append, rows j, rows_filter, deliveriesAt, deliveriesAt, grown,
      List.filter_append, List.map_append, List.filter_map, List.map_map]
    rfl
  · rw [csv, grown, List.length_append, List.length_append, length, List.length_flatMap]
    simp only [List.length_map]
    rw [← sum_atRobot_length (heard setting system round), Fin.sum_univ_def]
  · rw [numRx, grown, counter, List.length_append, List.length_map]

/-- The two levels of the loop share the node, so the ledger holds of the lock-step. -/
theorem ledger_of_lockstep (lawful : setting.Lawful) {rounds : List (Round n Coord)}
    {final : Coupled n Coord}
    (ran : Run.run (step setting) (Coupled.initial setting) rounds = .ok final) :
    Ledger (setting.loopParams 0) rounds.length final.node := by
  have untilShutdown : InTime setting 0 (rounds.map Round.byByte).length :=
    fun _ _ => Or.inl le_rfl
  have same : (rounds.map Round.byByte).map WireRound.toRound = rounds := by
    rw [List.map_map]
    exact List.map_id rounds
  have agrees := wire_agrees lawful untilShutdown
  rw [same, ran] at agrees
  cases ranWire :
      Run.run (wireStep setting 0) (Wired.initial setting) (rounds.map Round.byByte) with
  | error fault =>
      rw [ranWire] at agrees
      exact agrees.elim
  | ok wired =>
      rw [ranWire] at agrees
      have carries : Carries wired final := agrees
      obtain ⟨length, ranLoop⟩ := loop_run ranWire
      have ledger := ledger_run ranLoop
      rw [length, List.length_map, carries.node] at ledger
      exact ledger

/-- Every row of a run names a robot as its source, so each stands for one pose pushed to
its receiver. -/
theorem poses_run (lawful : setting.Lawful) {rounds : List (Round n Coord)}
    (schedule : Schedule setting rounds) {final : Coupled n Coord}
    (ran : Run.run (step setting) (Coupled.initial setting) rounds = .ok final) (j : Fin n) :
    (final.node.neighbors j).flatten.length =
      (final.node.csv.filter fun row => row.dst = j.val).length := by
  obtain ⟨rows, -, -⟩ := csv_run lawful schedule ran
  rw [(ledger_of_lockstep lawful ran).poses j]
  congr 1
  apply List.filter_congr
  intro row member
  by_cases here : row.dst = j.val
  · have mine : row ∈ final.node.csv.filter fun row => row.dst = j.val := by
      simp [member, here]
    rw [rows j] at mine
    obtain ⟨delivery, -, rfl⟩ := List.mem_map.mp mine
    have known : (rowOf delivery).Known n := by
      have below := delivery.1.record.robot.isLt
      show 0 ≤ (delivery.1.record.robot : Int) ∧ (delivery.1.record.robot : Int) < n
      omega
    simp [here, known]
  · simp [here]

/-! ## Exactly once, end to end -/

/-- After the rounds `past`, the packet `uid` is one that robot `record.robot` emitted
at the step at `record.time`, at most a second before the last step. -/
def Traceable (setting : Setting n Coord) (past : List (Round n Coord)) (uid : Uid)
    (record : TxRecord n) : Prop :=
  ∃ earlier sender between, past = earlier ++ sender :: between ∧
    Emits setting earlier sender record.robot uid ∧
    record.time = timeAt setting earlier.length ∧
    timeAt setting (past.length - 1) - record.time ≤ seconds 1

/-- When packets have distinct uids, the table between rounds holds exactly the
packets that can be traced to their emission. -/
theorem find?_iff_traceable (lawful : setting.Lawful) {past : List (Round n Coord)}
    {system : Coupled n Coord}
    (ran : Run.run (step setting) (Coupled.initial setting) past = .ok system)
    (unique : UniquePackets past) (uid : Uid) (record : TxRecord n) :
    system.gateway.tx.find? uid = some record ↔ Traceable setting past uid record := by
  have between := between_run lawful ran
  constructor
  · intro found
    obtain ⟨earlier, sender, later, split, emits, sentAt⟩ := between.emitted uid record found
    exact ⟨earlier, sender, later, split, emits, sentAt, between.young uid record found⟩
  · rintro ⟨earlier, sender, later, split, emits, sentAt, young⟩
    rw [sentAt] at young
    have found := find?_of_emits lawful ran unique earlier sender later _ _ split emits young
    rw [← sentAt] at found
    exact found

/-- The deliveries of receiver `j` are those of its own arrivals. -/
theorem atRobot_heard (setting : Setting n Coord) (system : Coupled n Coord)
    (round : Round n Coord) (j : Fin n) :
    atRobot j (heard setting system round) =
      (round.arrivals.filter fun arrival => arrival.robot = j).filterMap fun arrival =>
        (system.gateway.tx.find? arrival.uid).map fun record =>
          ⟨arrival.robot, arrival.uid, arrival.time, record⟩ := by
  rw [heard_eq, atRobot, List.filter_filterMap, List.filterMap_filter]
  congr 1
  funext arrival
  cases system.gateway.tx.find? arrival.uid with
  | none => simp
  | some record => rfl

/-- In every run of timely rounds whose packets have distinct uids, at every step: the
reply adds to the file, receiver by receiver and in the order of arrival, one row for
each arrival whose packet can be traced to its emission, as often as it arrives, and
none for the others; the row names the time of the step, the transmitter, the
receiver and the time from emission to arrival in whole microseconds. The receive
counter of the gateway, the values on the latency topic and the poses pushed to each
receiver number as many as the rows. -/
theorem packets_reach_file_exactly_once (setting : Setting n Coord) (lawful : setting.Lawful)
    (rounds : List (Round n Coord)) (schedule : Schedule setting rounds)
    (unique : UniquePackets rounds) :
    ∃ final, Run.run (step setting) (Coupled.initial setting) rounds = .ok final ∧
      (∀ past round later, rounds = past ++ round :: later →
        ∃ system next, ∃ emission : Uid → Option (TxRecord n),
          Run.run (step setting) (Coupled.initial setting) past = .ok system ∧
          step setting system round = .ok next ∧
          (∀ uid record, emission uid = some record ↔ Traceable setting past uid record) ∧
          next.node.csv = system.node.csv ++ (List.finRange n).flatMap fun j =>
            (round.arrivals.filter fun arrival => arrival.robot = j).filterMap fun arrival =>
              (emission arrival.uid).map fun record =>
                ⟨timeAt setting past.length, record.robot, j,
                  (arrival.time - record.time) / 1000⟩) ∧
      final.gateway.numRx = final.node.csv.length ∧
      final.node.latencyMs = (final.node.csv.map fun row => (row.latencyUs : ℚ) / 1000) ∧
      ∀ j : Fin n, (final.node.neighbors j).flatten.length =
        (final.node.csv.filter fun row => row.dst = j.val).length := by
  obtain ⟨final, ran⟩ := lockstep_total lawful schedule
  obtain ⟨-, length, counter⟩ := csv_run lawful schedule ran
  refine ⟨final, ran, ?_, counter.trans length.symm, (ledger_of_lockstep lawful ran).published,
    poses_run lawful schedule ran⟩
  rintro past round later rfl
  obtain ⟨system, ranPast, fromSystem⟩ := Run.run_append_ok ran
  obtain ⟨next, stepped, -⟩ := Run.run_cons_ok fromSystem
  have timely := schedule past round later rfl
  have time := (tracks_run ranPast).1
  have uniquePast : UniquePackets past := by
    rw [UniquePackets, List.flatMap_append] at unique
    exact (List.nodup_append.mp unique).1
  refine ⟨system, next, system.gateway.tx.find?, ranPast, stepped,
    find?_iff_traceable lawful ranPast uniquePast, ?_⟩
  rw [(step_csv lawful ranPast timely stepped).1]
  congr 1
  apply List.flatMap_congr
  intro j _
  have rows : ∀ reception ∈ atRobot j (heard setting system round),
      rowOf (reception, system.simNs) = ⟨timeAt setting past.length, reception.record.robot, j,
        (reception.time - reception.record.time) / 1000⟩ := by
    intro reception member
    obtain ⟨inHeard, atJ⟩ := List.mem_filter.mp member
    obtain ⟨-, -, -, -, latency⟩ := times_of_heard lawful ranPast timely inHeard
    rw [rowOf, latency, time, of_decide_eq_true atJ]
  rw [List.map_congr_left rows, atRobot_heard, List.map_filterMap]
  simp only [Option.map_map, Function.comp_def]

theorem packets_reach_file_exactly_once_overtaken :
    ∃ final, Run.run (step twoRobots) (Coupled.initial twoRobots) overtaken = .ok final ∧
      final.gateway.numRx = 1 ∧ final.node.csv.length = 1 ∧ final.node.latencyMs = [10] := by
  obtain ⟨final, ran, -, counter, latencies, -⟩ := packets_reach_file_exactly_once twoRobots
    twoRobots_lawful overtaken overtaken_schedule overtaken_unique
  have file : (Run.run (step twoRobots) (Coupled.initial twoRobots) overtaken).map
      (fun final => final.node.csv) = .ok [⟨4200000000, 0, 1, 10000⟩] := by decide +kernel
  rw [ran] at file
  have rows : final.node.csv = [⟨4200000000, 0, 1, 10000⟩] := Except.ok.inj file
  refine ⟨final, ran, ?_, ?_, ?_⟩
  · rw [counter, rows]
    rfl
  · rw [rows]
    rfl
  · rw [latencies, rows]
    norm_num

end Sidewalk.Cosim
