import Sidewalk.Cosim.Poses

/-!
Owns what the reply of a round makes the bridge do. Every delivery in it is a
reception since the previous update of a packet some earlier step emitted; the
latencies are short enough to be read, so no run of the co-simulation ends early;
and the poses pushed are the sent poses at the step of the reply.

Does not own whether those poses and latencies are the ones the documentation
promises.
-/

set_option autoImplicit false

namespace Sidewalk.Cosim

open Sidewalk.Foundation Sidewalk.Protocol Sidewalk.Bridge Sidewalk.Gateway

variable {n : Nat} {Coord : Type} {setting : Setting n Coord}

/-! ## Emissions -/

/-- Robot `i` emits packet `uid` at the step of `sender`, after the rounds `earlier`. -/
def Emits (setting : Setting n Coord) (earlier : List (Round n Coord)) (sender : Round n Coord)
    (i : Fin n) (uid : Uid) : Prop :=
  published i (freshCalls earlier sender) ≠ [] ∧
    setting.config.txEnable ≤ timeAt setting earlier.length ∧ sender.packet i = some uid

/-- The transmissions of a round's update are its emissions, at the time of its step. -/
theorem mem_transmissions_updateEvent (lawful : setting.Lawful) {past : List (Round n Coord)}
    {system : Coupled n Coord}
    (ran : Run.run (step setting) (Coupled.initial setting) past = .ok system)
    {round : Round n Coord} {uid : Uid} {record : TxRecord n} :
    (uid, record) ∈ transmissions setting.config
        (updateEvent setting system.simNs (callbacks system.node round.before) round) ↔
      Emits setting past round record.robot uid ∧ record.time = timeAt setting past.length := by
  have time := (tracks_run ran).1
  rw [transmissions_update rfl (readRobot_messageFields lawful _), List.mem_flatMap]
  simp only [List.mem_filter, List.mem_finRange, true_and, decide_eq_true_eq, triggers_commandOf,
    send_asked ran, List.mem_map, Option.mem_toList, Prod.mk.injEq]
  constructor
  · rintro ⟨i, ⟨fresh, enabled⟩, emittedUid, emits, rfl, rfl⟩
    exact ⟨⟨fresh, time ▸ enabled, emits⟩, time⟩
  · rintro ⟨⟨fresh, enabled, emits⟩, sentAt⟩
    refine ⟨record.robot, ⟨fresh, ?_⟩, uid, emits, rfl, ?_⟩
    · show setting.config.txEnable ≤ system.simNs
      rw [time]
      exact enabled
    · show (⟨record.robot, system.simNs⟩ : TxRecord n) = record
      rw [time, ← sentAt]

/-! ## The gateway between rounds -/

/-- What holds of the gateway between rounds: it has just been updated, its
records are those of earlier emissions, and they were at most a second old. -/
structure Between (setting : Setting n Coord) (past : List (Round n Coord))
    (gateway : RobotGateway n Coord) : Prop where
  updated : ∃ events, AtUpdate events ∧
    Run.run (Gateway.step setting.config) (RobotGateway.initial n Coord) events = .ok gateway
  emitted : ∀ uid record, gateway.tx.find? uid = some record →
    ∃ earlier sender later, past = earlier ++ sender :: later ∧
      Emits setting earlier sender record.robot uid ∧
      record.time = timeAt setting earlier.length
  young : ∀ uid record, gateway.tx.find? uid = some record →
    timeAt setting (past.length - 1) - record.time ≤ seconds 1

theorem between_step (lawful : setting.Lawful) {past : List (Round n Coord)}
    {system : Coupled n Coord}
    (ran : Run.run (step setting) (Coupled.initial setting) past = .ok system)
    (between : Between setting past system.gateway) {round : Round n Coord}
    {heard next : RobotGateway n Coord}
    (receives : Run.run (Gateway.step setting.config) system.gateway round.receives = .ok heard)
    (sameTx : heard.tx = system.gateway.tx)
    (updated : Gateway.step setting.config heard
      (updateEvent setting system.simNs (callbacks system.node round.before) round) = .ok next) :
    Between setting (past ++ [round]) next := by
  obtain ⟨events, -, fromStart⟩ := between.updated
  have time := (tracks_run ran).1
  have whole : Run.run (Gateway.step setting.config) (RobotGateway.initial n Coord)
      (events ++ round.receives ++
        [updateEvent setting system.simNs (callbacks system.node round.before) round]) =
          .ok next :=
    Run.run_concat ((Run.run_append fromStart _).trans receives) updated
  refine ⟨⟨_, Or.inr ⟨_, _, rfl, rfl⟩, whole⟩, ?_, ?_⟩
  · intro uid record found
    rcases transmitted_or_known updated found with new | old
    · obtain ⟨emits, sentAt⟩ := (mem_transmissions_updateEvent lawful ran).mp new
      exact ⟨past, round, [], rfl, emits, sentAt⟩
    · obtain ⟨earlier, sender, later, rfl, emits, sentAt⟩ :=
        between.emitted uid record (sameTx ▸ old)
      exact ⟨earlier, sender, later ++ [round], by simp, emits, sentAt⟩
  · intro uid record found
    have age := age_after_update updated rfl found
    rw [List.length_append, List.length_singleton, Nat.add_sub_cancel, ← time]
    exact age

theorem between_run (lawful : setting.Lawful) {rounds : List (Round n Coord)}
    {system : Coupled n Coord}
    (ran : Run.run (step setting) (Coupled.initial setting) rounds = .ok system) :
    Between setting rounds system.gateway := by
  refine Run.history_induction (fun past system => Between setting past system.gateway) ran ?_ ?_
  · refine ⟨⟨[], Or.inl rfl, rfl⟩, ?_, ?_⟩
    · intro uid record found
      exact Option.noConfusion rfl (heq_of_eq found)
    · intro uid record found
      exact Option.noConfusion rfl (heq_of_eq found)
  · intro past round rest middle next _ ranPast between stepped
    have nonneg : 0 ≤ middle.simNs := (tracks_run ranPast).1 ▸ timeAt_nonneg setting past.length
    obtain ⟨heard, receives, ⟨sameTx, -⟩, updated, serves⟩ :=
      serve_eq lawful nonneg middle.gateway (callbacks middle.node round.before) round
    obtain ⟨line, served, -⟩ := step_ok stepped
    rw [serves, Except.ok.injEq, Prod.mk.injEq] at served
    rw [← served.1]
    exact between_step lawful ranPast between receives sameTx updated

/-! ## Deliveries of a round -/

/-- The matched receptions of a round, in order. -/
def heard (setting : Setting n Coord) (system : Coupled n Coord) (round : Round n Coord) :
    List (Reception n) :=
  receptions setting.config system.gateway round.receives

/-- The arrivals of a round whose packet the table knows when the round begins, each
once and in order. -/
theorem heard_eq (setting : Setting n Coord) (system : Coupled n Coord) (round : Round n Coord) :
    heard setting system round = round.arrivals.filterMap fun arrival =>
      (system.gateway.tx.find? arrival.uid).map fun record =>
        ⟨arrival.robot, arrival.uid, arrival.time, record⟩ := by
  unfold heard receptions Round.receives
  induction round.arrivals using List.reverseRecOn with
  | nil => rfl
  | append_singleton arrivals arrival inductionHypothesis =>
      obtain ⟨state, ran, sameTx, -⟩ := run_receives setting.config system.gateway arrivals
      rw [List.map_append, List.map_singleton, Run.observe_concat ran, inductionHypothesis,
        List.filterMap_append]
      congr 1
      cases found : system.gateway.tx.find? arrival.uid with
      | none =>
          rw [matched_handleRx_none rfl (sameTx ▸ found)]
          simp [found]
      | some record =>
          rw [matched_handleRx_some rfl (sameTx ▸ found)]
          simp [found]

/-- The packets of a round arrive after the previous update and not after its own. -/
def Timely (setting : Setting n Coord) (k : Nat) (round : Round n Coord) : Prop :=
  ∀ arrival ∈ round.arrivals,
    timeAt setting (k - 1) ≤ arrival.time ∧ arrival.time ≤ timeAt setting k

/-- Every round is timely. -/
def Schedule (setting : Setting n Coord) (rounds : List (Round n Coord)) : Prop :=
  ∀ past round later, rounds = past ++ round :: later → Timely setting past.length round

theorem schedule_of_getElem {rounds : List (Round n Coord)}
    (timely : ∀ k (inside : k < rounds.length), Timely setting k rounds[k]) :
    Schedule setting rounds := by
  rintro past round later rfl
  have here := timely past.length (by simp)
  simpa using here

theorem overtaken_schedule : Schedule twoRobots overtaken := by
  apply schedule_of_getElem
  intro k inside
  match k, inside with
  | 0, _ => exact fun _ member => absurd member List.not_mem_nil
  | 1, _ => exact fun _ member => absurd member List.not_mem_nil
  | 2, _ =>
      intro arrival member
      rw [List.mem_singleton.mp member]
      exact ⟨by decide, by decide⟩

/-- A delivery of a round is an arrival of the round, with the record the table
held when the round began. -/
theorem mem_heard {system : Coupled n Coord} {round : Round n Coord} {reception : Reception n}
    (member : reception ∈ heard setting system round) :
    (⟨reception.time, reception.robot, reception.uid⟩ : Arrival n) ∈ round.arrivals ∧
      system.gateway.tx.find? reception.uid = some reception.record := by
  rw [heard_eq] at member
  obtain ⟨arrival, arrives, is⟩ := List.mem_filterMap.mp member
  obtain ⟨record, found, rfl⟩ := Option.map_eq_some_iff.mp is
  exact ⟨arrives, found⟩

/-- The report the bridge reads for a reception. -/
def report (reception : Reception n) : Report n :=
  ⟨reception.record.robot, reception.delivery.latencyUs⟩

/-- The table of a round's reply. -/
def replyTable (setting : Setting n Coord) (system : Coupled n Coord) (round : Round n Coord)
    (j : Fin n) : List (Report n) :=
  (atRobot j (heard setting system round)).map report

/-- The times of a delivery: the packet was emitted at an earlier step and arrived
after the previous one, and its latency is that difference in whole microseconds. -/
theorem times_of_heard (lawful : setting.Lawful) {past : List (Round n Coord)}
    {system : Coupled n Coord}
    (ran : Run.run (step setting) (Coupled.initial setting) past = .ok system)
    {round : Round n Coord} (timely : Timely setting past.length round) {reception : Reception n}
    (member : reception ∈ heard setting system round) :
    (∃ earlier sender later, past = earlier ++ sender :: later ∧
        Emits setting earlier sender reception.record.robot reception.uid ∧
        reception.record.time = timeAt setting earlier.length) ∧
      reception.record.time ≤ reception.time ∧
      reception.time ≤ timeAt setting past.length ∧
      reception.time - reception.record.time ≤ seconds 1 + setting.params.stepMs * 1000000 ∧
      reception.delivery.latencyUs = (reception.time - reception.record.time) / 1000 := by
  have between := between_run lawful ran
  obtain ⟨arrives, found⟩ := mem_heard member
  obtain ⟨low, high⟩ := timely _ arrives
  obtain ⟨earlier, sender, later, split, emits, sentAt⟩ := between.emitted _ _ found
  have young := between.young _ _ found
  have count : past.length = earlier.length + later.length + 1 := by
    rw [split, List.length_append, List.length_cons]
    omega
  have monotone : timeAt setting earlier.length ≤ timeAt setting (past.length - 1) := by
    refine Int.mul_le_mul_of_nonneg_right ?_ (by omega)
    omega
  have last : timeAt setting past.length =
      timeAt setting (past.length - 1) + setting.params.stepMs * 1000000 := by
    rw [← timeAt_succ]
    congr 1
    omega
  simp only at low high
  have order : reception.record.time ≤ reception.time := by omega
  refine ⟨⟨earlier, sender, later, split, emits, sentAt⟩, order, high, by omega, ?_⟩
  exact (getMicroSeconds_of_nonneg (Int.sub_nonneg_of_le order)).1

theorem replyTable_fits (lawful : setting.Lawful) {past : List (Round n Coord)}
    {system : Coupled n Coord}
    (ran : Run.run (step setting) (Coupled.initial setting) past = .ok system)
    {round : Round n Coord} (timely : Timely setting past.length round) :
    ∀ j, ∀ report ∈ replyTable setting system round j, report.Fits := by
  intro j entry member
  obtain ⟨reception, atJ, rfl⟩ := List.mem_map.mp member
  obtain ⟨-, order, -, short, latency⟩ :=
    times_of_heard lawful ran timely (List.mem_of_mem_filter atJ)
  have step := lawful.shortStep
  have value : (report reception).latencyUs = (reception.time - reception.record.time) / 1000 :=
    latency
  rw [Report.Fits, value]
  rw [seconds] at short
  omega

/-! ## The reply of a round -/

theorem reply_line (lawful : setting.Lawful) {past : List (Round n Coord)}
    {system : Coupled n Coord}
    (ran : Run.run (step setting) (Coupled.initial setting) past = .ok system)
    {round : Round n Coord} {collected : RobotGateway n Coord}
    (receives : Run.run (Gateway.step setting.config) system.gateway round.receives =
      .ok collected) :
    [' '].intercalate ((List.finRange n).map collected.deliveries) =
      encodeReply (replyTable setting system round) := by
  obtain ⟨events, atUpdate, fromStart⟩ := (between_run lawful ran).updated
  have noUpdate : ∀ event ∈ round.receives, event.isUpdate = false := by
    intro event member
    obtain ⟨arrival, -, rfl⟩ := List.mem_map.mp member
    rfl
  have fields : ∀ j, collected.deliveries j = encodeField (replyTable setting system round j) := by
    intro j
    rw [deliveries_of_batch receives noUpdate (represents_run fromStart represents_initial)
      (deliveries_of_atUpdate fromStart atUpdate), encodeField_eq, replyTable, List.map_map]
    rfl
  rw [encodeReply, List.map_congr_left fun j _ => fields j]

/-- A timely round after any run does not end the co-simulation: the reply makes
the bridge push, for each delivery, the latest pose its sender had published by
the step of the reply, and record the latencies that count from the warm-up on. -/
theorem step_reply (lawful : setting.Lawful) {past : List (Round n Coord)}
    {system : Coupled n Coord}
    (ran : Run.run (step setting) (Coupled.initial setting) past = .ok system)
    {round : Round n Coord} (timely : Timely setting past.length round) :
    ∃ next, step setting system round = .ok next ∧
      (∀ j, next.node.neighbors j = system.node.neighbors j ++
        if (atRobot j (heard setting system round)).isEmpty then []
        else [(atRobot j (heard setting system round)).map fun reception =>
          latest setting.origin reception.record.robot (messageCalls past round)]) ∧
      next.node.latenciesUs = system.node.latenciesUs ++ (List.finRange n).flatMap (fun j =>
        ((atRobot j (heard setting system round)).filter fun reception =>
          setting.params.warmupNs ≤
            timeAt setting past.length - reception.delivery.latencyUs * 1000).map
              fun reception => reception.delivery.latencyUs) ∧
      next.node.sent = system.node.sent + ((List.finRange n).filter fun i =>
        published i (freshCalls past round) ≠ [] ∧
          setting.params.warmupNs ≤ timeAt setting past.length).length := by
  obtain ⟨time, tracks⟩ := tracks_run ran
  have nonneg : 0 ≤ system.simNs := time ▸ timeAt_nonneg setting past.length
  obtain ⟨collected, receives, -, -, serves⟩ :=
    serve_eq lawful nonneg system.gateway (callbacks system.node round.before) round
  obtain ⟨node, handled, neighbors, latencies⟩ := handleReply_table setting.params system.simNs
    lawful.fewRobots (replyTable_fits lawful ran timely) (awaiting setting system round)
  have sentPose : ∀ i, ((awaiting setting system round).robots i).sentPose =
      latest setting.origin i (messageCalls past round) := by
    intro i
    rw [tracks_awaiting tracks round i]
    rfl
  refine ⟨⟨node, afterCommands setting system.simNs (callbacks system.node round.before) round
    collected, system.simNs + setting.params.stepMs * 1000000⟩, ?_, ?_, ?_, ?_⟩
  · simp only [stepMessage_eq] at serves
    rw [awaiting] at handled
    simp only [step, stepMessage_eq, serves, reply_line lawful ran receives, handled]
  · intro j
    simp only [neighbors, afterReply, awaiting_neighbors, sentPoses, sentPose, replyTable,
      List.isEmpty_map, List.map_map]
    rfl
  · simp only [latencies, afterReply, awaiting_latenciesUs, replyTable, List.filter_map,
      List.map_map, ← time]
    rfl
  · rw [(handleReply_robots handled).2]
    simp only [awaiting, callbacks_sent, afterMessage, send_asked ran, decide_eq_true_eq, ← time]

/-- No run of timely rounds ends early. -/
theorem lockstep_total (lawful : setting.Lawful) {rounds : List (Round n Coord)}
    (schedule : Schedule setting rounds) :
    ∃ final, Run.run (step setting) (Coupled.initial setting) rounds = .ok final := by
  induction rounds using List.reverseRecOn with
  | nil => exact ⟨_, rfl⟩
  | append_singleton past round inductionHypothesis =>
      have earlier : Schedule setting past := fun before current later split =>
        schedule before current (later ++ [round]) (by rw [split]; simp)
      obtain ⟨system, ran⟩ := inductionHypothesis earlier
      obtain ⟨next, stepped, -⟩ := step_reply lawful ran (schedule past round [] rfl)
      exact ⟨next, Run.run_concat ran stepped⟩

end Sidewalk.Cosim
