import Sidewalk.Cosim.Lockstep

/-!
Owns what one round does under the laws of the parameters: the gateway reads back
from the step message exactly what the bridge printed for each robot, so it
serves every message; and after any run the bridge's robots are what the
callbacks made so far say.

Does not own what the reply makes the bridge publish.
-/

set_option autoImplicit false

namespace Sidewalk.Cosim

open Sidewalk.Foundation Sidewalk.Protocol Sidewalk.Bridge Sidewalk.Gateway

variable {n : Nat} {Coord : Type} {setting : Setting n Coord}

/-! ## Reading the step message -/

theorem plain_ofNat (value : Nat) : Plain (Decimal.ofNat value) :=
  ⟨Decimal.ofNat_ne_nil value, Decimal.not_mem_ofNat value (by decide),
    Decimal.not_mem_ofNat value (by decide), Decimal.not_mem_ofNat value (by decide)⟩

theorem plain_messageFields (lawful : setting.Lawful) (node : BridgeNode n Coord) :
    ∀ field ∈ messageFields setting.params.print node, Plain field := by
  intro field member
  obtain ⟨i, -, inRobot⟩ := List.mem_flatMap.mp member
  simp only [Robot.message, List.mem_cons, List.not_mem_nil, or_false] at inRobot
  rcases inRobot with rfl | rfl | rfl | rfl
  · exact lawful.prints.plain _
  · exact lawful.prints.plain _
  · exact lawful.prints.plain _
  · exact plain_ofNat _

theorem receive_stepMessage (lawful : setting.Lawful) {simNs : Int} (nonneg : 0 ≤ simNs)
    (node : BridgeNode n Coord) :
    setting.base.receive (stepMessage setting.params simNs node).1 =
      some (simNs, messageFields setting.params.print node) := by
  have sec : 0 ≤ simNs.tdiv 1000000000 := Int.tdiv_nonneg nonneg (by decide)
  have nsec : 0 ≤ simNs.tmod 1000000000 := Int.tmod_nonneg _ nonneg
  rw [stepMessage_eq, lawful.base.receive_message _ _ _ sec nsec (plain_messageFields lawful node),
    Int.mul_comm, Int.mul_tdiv_add_tmod]

/-- What the gateway reads for a robot: its latest pose as printed, and its send flag. -/
def commandOf (setting : Setting n Coord) (robot : Robot Coord) : Command Coord where
  position :=
    (setting.printed robot.pose.x, setting.printed robot.pose.y, setting.printed robot.pose.z)
  send := if robot.send then 1 else 0

theorem readRobot_messageFields (lawful : setting.Lawful) (node : BridgeNode n Coord) (i : Fin n) :
    readRobot setting.config (messageFields setting.params.print node) i =
      .ok (commandOf setting (node.robots i)) := by
  have x := messageFields_getElem? setting.params.print node i (k := 0) (by decide)
  have y := messageFields_getElem? setting.params.print node i (k := 1) (by decide)
  have z := messageFields_getElem? setting.params.print node i (k := 2) (by decide)
  have send := messageFields_getElem? setting.params.print node i (k := 3) (by decide)
  have flag : Decimal.stoi (Decimal.ofNat (if (node.robots i).send then 1 else 0)) =
      .ok (if (node.robots i).send then 1 else 0) := by
    split
    · exact Decimal.stoi_ofNat (by decide)
    · exact Decimal.stoi_ofNat (by decide)
  unfold readRobot
  simp only [lawful.mobility i, if_true, fieldsPerRobot, fieldAt, Nat.add_zero] at x ⊢
  simp only [x, y, z, send, Robot.message, List.getElem?_cons_zero, List.getElem?_cons_succ,
    lawful.prints.stod_print, flag, converted, bind, Except.bind, pure, Except.pure, commandOf]

theorem triggers_commandOf (setting : Setting n Coord) (robot : Robot Coord) (now : Int) :
    (commandOf setting robot).triggers setting.config now ↔
      robot.send = true ∧ setting.config.txEnable ≤ now := by
  rw [Command.triggers, commandOf]
  by_cases send : robot.send = true <;> simp [send]

theorem messageFields_length (print : Coord → Text) (node : BridgeNode n Coord) :
    (messageFields print node).length = 4 * n := by
  rw [messageFields, List.length_flatMap]
  simp [Robot.message, Nat.mul_comm]

/-! ## Serving a message -/

/-- Receptions change neither the table nor anything told to the outside. -/
theorem run_receives (config : Config n Coord) (gateway : RobotGateway n Coord)
    (arrivals : List (Arrival n)) :
    ∃ heard, Run.run (Gateway.step config) gateway (arrivals.map fun arrival =>
        (⟨arrival.time, .handleRx arrival.robot arrival.uid⟩ : Gateway.Event n)) = .ok heard ∧
      heard.tx = gateway.tx ∧ heard.responses = gateway.responses ∧
      heard.positions = gateway.positions ∧ heard.sends = gateway.sends := by
  induction arrivals generalizing gateway with
  | nil => exact ⟨gateway, rfl, rfl, rfl, rfl, rfl⟩
  | cons arrival arrivals inductionHypothesis =>
      obtain ⟨heard, ran, tx, responses, positions, sends⟩ :=
        inductionHypothesis (handleRx gateway arrival.robot arrival.uid arrival.time)
      have same : ∀ {α : Type} (view : RobotGateway n Coord → α),
          (∀ deliveries numRx, view { gateway with deliveries := deliveries, numRx := numRx } =
            view gateway) →
          view (handleRx gateway arrival.robot arrival.uid arrival.time) = view gateway := by
        intro α view unaffected
        unfold handleRx
        split
        · rfl
        · exact unaffected _ _
      refine ⟨heard, (Run.run_cons rfl _).trans ran, ?_, ?_, ?_, ?_⟩
      · exact tx.trans (same RobotGateway.tx fun _ _ => rfl)
      · exact responses.trans (same RobotGateway.responses fun _ _ => rfl)
      · exact positions.trans (same RobotGateway.positions fun _ _ => rfl)
      · exact sends.trans (same RobotGateway.sends fun _ _ => rfl)

/-- The update of a round whose message is built from `node` at time `simNs`. -/
def updateEvent (setting : Setting n Coord) (simNs : Int) (node : BridgeNode n Coord)
    (round : Round n Coord) : Gateway.Event n :=
  ⟨simNs, .doUpdate (messageFields setting.params.print node) fun i => (round.packet i).toList⟩

/-- The gateway after an update with the commands of the bridge's robots. -/
def afterCommands (setting : Setting n Coord) (simNs : Int) (node : BridgeNode n Coord)
    (round : Round n Coord) (gateway : RobotGateway n Coord) : RobotGateway n Coord :=
  afterUpdate setting.config simNs (fun i => (round.packet i).toList)
    (fun i => commandOf setting (node.robots i)) gateway

/-- The gateway serves every step message: after the receptions, one update with
the commands of the bridge's robots; its reply holds the fields collected. -/
theorem serve_eq (lawful : setting.Lawful) {simNs : Int} (nonneg : 0 ≤ simNs)
    (gateway : RobotGateway n Coord) (node : BridgeNode n Coord) (round : Round n Coord) :
    ∃ heard, Run.run (Gateway.step setting.config) gateway round.receives = .ok heard ∧
      (heard.tx = gateway.tx ∧ heard.responses = gateway.responses ∧
        heard.positions = gateway.positions ∧ heard.sends = gateway.sends) ∧
      Gateway.step setting.config heard (updateEvent setting simNs node round) =
        .ok (afterCommands setting simNs node round heard) ∧
      serve setting gateway round (stepMessage setting.params simNs node).1 =
        .ok (afterCommands setting simNs node round heard,
          [' '].intercalate ((List.finRange n).map heard.deliveries)) := by
  obtain ⟨heard, ran, unaffected⟩ := run_receives setting.config gateway round.arrivals
  have enough : fieldsPerRobot * n ≤ (messageFields setting.params.print node).length :=
    (messageFields_length _ node).ge
  have updated : Gateway.step setting.config heard (updateEvent setting simNs node round) =
      .ok (afterCommands setting simNs node round heard) :=
    doUpdate_eq enough (readRobot_messageFields lawful node) simNs
      (fun i => (round.packet i).toList) heard
  have whole : Run.run (Gateway.step setting.config) gateway
      (round.receives ++ [updateEvent setting simNs node round]) =
        .ok (afterCommands setting simNs node round heard) :=
    Run.run_concat ran updated
  refine ⟨heard, ran, unaffected, updated, ?_⟩
  rw [updateEvent] at whole
  simp only [serve, receive_stepMessage lawful nonneg node, whole, lawful.base.respond_values]
  rfl

/-! ## The bridge while it waits -/

/-- The bridge when the reply of a round arrives. -/
def awaiting (setting : Setting n Coord) (system : Coupled n Coord) (round : Round n Coord) :
    BridgeNode n Coord :=
  callbacks (afterMessage setting.params system.simNs (callbacks system.node round.before))
    round.during

@[simp] theorem awaiting_neighbors (system : Coupled n Coord) (round : Round n Coord) :
    (awaiting setting system round).neighbors = system.node.neighbors := by
  unfold awaiting
  rw [callbacks_neighbors]
  exact callbacks_neighbors _ _

@[simp] theorem awaiting_latenciesUs (system : Coupled n Coord) (round : Round n Coord) :
    (awaiting setting system round).latenciesUs = system.node.latenciesUs := by
  unfold awaiting
  rw [callbacks_latenciesUs]
  exact callbacks_latenciesUs _ _

/-- The sent poses are those of the message just built, whatever is published
while the bridge waits. -/
theorem tracks_awaiting {sentCalls since : List (PoseCall n Coord)} {system : Coupled n Coord}
    (tracks : Tracks setting.origin sentCalls since system.node) (round : Round n Coord) :
    Tracks setting.origin (sentCalls ++ (since ++ round.before)) round.during
      (awaiting setting system round) := by
  have asked := tracks_afterMessage (tracks_callbacks tracks round.before) setting.params
    system.simNs
  exact tracks_callbacks asked round.during

/-! ## Runs -/

/-- What a round that does not end the co-simulation has done. -/
theorem step_ok {system next : Coupled n Coord} {round : Round n Coord}
    (stepped : step setting system round = .ok next) :
    ∃ line, serve setting system.gateway round
        (stepMessage setting.params system.simNs (callbacks system.node round.before)).1 =
          .ok (next.gateway, line) ∧
      handleReply setting.params line system.simNs (awaiting setting system round) =
        .ok next.node ∧
      next.simNs = system.simNs + setting.params.stepMs * 1000000 := by
  unfold step at stepped
  simp only [stepMessage_eq] at stepped ⊢
  split at stepped
  next => cases stepped
  next gateway line serves =>
    split at stepped
    next => cases stepped
    next node handled =>
      rw [Except.ok.injEq] at stepped
      subst stepped
      exact ⟨line, serves, handled, rfl⟩

theorem timeAt_nonneg (setting : Setting n Coord) (k : Nat) : 0 ≤ timeAt setting k := by
  exact Int.mul_nonneg (Int.natCast_nonneg k) (by omega)

theorem timeAt_succ (setting : Setting n Coord) (k : Nat) :
    timeAt setting (k + 1) = timeAt setting k + setting.params.stepMs * 1000000 := by
  rw [timeAt, timeAt, Int.natCast_add, Int.add_mul, Int.natCast_one, Int.one_mul]

/-- After every run the clock is at the next step, and the bridge's robots hold
what the callbacks made so far say. -/
theorem tracks_run {rounds : List (Round n Coord)} {system : Coupled n Coord}
    (ran : Run.run (step setting) (Coupled.initial setting) rounds = .ok system) :
    system.simNs = timeAt setting rounds.length ∧
      Tracks setting.origin (sentCalls rounds) (sinceCalls rounds) system.node := by
  refine Run.history_induction (fun past system => system.simNs = timeAt setting past.length ∧
    Tracks setting.origin (sentCalls past) (sinceCalls past) system.node) ran ?_ ?_
  · exact ⟨by simp [Coupled.initial, timeAt], tracks_initial setting.origin⟩
  · intro past round rest middle next _ _ inductionHypothesis stepped
    obtain ⟨time, tracks⟩ := inductionHypothesis
    obtain ⟨line, -, handled, nextTime⟩ := step_ok stepped
    refine ⟨?_, ?_⟩
    · rw [nextTime, time, List.length_append, List.length_singleton, timeAt_succ]
    · intro i
      rw [(handleReply_robots handled).1, tracks_awaiting tracks round i, sentCalls_concat,
        sinceCalls_concat]
      rfl

end Sidewalk.Cosim
