import Mathlib.Data.List.Count
import Sidewalk.Cosim.Step

/-!
Owns the path of a pose from its callback to a transmission: at each step the
gateway places every robot at its latest pose and sends once for exactly the
robots that published since the previous step, from `txEnable` on.

Does not own what becomes of the packets.
-/

set_option autoImplicit false

namespace Sidewalk.Cosim

open Sidewalk.Foundation Sidewalk.Protocol Sidewalk.Bridge Sidewalk.Gateway

variable {n : Nat} {Coord : Type} {setting : Setting n Coord}

/-! ## The robots at a step -/

/-- The robots when the step message after the rounds `past` is built. -/
theorem robots_asked {past : List (Round n Coord)} {system : Coupled n Coord}
    (ran : Run.run (step setting) (Coupled.initial setting) past = .ok system)
    (round : Round n Coord) (i : Fin n) :
    (callbacks system.node round.before).robots i =
      tracked setting.origin (sentCalls past) (freshCalls past round) i :=
  tracks_callbacks (tracks_run ran).2 round.before i

theorem pose_asked {past : List (Round n Coord)} {system : Coupled n Coord}
    (ran : Run.run (step setting) (Coupled.initial setting) past = .ok system)
    (round : Round n Coord) (i : Fin n) :
    ((callbacks system.node round.before).robots i).pose =
      latest setting.origin i (messageCalls past round) := by
  rw [robots_asked ran round i]
  rfl

theorem send_asked {past : List (Round n Coord)} {system : Coupled n Coord}
    (ran : Run.run (step setting) (Coupled.initial setting) past = .ok system)
    (round : Round n Coord) (i : Fin n) :
    ((callbacks system.node round.before).robots i).send =
      decide (published i (freshCalls past round) ≠ []) := by
  rw [robots_asked ran round i, send_tracked]

theorem command_asked {past : List (Round n Coord)} {system : Coupled n Coord}
    (ran : Run.run (step setting) (Coupled.initial setting) past = .ok system)
    (round : Round n Coord) (i : Fin n) :
    commandOf setting ((callbacks system.node round.before).robots i) =
      let pose := latest setting.origin i (messageCalls past round)
      ⟨(setting.printed pose.x, setting.printed pose.y, setting.printed pose.z),
        if published i (freshCalls past round) ≠ [] then 1 else 0⟩ := by
  rw [commandOf, pose_asked ran, send_asked ran]
  simp only [decide_eq_true_eq]

/-- Building the message sets the sent pose of exactly the robots it sends for. -/
theorem sentPose_asked {past : List (Round n Coord)} {system : Coupled n Coord}
    (ran : Run.run (step setting) (Coupled.initial setting) past = .ok system)
    (round : Round n Coord) (i : Fin n) :
    ((afterMessage setting.params system.simNs (callbacks system.node round.before)).robots
        i).sentPose =
      if published i (freshCalls past round) ≠ [] then
        latest setting.origin i (messageCalls past round)
      else (system.node.robots i).sentPose := by
  have unsent : ((callbacks system.node round.before).robots i).sentPose =
      (system.node.robots i).sentPose := by
    rw [robots_asked ran, (tracks_run ran).2 i]
    rfl
  calc ((afterMessage setting.params system.simNs (callbacks system.node round.before)).robots
        i).sentPose
    _ = if ((callbacks system.node round.before).robots i).send then
          ((callbacks system.node round.before).robots i).pose
        else ((callbacks system.node round.before).robots i).sentPose := rfl
    _ = _ := by
        rw [send_asked ran, pose_asked ran, unsent]
        simp only [decide_eq_true_eq]

/-- The pose a message sends for a robot is a later publication than that of any
earlier message. -/
theorem published_grows (earlier later : List (Round n Coord)) (sender round : Round n Coord)
    {i : Fin n} (fresh : published i (freshCalls (earlier ++ sender :: later) round) ≠ []) :
    (published i (messageCalls earlier sender)).length <
      (published i (messageCalls (earlier ++ sender :: later) round)).length := by
  obtain ⟨rest, sent⟩ := messageCalls_prefix earlier later sender
  have some := List.length_pos_iff.mpr fresh
  have whole : messageCalls (earlier ++ sender :: later) round =
      messageCalls earlier sender ++ rest ++ freshCalls (earlier ++ sender :: later) round := by
    rw [messageCalls, ← sent]
  rw [whole, published_append, published_append, List.length_append, List.length_append]
  omega

/-! ## The calls of `Send` -/

theorem finRange_filter_eq (i : Fin n) : (List.finRange n).filter (fun k => k = i) = [i] := by
  have once := List.count_eq_one_of_mem (List.nodup_finRange n) (List.mem_finRange i)
  have replicated := List.filter_beq (l := List.finRange n) i
  rw [once] at replicated
  exact replicated

theorem sends_of_robot (sends : Fin n → Prop) [DecidablePred sends] (now : Int) (i : Fin n) :
    (((List.finRange n).filter fun k => sends k).map fun k => (k, now)).filter
        (fun call => call.1 = i) =
      if sends i then [(i, now)] else [] := by
  rw [List.filter_map, List.filter_filter]
  have swapped : (List.finRange n).filter
      (fun k => ((fun call : Fin n × Int => decide (call.1 = i)) ∘ fun k => (k, now)) k &&
        decide (sends k)) = [i].filter fun k => sends k := by
    rw [← finRange_filter_eq i, List.filter_filter]
    apply List.filter_congr
    intro k _
    exact Bool.and_comm _ _
  rw [swapped]
  by_cases here : sends i <;> simp [here]

/-! ## Poses become transmissions -/

/-- At every step of every run, whatever the interleaving of callbacks, ns-3
receives for each robot its own four fields; the gateway places each robot at the
printed value of the latest pose it published before the step, and calls `Send`
exactly once for each robot that published since the previous step, if the time
is at least `txEnable`, and not at all for the others. Building the message sets
the sent pose of exactly those robots. The pose a message carries is a later
publication than that of any earlier message of the robot, so no pose is carried
twice. -/
theorem poses_become_transmissions (setting : Setting n Coord) (lawful : setting.Lawful)
    (past : List (Round n Coord)) (system : Coupled n Coord)
    (ran : Run.run (step setting) (Coupled.initial setting) past = .ok system)
    (round : Round n Coord) :
    let asked := stepMessage setting.params system.simNs (callbacks system.node round.before)
    let pose := fun i => latest setting.origin i (messageCalls past round)
    let isFresh := fun i => published i (freshCalls past round) ≠ []
    system.simNs = timeAt setting past.length ∧
      (∃ data, setting.base.receive asked.1 = some (system.simNs, data) ∧
        ∀ i, readRobot setting.config data i = .ok
          ⟨(setting.printed (pose i).x, setting.printed (pose i).y, setting.printed (pose i).z),
            if isFresh i then 1 else 0⟩) ∧
      (∃ gateway line, serve setting system.gateway round asked.1 = .ok (gateway, line) ∧
        (∀ i, gateway.positions i = some
          (setting.printed (pose i).x, setting.printed (pose i).y, setting.printed (pose i).z)) ∧
        (∃ new, gateway.sends = system.gateway.sends ++ new ∧
          ∀ i, new.filter (fun call => call.1 = i) =
            if isFresh i ∧ setting.config.txEnable ≤ system.simNs then [(i, system.simNs)]
            else []) ∧
        ∀ next, step setting system round = .ok next → next.gateway = gateway ∧
          ∀ i, (next.node.robots i).sentPose = (asked.2.robots i).sentPose) ∧
      (∀ i, (asked.2.robots i).sentPose =
        if isFresh i then pose i else (system.node.robots i).sentPose) ∧
      ∀ i earlier sender later, past = earlier ++ sender :: later → isFresh i →
        (published i (messageCalls earlier sender)).length <
          (published i (messageCalls past round)).length := by
  intro asked pose isFresh
  obtain ⟨time, tracks⟩ := tracks_run ran
  have nonneg : 0 ≤ system.simNs := time ▸ timeAt_nonneg setting past.length
  obtain ⟨heard, -, ⟨-, -, -, sends⟩, -, serves⟩ :=
    serve_eq lawful nonneg system.gateway (callbacks system.node round.before) round
  have askedNode : asked.2 =
      afterMessage setting.params system.simNs (callbacks system.node round.before) := by
    simp only [asked, stepMessage_eq]
  refine ⟨time, ⟨_, receive_stepMessage lawful nonneg _, fun i => ?_⟩, ⟨_, _, serves, ?_, ?_, ?_⟩,
    ?_, ?_⟩
  · rw [readRobot_messageFields lawful, command_asked ran]
  · intro i
    exact congrArg (fun command => some (Command.position command)) (command_asked ran round i)
  · refine ⟨_, congrArg (· ++ _) sends, fun i => ?_⟩
    rw [sends_of_robot]
    refine if_congr ((triggers_commandOf _ _ _).trans ?_) rfl rfl
    rw [send_asked ran, decide_eq_true_eq]
  · intro next stepped
    obtain ⟨line, served, handled, -⟩ := step_ok stepped
    rw [serves, Except.ok.injEq, Prod.mk.injEq] at served
    refine ⟨served.1.symm, fun i => ?_⟩
    -- Neither the callbacks while the bridge waits nor the reply touch the sent pose.
    rw [askedNode, (handleReply_robots handled).1, tracks_awaiting tracks round i,
      tracks_afterMessage (tracks_callbacks tracks round.before) setting.params system.simNs i]
    rfl
  · intro i
    rw [askedNode]
    exact sentPose_asked ran round i
  · rintro i earlier sender later rfl fresh
    exact published_grows earlier later sender round fresh

/-! ## Two robots -/

/-- Two robots with whole-metre coordinates, steps of 2.1 s, sends enabled from
2.1 s on, and a warm-up of 3 s. -/
def twoRobots : Setting 2 Int where
  params := ⟨2100, 3000000000, Decimal.ofInt⟩
  config := ⟨2100000000, fun _ => true, fun text =>
    match Decimal.strtoll text with
    | some value => .ok value
    | none => .error .invalidArgument⟩
  base := textBase
  origin := ⟨0, 0, 0, 0, 0, 0, 1⟩
  printed := id

theorem plain_ofInt (value : Int) : Plain (Decimal.ofInt value) :=
  ⟨Decimal.ofInt_ne_nil value, Decimal.not_mem_ofInt value (by decide) (by decide),
    Decimal.not_mem_ofInt value (by decide) (by decide),
    Decimal.not_mem_ofInt value (by decide) (by decide)⟩

theorem twoRobots_lawful : twoRobots.Lawful where
  base := textBase_lawful
  prints :=
    { plain := plain_ofInt
      stod_print := fun value => by simp only [twoRobots, Decimal.strtoll_ofInt, id] }
  mobility _ := rfl
  fewRobots := by decide
  shortStep := by decide

/-- The pose one metre along the first axis. -/
def earlierPose : Pose Int := ⟨1, 0, 0, 0, 0, 0, 1⟩

/-- The pose two metres along the first axis. -/
def laterPose : Pose Int := ⟨2, 0, 0, 0, 0, 0, 1⟩

/-- The leader publishes a pose before the step at 2.1 s, which emits packet 7; the
follower receives it 10 ms later, and the leader publishes again before the step
at 4.2 s. -/
def overtaken : List (Round 2 Int) :=
  [⟨[], [], fun _ => none, []⟩,
    ⟨[(leader, earlierPose)], [], fun i => if i = leader then some 7 else none, []⟩,
    ⟨[(leader, laterPose)], [⟨2110000000, follower, 7⟩], fun _ => none, []⟩]

/-- The follower publishes once before the first step, and the leader twice before the
one at 2.1 s, when sends are enabled: the leader sends its last pose once. -/
theorem poses_become_transmissions_burst :
    ∃ system gateway line new, Run.run (step twoRobots) (Coupled.initial twoRobots)
        [⟨[(follower, earlierPose)], [], fun _ => none, []⟩] = .ok system ∧
      serve twoRobots system.gateway
        ⟨[(leader, earlierPose), (leader, laterPose)], [], fun _ => some 7, []⟩
        (stepMessage twoRobots.params system.simNs (callbacks system.node
          [(leader, earlierPose), (leader, laterPose)])).1 = .ok (gateway, line) ∧
      gateway.positions leader = some (2, 0, 0) ∧ gateway.positions follower = some (1, 0, 0) ∧
      gateway.sends = system.gateway.sends ++ new ∧
      new.filter (fun call => call.1 = leader) = [(leader, 2100000000)] ∧
      new.filter (fun call => call.1 = follower) = [] := by
  have runs : (Run.run (step twoRobots) (Coupled.initial twoRobots)
      [⟨[(follower, earlierPose)], [], fun _ => none, []⟩]).toOption.isSome = true := by
    decide +kernel
  cases ran : Run.run (step twoRobots) (Coupled.initial twoRobots)
      [⟨[(follower, earlierPose)], [], fun _ => none, []⟩] with
  | error fault =>
      rw [ran] at runs
      cases runs
  | ok system =>
      obtain ⟨time, -, ⟨gateway, line, serves, positions, ⟨new, sends, each⟩, -⟩, -⟩ :=
        poses_become_transmissions twoRobots twoRobots_lawful _ system ran
          ⟨[(leader, earlierPose), (leader, laterPose)], [], fun _ => some 7, []⟩
      refine ⟨system, gateway, line, new, rfl, serves, positions leader, positions follower, sends,
        ?_, ?_⟩
      · rw [each leader, time]
        rfl
      · rw [each follower, time]
        rfl

end Sidewalk.Cosim
