import Sidewalk.Cosim.Swarm
import Sidewalk.Foundation.Topics

/-!
Owns the co-simulation as `cosim.launch.py` starts it: the robots, the bridge with
ns-3, and the ROS topics between them. Robots tick, messages wait in queues, arrive
or are lost, and the bridge takes its rounds, in any interleaving. Whatever happens,
no callback gets a message that is not for it, the bridge hears each robot in order,
and the neighbour states a robot counts are deliveries of the CSV file.

Does not own when timers fire or messages arrive, and which are lost.
-/

set_option autoImplicit false

namespace Sidewalk.Cosim

open Sidewalk.Foundation Sidewalk.Foundation.Topics Sidewalk.Protocol Sidewalk.Bridge
open Sidewalk.Gateway Sidewalk.Robot

/-! ## Topics -/

/-- `"/robot_" + std::to_string(id)`, in the robot and in the bridge. -/
def robotNs (id : Int) : Text :=
  ['/', 'r', 'o', 'b', 'o', 't', '_'] ++ Decimal.ofInt id

/-- `ns + "/pose"`. -/
def poseTopic (id : Int) : Text := robotNs id ++ ['/', 'p', 'o', 's', 'e']

/-- `ns + "/neighbors"`. -/
def neighborsTopic (id : Int) : Text :=
  robotNs id ++ ['/', 'n', 'e', 'i', 'g', 'h', 'b', 'o', 'r', 's']

/-- The subscriptions: `robots_[i].pose_sub` of the bridge, and `neigh_sub_` of the
robot with the id `j`. -/
inductive Subscription (n : Nat) where
  | poseSub (i : Fin n)
  | neighSub (j : Fin n)
deriving DecidableEq, Repr

/-- The messages of both types. -/
inductive Message (K : Type) where
  | poseStamped (message : PoseStamped K)
  | poseArray (poses : List (Pose K))

/-- All subscriptions are made with a queue of 10. -/
def wiring (n : Nat) : Wiring Text (Subscription n) where
  topic
    | .poseSub i => poseTopic i
    | .neighSub j => neighborsTopic j
  depth _ := 10

/-! ## Processes -/

/-- What the processes are started with. `spawn` gives robot `i` the id `i` and all
robots one area and speed; each has its random values and first clock reading. -/
structure Launch (n : Nat) (K : Type) where
  setting : Setting n K
  areaSize : K
  speed : K
  draws : Fin n → Nat → K
  start : Fin n → Int

/-- The processes while they run: the robots with `neighbours_seen_`, the bridge and
ns-3 after their `rounds`, the pose callbacks since the last of these, and the
messages under way. -/
structure Launched (n : Nat) (K : Type) where
  robots : Fin n → RobotNode K
  neighboursSeen : Fin n → Nat
  system : Coupled n K
  rounds : List (Round n K)
  calls : List (PoseCall n K)
  net : Net Text (Subscription n) (Message K)

/-- What can happen next. A round begins after the first `before` of the callbacks
since the last one, and the others come while the bridge waits for the reply. -/
inductive LaunchEvent (n : Nat) where
  | tick (i : Fin n) (t : Int)
  | callback (sub : Subscription n)
  | lose (sub : Subscription n) (place : Nat)
  | round (before : Nat) (arrivals : List (Arrival n)) (packet : Fin n → Option Uid)

/-- What must never happen, and events that cannot: a callback without a message, or
packets that arrive outside their round. -/
inductive LaunchFault where
  | motion (fault : MotionFault)
  | wrongType
  | lockstep (fault : Fault)
  | disabled
deriving DecidableEq, Repr

variable {n : Nat} {K : Type}

/-- What a process has published since. -/
def since {α : Type} (earlier later : List α) : List α := later.drop earlier.length

instance (setting : Setting n K) (k : Nat) (round : Round n K) :
    Decidable (Timely setting k round) := List.decidableBAll _ round.arrivals

/-- The callback of a subscription, with the message taken from its queue. -/
def Launched.callback (state : Launched n K) :
    Subscription n → Message K → Except LaunchFault (Launched n K)
  | .poseSub i, .poseStamped message =>
      .ok { state with calls := state.calls ++ [(i, message.pose)] }
  | .neighSub j, .poseArray poses =>
      .ok { state with
        neighboursSeen := Function.update state.neighboursSeen j
          ((state.neighboursSeen j + poses.length) % 2 ^ 64) }
  | _, _ => .error .wrongType

/-- The pose arrays that a round has pushed, receiver by receiver. -/
def pushed (earlier later : BridgeNode n K) : List (Text × Message K) :=
  (List.finRange n).flatMap fun j =>
    ((since (earlier.neighbors j) (later.neighbors j)).map Message.poseArray).map fun message =>
      (neighborsTopic j, message)

/-- Everything just constructed. -/
def Launched.initial [Field K] (launch : Launch n K) : Launched n K where
  robots i := RobotNode.construct (launch.draws i) launch.areaSize launch.speed (launch.start i)
  neighboursSeen _ := 0
  system := Coupled.initial launch.setting
  rounds := []
  calls := []
  net := Net.initial _ _ _

/-- The timer of a robot fires. -/
def tickRobot [Field K] [LinearOrder K] (hypot : K → K → K) (launch : Launch n K)
    (state : Launched n K) (i : Fin n) (t : Int) : Except LaunchFault (Launched n K) :=
  match (state.robots i).tick hypot (launch.draws i) t with
  | .error fault => .error (.motion fault)
  | .ok node =>
      let messages := (since (state.robots i).published node.published).map Message.poseStamped
      .ok { state with
        robots := Function.update state.robots i node
        net := state.net.publishAll (wiring n)
          (messages.map fun message => (poseTopic i, message)) }

/-- A subscription takes its next message. -/
def takeMessage (state : Launched n K) (sub : Subscription n) :
    Except LaunchFault (Launched n K) :=
  match (state.net.inbox sub).waiting with
  | [] => .error .disabled
  | message :: rest =>
      let inbox := (state.net.inbox sub).take message rest
      Launched.callback { state with net := state.net.become sub inbox } sub message

/-- A message that waits is lost. -/
def loseMessage (state : Launched n K) (sub : Subscription n) (place : Nat) : Launched n K :=
  { state with net := state.net.become sub ((state.net.inbox sub).lose place) }

/-- The bridge and ns-3 take a round. -/
def takeRound (launch : Launch n K) (state : Launched n K) (round : Round n K) :
    Except LaunchFault (Launched n K) :=
  if Timely launch.setting state.rounds.length round then
    match step launch.setting state.system round with
    | .error fault => .error (.lockstep fault)
    | .ok system =>
        .ok { state with
          system := system
          rounds := state.rounds ++ [round]
          calls := []
          net := state.net.publishAll (wiring n) (pushed state.system.node system.node) }
  else .error .disabled

/-- The round with the callbacks since the last one. -/
def nextRound (state : Launched n K) (before : Nat) (arrivals : List (Arrival n))
    (packet : Fin n → Option Uid) : Round n K where
  before := state.calls.take before
  arrivals := arrivals
  packet := packet
  during := state.calls.drop before

/-- One event. -/
def launchStep [Field K] [LinearOrder K] (hypot : K → K → K) (launch : Launch n K)
    (state : Launched n K) : LaunchEvent n → Except LaunchFault (Launched n K)
  | .tick i t => tickRobot hypot launch state i t
  | .callback sub => takeMessage state sub
  | .lose sub place => .ok (loseMessage state sub place)
  | .round before arrivals packet =>
      takeRound launch state (nextRound state before arrivals packet)

/-! ## Topics are apart -/

theorem robotNs_inj {id other : Int} {rest otherRest : Text} (plain : '/' ∉ rest)
    (same : robotNs id ++ '/' :: rest = robotNs other ++ '/' :: otherRest) :
    id = other ∧ rest = otherRest := by
  unfold robotNs at same
  rw [List.append_assoc, List.append_assoc, List.append_cancel_left_eq] at same
  have noSlash : '/' ∉ Decimal.ofInt id := Decimal.not_mem_ofInt id (by decide) (by decide)
  obtain ⟨digits, -, tails⟩ := (List.append_cons_inj_of_notMem noSlash plain).mp same
  exact ⟨Decimal.ofInt_injective digits, tails⟩

/-- Every subscription has a topic of its own. -/
theorem wiring_injective (n : Nat) : Function.Injective (wiring n).topic := by
  intro sub other same
  cases sub with
  | poseSub i =>
      cases other with
      | poseSub i' =>
          obtain ⟨ids, -⟩ := robotNs_inj (by decide) same
          rw [Fin.ext (Int.ofNat.inj ids)]
      | neighSub j => exact absurd (robotNs_inj (by decide) same).2 (by decide)
  | neighSub j =>
      cases other with
      | poseSub i => exact absurd (robotNs_inj (by decide) same).2 (by decide)
      | neighSub j' =>
          obtain ⟨ids, -⟩ := robotNs_inj (by decide) same
          rw [Fin.ext (Int.ofNat.inj ids)]

theorem poseTopic_inj {i j : Fin n} : poseTopic i = poseTopic j ↔ i = j := by
  constructor
  · intro same
    exact Subscription.poseSub.inj (wiring_injective n same)
  · rintro rfl
    rfl

theorem neighborsTopic_inj {i j : Fin n} : neighborsTopic i = neighborsTopic j ↔ i = j := by
  constructor
  · intro same
    exact Subscription.neighSub.inj (wiring_injective n same)
  · rintro rfl
    rfl

theorem poseTopic_ne_neighborsTopic (i j : Fin n) : poseTopic i ≠ neighborsTopic j := by
  intro same
  have impossible := wiring_injective n
    (show (wiring n).topic (.poseSub i) = (wiring n).topic (.neighSub j) from same)
  cases impossible

/-! ## Histories -/

/-- The clock readings of the ticks of robot `i`. -/
def readings (i : Fin n) (events : List (LaunchEvent n)) : List Int :=
  events.filterMap fun
    | .tick j t => if j = i then some t else none
    | _ => none

theorem readings_append (i : Fin n) (before after : List (LaunchEvent n)) :
    readings i (before ++ after) = readings i before ++ readings i after :=
  List.filterMap_append

/-- All callbacks of the rounds so far. -/
def allCalls (rounds : List (Round n K)) : List (PoseCall n K) :=
  rounds.flatMap fun round => round.before ++ round.during

theorem sentCalls_prefix_allCalls (rounds : List (Round n K)) :
    sentCalls rounds <+: allCalls rounds := by
  rcases List.eq_nil_or_concat rounds with rfl | ⟨past, last, rfl⟩
  · exact List.nil_prefix
  · rw [List.concat_eq_append]
    refine ⟨last.during, ?_⟩
    simp [sentCalls, allCalls]

theorem schedule_concat {setting : Setting n K} {rounds : List (Round n K)} {round : Round n K}
    (schedule : Schedule setting rounds) (timely : Timely setting rounds.length round) :
    Schedule setting (rounds ++ [round]) := by
  intro past other later split
  rcases List.eq_nil_or_concat later with rfl | ⟨between, last, rfl⟩
  · obtain ⟨rfl, same⟩ := List.append_inj' split rfl
    obtain rfl := List.singleton_inj.mp same
    exact timely
  · rw [List.concat_eq_append, ← List.cons_append, ← List.append_assoc] at split
    obtain ⟨rfl, -⟩ := List.append_inj' split rfl
    exact schedule past other between rfl

/-- What is published is what was, and what has been published since. -/
theorem append_since {α : Type} {earlier later new : List α} (grown : later = earlier ++ new) :
    since earlier later = new := by
  rw [since, grown, List.drop_left]

/-- A round only adds pose arrays. -/
theorem neighbors_grow {setting : Setting n K} {system next : Coupled n K} {round : Round n K}
    (stepped : step setting system round = .ok next) (j : Fin n) :
    ∃ new, next.node.neighbors j = system.node.neighbors j ++ new := by
  obtain ⟨line, -, handled, -⟩ := step_ok stepped
  obtain ⟨-, after⟩ := handleReply_ok handled
  rw [after]
  exact ⟨_, congrArg (· ++ _) (congrFun (awaiting_neighbors system round) j)⟩

/-! ## The invariant -/

/-- What the state is after the events so far: every robot has flown by its own clock
readings, the topics hold what the processes have published, the queues are
faithful, and what the callbacks have done is what they were handed. -/
structure Sound (launch : Launch n ℝ) (events : List (LaunchEvent n)) (state : Launched n ℝ) :
    Prop where
  flown : ∀ i, Reached (launch.draws i) launch.areaSize launch.speed (launch.start i)
    (readings i events) (state.robots i)
  faithful : state.net.Faithful (wiring n)
  poses : ∀ i : Fin n, state.net.published (poseTopic i) =
    (state.robots i).published.map Message.poseStamped
  arrays : ∀ j : Fin n, state.net.published (neighborsTopic j) =
    (state.system.node.neighbors j).map Message.poseArray
  heard : ∀ i, ∃ messages : List (PoseStamped ℝ), (state.net.inbox (.poseSub i)).handled =
      messages.map Message.poseStamped ∧
    published i (allCalls state.rounds ++ state.calls) = messages.map PoseStamped.pose
  counted : ∀ j, ∃ messages : List (List (Pose ℝ)), (state.net.inbox (.neighSub j)).handled =
      messages.map Message.poseArray ∧
    state.neighboursSeen j = messages.flatten.length % 2 ^ 64
  coupled : Run.run (step launch.setting) (Coupled.initial launch.setting) state.rounds =
    .ok state.system
  schedule : Schedule launch.setting state.rounds

variable {launch : Launch n ℝ} {events : List (LaunchEvent n)} {state next : Launched n ℝ}

theorem sound_initial (launch : Launch n ℝ) : Sound launch [] (Launched.initial launch) where
  flown _ := rfl
  faithful := Net.faithful_initial _
  poses _ := rfl
  arrays _ := rfl
  heard _ := ⟨[], rfl, rfl⟩
  counted _ := ⟨[], rfl, rfl⟩
  coupled := rfl
  schedule := by
    intro past round later split
    exact absurd split.symm (List.append_ne_nil_of_right_ne_nil _ (List.cons_ne_nil _ _))

/-! ## What an event does -/

theorem tickRobot_ok {i : Fin n} {t : Int} (ticked : tickRobot euclid launch state i t = .ok next) :
    ∃ node sent, realTick (launch.draws i) (state.robots i) t = .ok node ∧
      node.published = (state.robots i).published ++ [sent] ∧
      next = { state with
        robots := Function.update state.robots i node
        net := state.net.publishAll (wiring n) ([Message.poseStamped sent].map fun message =>
          (poseTopic i, message)) } := by
  unfold tickRobot at ticked
  split at ticked
  next => cases ticked
  next node moved =>
    obtain ⟨sent, published⟩ := RobotNode.tick_published moved
    refine ⟨node, sent, moved, published, ?_⟩
    rw [Except.ok.injEq, append_since published] at ticked
    exact ticked.symm

theorem takeMessage_ok {sub : Subscription n} (taken : takeMessage state sub = .ok next) :
    ∃ message rest, (state.net.inbox sub).waiting = message :: rest ∧
      Launched.callback { state with
        net := state.net.become sub ((state.net.inbox sub).take message rest) } sub message =
          .ok next := by
  unfold takeMessage at taken
  split at taken
  next => cases taken
  next message rest waits => exact ⟨message, rest, waits, taken⟩

theorem takeRound_ok {round : Round n ℝ} (taken : takeRound launch state round = .ok next) :
    Timely launch.setting state.rounds.length round ∧
      ∃ system, step launch.setting state.system round = .ok system ∧
        next = { state with
          system := system
          rounds := state.rounds ++ [round]
          calls := []
          net := state.net.publishAll (wiring n) (pushed state.system.node system.node) } := by
  unfold takeRound at taken
  split at taken
  next timely =>
    split at taken
    next => cases taken
    next system stepped =>
      rw [Except.ok.injEq] at taken
      exact ⟨timely, system, stepped, taken.symm⟩
  next => cases taken

/-- The pose arrays a round pushes to one receiver. -/
theorem onTopic_pushed (earlier later : BridgeNode n ℝ) (j : Fin n) :
    Net.onTopic (neighborsTopic j) (pushed earlier later) =
      (since (earlier.neighbors j) (later.neighbors j)).map Message.poseArray := by
  unfold pushed
  rw [Net.onTopic_flatMap]
  simp only [Net.onTopic_same, neighborsTopic_inj]
  exact flatMap_single (List.nodup_finRange n) (List.mem_finRange j) fun i =>
    (since (earlier.neighbors i) (later.neighbors i)).map Message.poseArray

theorem onTopic_pushed_pose (earlier later : BridgeNode n ℝ) (i : Fin n) :
    Net.onTopic (poseTopic i) (pushed earlier later) = [] := by
  unfold pushed
  rw [Net.onTopic_flatMap, List.flatMap_eq_nil_iff]
  intro j _
  rw [Net.onTopic_same, if_neg (poseTopic_ne_neighborsTopic i j).symm]

/-! ## Every event keeps it -/

theorem Sound.tick (sound : Sound launch events state) {i : Fin n} {t : Int}
    (ticked : tickRobot euclid launch state i t = .ok next) :
    Sound launch (events ++ [.tick i t]) next := by
  obtain ⟨node, sent, moved, published, rfl⟩ := tickRobot_ok ticked
  constructor
  · intro j
    show Reached _ _ _ _ _ (Function.update state.robots i node j)
    rw [readings_append]
    by_cases same : j = i
    · subst same
      have reading : readings j [LaunchEvent.tick j t] = [t] := by simp [readings]
      rw [Function.update_self, reading]
      exact Run.run_concat (sound.flown j) moved
    · have reading : readings j [LaunchEvent.tick i t] = [] := by simp [readings, Ne.symm same]
      rw [Function.update_of_ne same, reading, List.append_nil]
      exact sound.flown j
  · exact sound.faithful.publishAll _
  · intro j
    show (Net.publishAll _ _ _).published _ =
      (Function.update state.robots i node j).published.map _
    rw [Net.publishAll_published, Net.onTopic_same, sound.poses j]
    by_cases same : i = j
    · subst same
      rw [if_pos rfl, Function.update_self, published, List.map_append, List.map_singleton]
    · rw [if_neg (mt poseTopic_inj.mp same), Function.update_of_ne (Ne.symm same), List.append_nil]
  · intro j
    show (Net.publishAll _ _ _).published _ = _
    rw [Net.publishAll_published, Net.onTopic_same, if_neg (poseTopic_ne_neighborsTopic i j),
      List.append_nil]
    exact sound.arrays j
  · intro j
    rw [Net.publishAll_handled]
    exact sound.heard j
  · intro j
    rw [Net.publishAll_handled]
    exact sound.counted j
  · exact sound.coupled
  · exact sound.schedule

/-- A message that waits for the bridge is a pose. -/
theorem Sound.pose_waits (sound : Sound launch events state) {i : Fin n}
    {message : Message ℝ} {rest : List (Message ℝ)}
    (waits : (state.net.inbox (.poseSub i)).waiting = message :: rest) :
    ∃ sent, message = .poseStamped sent := by
  have member : message ∈ (state.robots i).published.map Message.poseStamped := by
    rw [← sound.poses i]
    apply (sound.faithful (.poseSub i)).inOrder.subset
    simp [waits]
  obtain ⟨sent, -, same⟩ := List.mem_map.mp member
  exact ⟨sent, same.symm⟩

/-- A message that waits for a robot is a pose array. -/
theorem Sound.array_waits (sound : Sound launch events state) {j : Fin n}
    {message : Message ℝ} {rest : List (Message ℝ)}
    (waits : (state.net.inbox (.neighSub j)).waiting = message :: rest) :
    ∃ poses, message = .poseArray poses := by
  have member : message ∈ (state.system.node.neighbors j).map Message.poseArray := by
    rw [← sound.arrays j]
    apply (sound.faithful (.neighSub j)).inOrder.subset
    simp [waits]
  obtain ⟨poses, -, same⟩ := List.mem_map.mp member
  exact ⟨poses, same.symm⟩

theorem readings_of_no_tick (i : Fin n) {event : LaunchEvent n} (noTick : readings i [event] = []) :
    readings i (events ++ [event]) = readings i events := by
  rw [readings_append, noTick, List.append_nil]

theorem Sound.callback (sound : Sound launch events state) {sub : Subscription n}
    (taken : takeMessage state sub = .ok next) :
    Sound launch (events ++ [.callback sub]) next := by
  obtain ⟨message, rest, waits, called⟩ := takeMessage_ok taken
  have faithful : (state.net.become sub ((state.net.inbox sub).take message rest)).Faithful
      (wiring n) := sound.faithful.become ((sound.faithful sub).take waits)
  have flown : ∀ i, readings i (events ++ [.callback sub]) = readings i events := fun i =>
    readings_of_no_tick i rfl
  cases sub with
  | poseSub i =>
      obtain ⟨sent, rfl⟩ := sound.pose_waits waits
      obtain rfl := Except.ok.inj called
      constructor
      · intro j
        rw [flown]
        exact sound.flown j
      · exact faithful
      · exact sound.poses
      · exact sound.arrays
      · intro j
        obtain ⟨messages, handled, calls⟩ := sound.heard j
        by_cases same : j = i
        · subst same
          refine ⟨messages ++ [sent], ?_, ?_⟩
          · rw [Net.become_self]
            simp [Inbox.take, handled]
          · rw [← List.append_assoc, published_append, calls]
            simp [published]
        · refine ⟨messages, ?_, ?_⟩
          · rw [Net.become_of_ne _ (by simpa using same)]
            exact handled
          · rw [← List.append_assoc, published_append, calls]
            simp [published, Ne.symm same]
      · intro j
        rw [Net.become_of_ne _ (by simp)]
        exact sound.counted j
      · exact sound.coupled
      · exact sound.schedule
  | neighSub j =>
      obtain ⟨poses, rfl⟩ := sound.array_waits waits
      obtain rfl := Except.ok.inj called
      constructor
      · intro i
        rw [flown]
        exact sound.flown i
      · exact faithful
      · exact sound.poses
      · exact sound.arrays
      · intro i
        rw [Net.become_of_ne _ (by simp)]
        exact sound.heard i
      · intro other
        obtain ⟨messages, handled, seen⟩ := sound.counted other
        by_cases same : other = j
        · subst same
          refine ⟨messages ++ [poses], ?_, ?_⟩
          · rw [Net.become_self]
            simp [Inbox.take, handled]
          · show Function.update state.neighboursSeen other _ other = _
            rw [Function.update_self, seen]
            simp
        · refine ⟨messages, ?_, ?_⟩
          · rw [Net.become_of_ne _ (by simpa using same)]
            exact handled
          · show Function.update state.neighboursSeen j _ other = _
            rw [Function.update_of_ne same, seen]
      · exact sound.coupled
      · exact sound.schedule

theorem Sound.lose (sound : Sound launch events state) (sub : Subscription n) (place : Nat) :
    Sound launch (events ++ [.lose sub place]) (loseMessage state sub place) := by
  have handled : ∀ other, ((loseMessage state sub place).net.inbox other).handled =
      (state.net.inbox other).handled := by
    intro other
    by_cases same : other = sub
    · subst same
      show ((state.net.become other _).inbox other).handled = _
      rw [Net.become_self]
      rfl
    · show ((state.net.become sub _).inbox other).handled = _
      rw [Net.become_of_ne _ same]
  constructor
  · intro i
    rw [readings_of_no_tick i rfl]
    exact sound.flown i
  · exact sound.faithful.become ((sound.faithful sub).lose place)
  · exact sound.poses
  · exact sound.arrays
  · intro i
    rw [handled]
    exact sound.heard i
  · intro j
    rw [handled]
    exact sound.counted j
  · exact sound.coupled
  · exact sound.schedule

theorem Sound.round (sound : Sound launch events state) {before : Nat}
    {arrivals : List (Arrival n)} {packet : Fin n → Option Uid}
    (taken : takeRound launch state (nextRound state before arrivals packet) = .ok next) :
    Sound launch (events ++ [.round before arrivals packet]) next := by
  obtain ⟨timely, system, stepped, rfl⟩ := takeRound_ok taken
  constructor
  · intro i
    rw [readings_of_no_tick i rfl]
    exact sound.flown i
  · exact sound.faithful.publishAll _
  · intro i
    show (Net.publishAll _ _ _).published _ = _
    rw [Net.publishAll_published, onTopic_pushed_pose, List.append_nil]
    exact sound.poses i
  · intro j
    show (Net.publishAll _ _ _).published _ = _
    obtain ⟨new, grown⟩ := neighbors_grow stepped j
    rw [Net.publishAll_published, onTopic_pushed, sound.arrays j, append_since grown, grown,
      List.map_append]
  · intro i
    rw [Net.publishAll_handled]
    obtain ⟨messages, handled, calls⟩ := sound.heard i
    refine ⟨messages, handled, ?_⟩
    rw [← calls]
    simp [allCalls, nextRound]
  · intro j
    rw [Net.publishAll_handled]
    exact sound.counted j
  · exact Run.run_concat sound.coupled stepped
  · exact schedule_concat sound.schedule timely

theorem sound_run (ran : Run.run (launchStep euclid launch) (Launched.initial launch) events =
    .ok state) : Sound launch events state := by
  refine Run.history_induction (Sound launch) ran (sound_initial launch) ?_
  intro past event rest middle next _ _ sound stepped
  cases event with
  | tick i t => exact sound.tick stepped
  | callback sub => exact sound.callback stepped
  | lose sub place =>
      obtain rfl := Except.ok.inj stepped
      exact sound.lose sub place
  | round before arrivals packet => exact sound.round stepped

/-! ## Nothing goes wrong -/

/-- The robots' clocks never go backwards. -/
def Forward (launch : Launch n ℝ) (events : List (LaunchEvent n)) : Prop :=
  ∀ i, (launch.start i :: readings i events).Pairwise (· ≤ ·)

/-- What the processes are started with makes sense: a speed that is not negative and
random values inside the area. -/
structure Launch.Lawful (launch : Launch n ℝ) : Prop where
  setting : launch.setting.Lawful
  speed : 0 ≤ launch.speed
  drawn : ∀ i k, 0 ≤ launch.draws i k ∧ launch.draws i k ≤ launch.areaSize

theorem Forward.earlier {past rest : List (LaunchEvent n)}
    (forward : Forward launch (past ++ rest)) : Forward launch past := by
  intro i
  have whole := forward i
  rw [readings_append] at whole
  exact whole.sublist ((List.sublist_append_left _ _).cons_cons _)

theorem Sound.tick_fault (sound : Sound launch events state) (lawful : launch.Lawful) {i : Fin n}
    {t : Int} (forward : Forward launch (events ++ [.tick i t])) {fault : LaunchFault}
    (fails : tickRobot euclid launch state i t = .error fault) : fault = .disabled := by
  have reading : readings i [LaunchEvent.tick i t] = [t] := by simp [readings]
  have ahead := forward i
  rw [readings_append, reading] at ahead
  obtain ⟨node, reached, -⟩ := exists_reached lawful.speed (lawful.drawn i) ahead
  obtain ⟨middle, before, moved⟩ := Run.run_concat_ok reached
  obtain rfl : state.robots i = middle := Reached.unique (sound.flown i) before
  unfold tickRobot at fails
  rw [show (state.robots i).tick euclid (launch.draws i) t = .ok node from moved] at fails
  cases fails

theorem Sound.callback_fault (sound : Sound launch events state) {sub : Subscription n}
    {fault : LaunchFault} (fails : takeMessage state sub = .error fault) : fault = .disabled := by
  unfold takeMessage at fails
  split at fails
  next =>
    exact (Except.error.inj fails).symm
  next message rest waits =>
    cases sub with
    | poseSub i =>
        obtain ⟨sent, rfl⟩ := sound.pose_waits waits
        cases fails
    | neighSub j =>
        obtain ⟨poses, rfl⟩ := sound.array_waits waits
        cases fails

theorem Sound.round_fault (sound : Sound launch events state) (lawful : launch.setting.Lawful)
    {round : Round n ℝ} {fault : LaunchFault}
    (fails : takeRound launch state round = .error fault) : fault = .disabled := by
  unfold takeRound at fails
  split at fails
  next timely =>
    obtain ⟨final, ran⟩ := lockstep_total lawful (schedule_concat sound.schedule timely)
    obtain ⟨system, before, stepped⟩ := Run.run_concat_ok ran
    rw [sound.coupled, Except.ok.injEq] at before
    subst before
    rw [stepped] at fails
    cases fails
  next => exact (Except.error.inj fails).symm

theorem launch_fault (lawful : launch.Lawful) (forward : Forward launch events)
    {fault : LaunchFault}
    (fails : Run.run (launchStep euclid launch) (Launched.initial launch) events = .error fault) :
    fault = .disabled := by
  obtain ⟨past, event, rest, middle, rfl, ran, stepped⟩ := Run.run_error_split fails
  have sound := sound_run ran
  cases event with
  | tick i t =>
      rw [← List.singleton_append, ← List.append_assoc] at forward
      exact sound.tick_fault lawful forward.earlier stepped
  | callback sub => exact sound.callback_fault stepped
  | lose sub place => cases stepped
  | round before arrivals packet => exact sound.round_fault lawful.setting stepped

/-! ## Messages on their way -/

/-- The robots of a run, with the clock readings of its ticks. -/
def Launch.swarm (launch : Launch n ℝ) (lawful : launch.Lawful) (events : List (LaunchEvent n))
    (forward : Forward launch events) : Swarm n where
  area := launch.areaSize
  speed := launch.speed
  draws := launch.draws
  start := launch.start
  readings i := readings i events
  speedNonneg := lawful.speed
  drawn := lawful.drawn
  forward := forward

/-- What the bridge has heard from robot `i`, and what of its poses is still under way
or lost. -/
theorem Sound.bridge_inbox (sound : Sound launch events state) (i : Fin n) :
    ∃ inbox : Inbox (PoseStamped ℝ), inbox.Faithful 10 (state.robots i).published ∧
      published i (allCalls state.rounds ++ state.calls) =
        inbox.handled.map PoseStamped.pose := by
  have faithful := sound.faithful (.poseSub i)
  rw [show (wiring n).topic (.poseSub i) = poseTopic i from rfl, sound.poses i] at faithful
  have injective : Function.Injective (Message.poseStamped (K := ℝ)) := fun _ _ =>
    Message.poseStamped.inj
  obtain ⟨inbox, typed, same⟩ := faithful.typed injective
  obtain ⟨messages, handled, calls⟩ := sound.heard i
  have taken : inbox.handled.map Message.poseStamped = messages.map Message.poseStamped := by
    rw [← handled, same]
  rw [← List.map_injective_iff.mpr injective taken] at calls
  exact ⟨inbox, typed, calls⟩

theorem Sound.robot_inbox (sound : Sound launch events state) (j : Fin n) :
    ∃ inbox : Inbox (List (Pose ℝ)), inbox.Faithful 10 (state.system.node.neighbors j) ∧
      state.neighboursSeen j = inbox.handled.flatten.length % 2 ^ 64 := by
  have faithful := sound.faithful (.neighSub j)
  rw [show (wiring n).topic (.neighSub j) = neighborsTopic j from rfl, sound.arrays j] at faithful
  have injective : Function.Injective (Message.poseArray (K := ℝ)) := fun _ _ =>
    Message.poseArray.inj
  obtain ⟨inbox, typed, same⟩ := faithful.typed injective
  obtain ⟨messages, handled, seen⟩ := sound.counted j
  have taken : inbox.handled.map Message.poseArray = messages.map Message.poseArray := by
    rw [← handled, same]
  rw [← List.map_injective_iff.mpr injective taken] at seen
  exact ⟨inbox, typed, seen⟩

theorem Sound.feeds (sound : Sound launch events state) (lawful : launch.Lawful)
    (forward : Forward launch events) :
    (launch.swarm lawful events forward).Feeds state.rounds := by
  intro i
  obtain ⟨inbox, typed, calls⟩ := sound.bridge_inbox i
  obtain ⟨more, all⟩ := sentCalls_prefix_allCalls state.rounds
  rw [← all, List.append_assoc, published_append] at calls
  obtain ⟨received, rest, split, first, -⟩ := List.map_eq_append_iff.mp calls.symm
  refine ⟨received, ⟨state.robots i, sound.flown i, ?_⟩, first.symm⟩
  have among : received.Sublist (inbox.handled ++ inbox.waiting) := by
    rw [split, List.append_assoc]
    exact List.sublist_append_left _ _
  exact among.trans typed.inOrder

/-- In every run of the launched processes, whatever the interleaving, delays and losses:
no robot divides by zero, no callback gets a message of another topic and no round
faults. The rounds are a run of the lock-step that the robots feed. For each robot the
bridge has handled poses it published, in order and each once, all others being lost
or among at most ten that wait. The neighbour states a robot has counted are the poses
of arrays pushed to it, in order and each once; they are no more than the rows of the
file that name it as the receiver, and as many once nothing waits or was lost. -/
theorem launch_carries_messages (launch : Launch n ℝ) (lawful : launch.Lawful)
    (events : List (LaunchEvent n)) (forward : Forward launch events) :
    (∀ fault, Run.run (launchStep euclid launch) (Launched.initial launch) events =
        .error fault → fault = .disabled) ∧
      ∀ final, Run.run (launchStep euclid launch) (Launched.initial launch) events =
          .ok final →
        Run.run (step launch.setting) (Coupled.initial launch.setting) final.rounds =
          .ok final.system ∧
        (launch.swarm lawful events forward).Feeds final.rounds ∧
        (∀ i, (launch.swarm lawful events forward).Flown i (final.robots i) ∧
          ∃ inbox : Inbox (PoseStamped ℝ), inbox.Faithful 10 (final.robots i).published ∧
            published i (allCalls final.rounds ++ final.calls) =
              inbox.handled.map PoseStamped.pose) ∧
        ∀ j : Fin n, ∃ inbox : Inbox (List (Pose ℝ)),
          inbox.Faithful 10 (final.system.node.neighbors j) ∧
          final.neighboursSeen j = inbox.handled.flatten.length % 2 ^ 64 ∧
          final.neighboursSeen j ≤
            (final.system.node.csv.filter fun row => row.dst = j.val).length ∧
          (inbox.waiting = [] → inbox.lost = [] → final.neighboursSeen j =
            (final.system.node.csv.filter fun row => row.dst = j.val).length % 2 ^ 64) := by
  constructor
  · intro fault fails
    exact launch_fault lawful forward fails
  · intro final ran
    have sound := sound_run ran
    refine ⟨sound.coupled, sound.feeds lawful forward, fun i =>
      ⟨sound.flown i, sound.bridge_inbox i⟩, fun j => ?_⟩
    obtain ⟨inbox, faithful, seen⟩ := sound.robot_inbox j
    have rows := poses_run lawful.setting sound.schedule sound.coupled j
    have among : inbox.handled.Sublist (final.system.node.neighbors j) :=
      (List.sublist_append_left _ _).trans faithful.inOrder
    refine ⟨inbox, faithful, seen, ?_, ?_⟩
    · rw [seen, ← rows]
      exact (Nat.mod_le _ _).trans among.flatten.length_le
    · intro idle lossless
      rw [seen, faithful.handled_eq idle lossless, rows]

/-! ## Events that can happen -/

/-- What becomes of an inbox when a message is published for one subscription. -/
theorem inbox_publishAll (net : Net Text (Subscription n) (Message ℝ)) (sub other : Subscription n)
    (message : Message ℝ) :
    (net.publishAll (wiring n) [((wiring n).topic other, message)]).inbox sub =
      if sub = other then (net.inbox sub).arrive 10 message else net.inbox sub := by
  show (if (wiring n).topic sub = (wiring n).topic other then _ else _ : Inbox (Message ℝ)) = _
  by_cases same : sub = other
  · rw [if_pos same, if_pos (congrArg _ same)]
    rfl
  · rw [if_neg same, if_neg (mt (@wiring_injective n sub other) same)]

theorem launchStep_tick {i : Fin n} {t : Int} {node : RobotNode ℝ} {sent : PoseStamped ℝ}
    (moved : realTick (launch.draws i) (state.robots i) t = .ok node)
    (published : node.published = (state.robots i).published ++ [sent]) :
    launchStep euclid launch state (.tick i t) = .ok { state with
      robots := Function.update state.robots i node
      net := state.net.publishAll (wiring n) [(poseTopic i, .poseStamped sent)] } := by
  rw [launchStep, tickRobot, show (state.robots i).tick euclid _ t = .ok node from moved]
  simp only [append_since published, List.map_cons, List.map_nil]

theorem launchStep_callback {sub : Subscription n} {message : Message ℝ}
    {rest : List (Message ℝ)} (waits : (state.net.inbox sub).waiting = message :: rest) :
    launchStep euclid launch state (.callback sub) = Launched.callback { state with
      net := state.net.become sub ((state.net.inbox sub).take message rest) } sub message := by
  rw [launchStep, takeMessage, waits]

theorem launchStep_round {before : Nat} {arrivals : List (Arrival n)}
    {packet : Fin n → Option Uid} {system : Coupled n ℝ}
    (timely : Timely launch.setting state.rounds.length
      (nextRound state before arrivals packet))
    (stepped : step launch.setting state.system (nextRound state before arrivals packet) =
      .ok system) :
    launchStep euclid launch state (.round before arrivals packet) = .ok { state with
      system := system
      rounds := state.rounds ++ [nextRound state before arrivals packet]
      calls := []
      net := state.net.publishAll (wiring n) (pushed state.system.node system.node) } := by
  rw [launchStep, takeRound, if_pos timely, stepped]

/-! ## One delivery on its way -/

/-- The two robots in tenths of a metre, with the bridge and ns-3 for them. -/
noncomputable def launchPair : Launch 2 ℝ where
  setting := inTenths
  areaSize := pair.area
  speed := pair.speed
  draws := pair.draws
  start := pair.start

theorem launchPair_lawful : launchPair.Lawful :=
  ⟨inTenths_lawful, pair.speedNonneg, pair.drawn⟩

/-- The leader emits packet 7. -/
def seven (i : Fin 2) : Option Uid := if i = leader then some 7 else none

/-- The bridge has heard the leader, whose message emits its packet. -/
def sendsSeven (pose : Pose ℝ) : Round 2 ℝ := ⟨[(leader, pose)], [], seven, []⟩

/-- The follower receives it after 5 ms. -/
def hearsSeven : Round 2 ℝ := ⟨[], [⟨5000000, follower, 7⟩], fun _ => none, []⟩

/-- One pose reaches the follower. -/
theorem seven_delivered (pose : Pose ℝ) :
    ∃ first second, step inTenths (Coupled.initial inTenths) (sendsSeven pose) = .ok first ∧
      step inTenths first hearsSeven = .ok second ∧ (∀ j, first.node.neighbors j = []) ∧
      ∃ carried, second.node.neighbors leader = [] ∧
        second.node.neighbors follower = [[carried]] := by
  have timelyFirst : Timely inTenths 0 (sendsSeven pose) := fun _ member =>
    absurd member List.not_mem_nil
  have timelySecond : Timely inTenths 1 hearsSeven := by
    intro arrival member
    rw [List.mem_singleton.mp member]
    simp [timeAt, inTenths]
  have begins : Run.run (step inTenths) (Coupled.initial inTenths) [] =
      .ok (Coupled.initial inTenths) := rfl
  obtain ⟨first, stepped, neighbors, -⟩ := step_reply inTenths_lawful begins timelyFirst
  have ran : Run.run (step inTenths) (Coupled.initial inTenths) [sendsSeven pose] = .ok first :=
    (Run.run_single _ _).trans stepped
  obtain ⟨second, steppedAgain, neighborsAgain, -⟩ :=
    step_reply inTenths_lawful ran timelySecond
  have none : ∀ j, first.node.neighbors j = [] := by
    intro j
    rw [neighbors j, heard_eq]
    rfl
  have unique : UniquePackets [sendsSeven pose] := by
    show (List.filterMap seven (List.finRange 2) ++ []).Nodup
    decide
  have emits : Emits inTenths [] (sendsSeven pose) leader 7 :=
    ⟨List.cons_ne_nil _ _, le_refl 0, rfl⟩
  have young : timeAt inTenths ([sendsSeven pose].length - 1) - timeAt inTenths 0 ≤
      Gateway.seconds 1 := by
    simp [timeAt, Gateway.seconds]
  have known := find?_of_emits inTenths_lawful ran unique [] (sendsSeven pose) [] leader 7 rfl emits
    young
  have heardSeven : heard inTenths first hearsSeven =
      [⟨follower, 7, 5000000, ⟨leader, timeAt inTenths 0⟩⟩] := by
    rw [heard_eq]
    show List.filterMap _ [(⟨5000000, follower, 7⟩ : Arrival 2)] = _
    simp [known]
  have atLeader : atRobot leader (heard inTenths first hearsSeven) = [] := by
    rw [heardSeven]
    rfl
  have atFollower : atRobot follower (heard inTenths first hearsSeven) =
      [⟨follower, 7, 5000000, ⟨leader, timeAt inTenths 0⟩⟩] := by
    rw [heardSeven]
    rfl
  refine ⟨first, second, stepped, steppedAgain, none,
    latest inTenths.origin leader (messageCalls [sendsSeven pose] hearsSeven), ?_, ?_⟩
  · rw [neighborsAgain, none, atLeader]
    rfl
  · rw [neighborsAgain, none, atFollower]
    rfl

/-- Both robots tick, the pose of the follower is lost, and the bridge takes two rounds:
the leader's packet reaches the follower, which counts the state pushed to it. -/
def oneDelivery : List (LaunchEvent 2) :=
  [.tick leader 1000000000, .tick follower 1000000000, .callback (.poseSub leader),
    .lose (.poseSub follower) 0, .round 1 [] seven,
    .round 0 [⟨5000000, follower, 7⟩] fun _ => none, .callback (.neighSub follower)]

theorem oneDelivery_forward : Forward launchPair oneDelivery := by
  intro i
  match i with
  | 0 =>
      show ([0, 1000000000] : List Int).Pairwise (· ≤ ·)
      decide
  | 1 =>
      show ([0, 1000000000] : List Int).Pairwise (· ≤ ·)
      decide

theorem launchPair_ticks (i : Fin 2) :
    ∃ node sent, ((Launched.initial launchPair).robots i).tick euclid (launchPair.draws i)
        1000000000 = .ok node ∧
      node.published = ((Launched.initial launchPair).robots i).published ++ [sent] := by
  obtain ⟨node, reached, -⟩ := exists_reached launchPair_lawful.speed (launchPair_lawful.drawn i)
    (show ([0, 1000000000] : List Int).Pairwise (· ≤ ·) by decide)
  have moved := (Run.run_single _ _).symm.trans reached
  obtain ⟨sent, published⟩ := RobotNode.tick_published moved
  exact ⟨node, sent, moved, published⟩

theorem launchPair_round {state : Launched 2 ℝ} {before : Nat} {arrivals : List (Arrival 2)}
    {packet : Fin 2 → Option Uid} {system : Coupled 2 ℝ}
    (timely : Timely inTenths state.rounds.length (nextRound state before arrivals packet))
    (stepped : step inTenths state.system (nextRound state before arrivals packet) = .ok system) :
    launchStep euclid launchPair state (.round before arrivals packet) = .ok { state with
      system := system
      rounds := state.rounds ++ [nextRound state before arrivals packet]
      calls := []
      net := state.net.publishAll (wiring 2) (pushed state.system.node system.node) } := by
  have onTime : Timely launchPair.setting state.rounds.length
    (nextRound state before arrivals packet) := timely
  have taken : step launchPair.setting state.system (nextRound state before arrivals packet) =
    .ok system := stepped
  exact launchStep_round onTime taken

/-- The bridge hears the leader, before its first round. -/
theorem leader_heard :
    ∃ state pose, Run.run (launchStep euclid launchPair) (Launched.initial launchPair)
        [.tick leader 1000000000, .tick follower 1000000000, .callback (.poseSub leader),
          .lose (.poseSub follower) 0] = .ok state ∧
      state.system = Coupled.initial inTenths ∧ state.rounds = [] ∧
      state.calls = [(leader, pose)] ∧ state.neighboursSeen follower = 0 := by
  obtain ⟨node, sent, moved, published⟩ := launchPair_ticks leader
  obtain ⟨other, lost, otherMoved, otherPublished⟩ := launchPair_ticks follower
  have different : follower ≠ leader := by decide
  obtain ⟨one, oneIs⟩ : ∃ one, Except.ok one = launchStep euclid launchPair
      (Launched.initial launchPair) (.tick leader 1000000000) :=
    ⟨_, (launchStep_tick moved published).symm⟩
  have first := oneIs.trans (launchStep_tick moved published)
  rw [Except.ok.injEq] at first
  have untouched : one.robots follower = (Launched.initial launchPair).robots follower := by
    rw [first]
    exact Function.update_of_ne different node _
  rw [← untouched] at otherMoved otherPublished
  obtain ⟨two, twoIs⟩ : ∃ two, Except.ok two = launchStep euclid launchPair one
      (.tick follower 1000000000) := ⟨_, (launchStep_tick otherMoved otherPublished).symm⟩
  have second := twoIs.trans (launchStep_tick otherMoved otherPublished)
  rw [Except.ok.injEq] at second
  have waits : (two.net.inbox (.poseSub leader)).waiting = [.poseStamped sent] := by
    rw [second, first]
    show ((Net.publishAll _ _ [((wiring 2).topic (.poseSub follower), _)]).inbox _).waiting = _
    rw [inbox_publishAll, if_neg (by decide)]
    show ((Net.publishAll _ _ [((wiring 2).topic (.poseSub leader), _)]).inbox _).waiting = _
    rw [inbox_publishAll, if_pos rfl]
    rfl
  refine ⟨_, sent.pose, (Run.run_cons oneIs.symm _).trans ((Run.run_cons twoIs.symm _).trans
    ((Run.run_cons (launchStep_callback waits) _).trans (Run.run_single _ _))), ?_, ?_, ?_, ?_⟩
  · rw [second, first]
    rfl
  · rw [second, first]
    rfl
  · rw [second, first]
    rfl
  · rw [second, first]
    rfl

theorem pushed_silent {earlier later : BridgeNode 2 ℝ} (before : ∀ j, earlier.neighbors j = [])
    (after : ∀ j, later.neighbors j = []) : pushed earlier later = [] := by
  unfold pushed
  rw [List.flatMap_eq_nil_iff]
  intro j _
  rw [before, after]
  rfl

theorem pushed_follower {earlier later : BridgeNode 2 ℝ} {poses : List (Pose ℝ)}
    (before : ∀ j, earlier.neighbors j = []) (atLeader : later.neighbors leader = [])
    (atFollower : later.neighbors follower = [poses]) :
    pushed earlier later = [((wiring 2).topic (.neighSub follower), .poseArray poses)] := by
  have robots : List.finRange 2 = [leader, follower] := by decide
  rw [pushed, robots, List.flatMap_cons, List.flatMap_singleton, before, before, atLeader,
    atFollower]
  rfl

/-- From there a packet of the leader reaches the follower. -/
theorem follower_counts {state : Launched 2 ℝ} {pose : Pose ℝ}
    (system : state.system = Coupled.initial inTenths) (rounds : state.rounds = [])
    (calls : state.calls = [(leader, pose)]) (unseen : state.neighboursSeen follower = 0)
    (empty : (state.net.inbox (.neighSub follower)).waiting = []) :
    ∃ final, Run.run (launchStep euclid launchPair) state [.round 1 [] seven,
        .round 0 [⟨5000000, follower, 7⟩] fun _ => none, .callback (.neighSub follower)] =
      .ok final ∧ final.neighboursSeen follower = 1 := by
  obtain ⟨first, second, stepped, steppedAgain, silent, carried, atLeader, atFollower⟩ :=
    seven_delivered pose
  have sends : nextRound state 1 [] seven = sendsSeven pose := by
    rw [nextRound, calls]
    rfl
  rw [← system, ← sends] at stepped
  have timelyFirst : Timely inTenths state.rounds.length (nextRound state 1 [] seven) :=
    fun _ member => absurd member List.not_mem_nil
  obtain ⟨one, oneIs⟩ : ∃ one, Except.ok one = launchStep euclid launchPair state
      (.round 1 [] seven) := ⟨_, (launchPair_round timelyFirst stepped).symm⟩
  have firstIs := oneIs.trans (launchPair_round timelyFirst stepped)
  rw [Except.ok.injEq, pushed_silent (by rw [system]; exact fun _ => rfl) silent] at firstIs
  have hears : nextRound one 0 [⟨5000000, follower, 7⟩] (fun _ => none) = hearsSeven := by
    rw [firstIs]
    rfl
  have timely : Timely inTenths one.rounds.length
      (nextRound one 0 [⟨5000000, follower, 7⟩] fun _ => none) := by
    intro arrival member
    rw [hears] at member
    rw [firstIs, rounds, List.mem_singleton.mp member]
    simp [timeAt, inTenths]
  have between : one.system = first := by rw [firstIs]
  rw [← between, ← hears] at steppedAgain
  obtain ⟨two, twoIs⟩ : ∃ two, Except.ok two = launchStep euclid launchPair one
      (.round 0 [⟨5000000, follower, 7⟩] fun _ => none) :=
    ⟨_, (launchPair_round timely steppedAgain).symm⟩
  have secondIs := twoIs.trans (launchPair_round timely steppedAgain)
  rw [Except.ok.injEq, pushed_follower (between ▸ silent) atLeader atFollower] at secondIs
  have waits : (two.net.inbox (.neighSub follower)).waiting = [.poseArray [carried]] := by
    rw [secondIs]
    show ((Net.publishAll _ _ [((wiring 2).topic (.neighSub follower), _)]).inbox _).waiting = _
    have same : one.net.inbox (.neighSub follower) = state.net.inbox (.neighSub follower) := by
      rw [firstIs]
      rfl
    rw [inbox_publishAll, if_pos rfl, same]
    simp only [Inbox.arrive, empty]
    rfl
  refine ⟨_, (Run.run_cons oneIs.symm _).trans ((Run.run_cons twoIs.symm _).trans
    ((Run.run_single _ _).trans (launchStep_callback waits))), ?_⟩
  show Function.update two.neighboursSeen follower _ follower = 1
  rw [Function.update_self, secondIs, firstIs, unseen]
  rfl

theorem oneDelivery_runs :
    ∃ final, Run.run (launchStep euclid launchPair) (Launched.initial launchPair) oneDelivery =
      .ok final ∧ final.neighboursSeen follower = 1 := by
  obtain ⟨state, pose, ran, system, rounds, calls, unseen⟩ := leader_heard
  have faithful := (sound_run ran).faithful (.neighSub follower)
  have arrays := (sound_run ran).arrays follower
  rw [system] at arrays
  have nothing : state.net.published ((wiring 2).topic (.neighSub follower)) = [] := arrays
  rw [nothing] at faithful
  have empty := (List.append_eq_nil_iff.mp (List.sublist_nil.mp faithful.inOrder)).2
  obtain ⟨final, ranOn, counts⟩ := follower_counts system rounds calls unseen empty
  exact ⟨final, (Run.run_append ran _).trans ranOn, counts⟩

/-- The neighbour state the follower has counted is the one row of the file. -/
theorem launch_carries_messages_oneDelivery :
    ∃ final, Run.run (launchStep euclid launchPair) (Launched.initial launchPair) oneDelivery =
        .ok final ∧
      Run.run (step inTenths) (Coupled.initial inTenths) final.rounds = .ok final.system ∧
      final.neighboursSeen follower = 1 ∧
      1 ≤ (final.system.node.csv.filter fun row => row.dst = follower.val).length := by
  obtain ⟨final, ran, counts⟩ := oneDelivery_runs
  obtain ⟨-, carried⟩ :=
    launch_carries_messages launchPair launchPair_lawful oneDelivery oneDelivery_forward
  obtain ⟨coupled, -, -, robots⟩ := carried final ran
  obtain ⟨inbox, -, -, counted, -⟩ := robots follower
  rw [counts] at counted
  exact ⟨final, ran, coupled, counts, counted⟩

end Sidewalk.Cosim
