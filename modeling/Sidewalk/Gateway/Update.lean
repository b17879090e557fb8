import Sidewalk.Gateway.State

/-!
Owns what a call into the gateway does as a whole. The loop of `DoUpdate`, which
transmits, reports and clears robot by robot, has the effect of one atomic
update; an update succeeds exactly when every robot's fields can be read; and an
event's transmissions depend on the event alone.

Does not own what a run has reported or remembers.
-/

set_option autoImplicit false

namespace Sidewalk.Gateway

open Sidewalk.Foundation Sidewalk.Protocol

variable {n : Nat} {Coord : Type}

/-! ## Transmissions -/

/-- The packets robot `i` emits in an update, with the records made for them. -/
def emissions (config : Config n Coord) (now : Int) (data : List Text)
    (emitted : Fin n → List Uid) (i : Fin n) : List (Uid × TxRecord n) :=
  match readRobot config data i with
  | .error _ => []
  | .ok command =>
      if command.triggers config now then (emitted i).map fun uid => (uid, ⟨i, now⟩) else []

/-- The packets an event transmits, each with its transmitter and time. -/
def transmissions (config : Config n Coord) (event : Event n) : List (Uid × TxRecord n) :=
  match event.call with
  | .handleTx robot uid => [(uid, ⟨robot, event.time⟩)]
  | .handleRx _ _ => []
  | .doInitialize data emitted =>
      (List.finRange n).flatMap (emissions config event.time data emitted)
  | .doUpdate data emitted =>
      (List.finRange n).flatMap (emissions config event.time data emitted)

theorem time_of_mem_transmissions {config : Config n Coord} {event : Event n} {uid : Uid}
    {record : TxRecord n} (member : (uid, record) ∈ transmissions config event) :
    record.time = event.time := by
  have ofUpdate : ∀ data emitted,
      (uid, record) ∈ (List.finRange n).flatMap (emissions config event.time data emitted) →
        record.time = event.time := by
    intro data emitted inUpdate
    obtain ⟨i, -, inRobot⟩ := List.mem_flatMap.mp inUpdate
    rw [emissions] at inRobot
    split at inRobot
    · exact absurd inRobot List.not_mem_nil
    · split at inRobot
      · obtain ⟨emittedUid, -, equal⟩ := List.mem_map.mp inRobot
        rw [← (Prod.mk.inj equal).2]
      · exact absurd inRobot List.not_mem_nil
  rw [transmissions] at member
  split at member
  · rw [List.mem_singleton] at member
    rw [(Prod.mk.inj member).2]
  · exact absurd member List.not_mem_nil
  · exact ofUpdate _ _ member
  · exact ofUpdate _ _ member

/-! ## The loop over the robots -/

/-- The gateway once the loop has dealt with the robots `done`. -/
def afterRobots (config : Config n Coord) (now : Int) (emitted : Fin n → List Uid)
    (commands : Fin n → Command Coord) (done : List (Fin n)) (gateway : RobotGateway n Coord) :
    RobotGateway n Coord :=
  let senders := done.filter fun i => (commands i).triggers config now
  { gateway with
    tx := gateway.tx.assignAll
      (senders.flatMap fun i => (emitted i).map fun uid => (uid, ⟨i, now⟩))
    numTx := gateway.numTx + (senders.map fun i => (emitted i).length).sum
    sends := gateway.sends ++ senders.map fun i => (i, now)
    positions := fun i => if i ∈ done then some (commands i).position else gateway.positions i
    values := fun i => if i ∈ done then gateway.deliveries i else gateway.values i
    deliveries := fun i => if i ∈ done then [] else gateway.deliveries i }

theorem foldl_handleTx (i : Fin n) (now : Int) (uids : List Uid)
    (gateway : RobotGateway n Coord) :
    uids.foldl (fun gateway uid => handleTx gateway i uid now) gateway =
      { gateway with
        tx := gateway.tx.assignAll (uids.map fun uid => (uid, ⟨i, now⟩))
        numTx := gateway.numTx + uids.length } := by
  induction uids generalizing gateway with
  | nil => rfl
  | cons uid uids inductionHypothesis =>
      rw [List.foldl_cons, inductionHypothesis]
      simp [handleTx, AssocMap.assignAll, Nat.add_assoc, Nat.add_comm 1]

private theorem update_restrict {α : Type} (done : List (Fin n)) (i : Fin n)
    (new old : Fin n → α) (value : α) (isNew : value = new i) :
    Function.update (fun other => if other ∈ done then new other else old other) i value =
      fun other => if other ∈ done ++ [i] then new other else old other := by
  funext other
  by_cases here : other = i
  · subst here
    simp [isNew]
  · simp [here]

/-- One turn of the loop: a robot not yet dealt with joins those dealt with. -/
theorem applyRobot_afterRobots (config : Config n Coord) (now : Int)
    (emitted : Fin n → List Uid) (commands : Fin n → Command Coord) {done : List (Fin n)}
    {i : Fin n} (fresh : i ∉ done) (gateway : RobotGateway n Coord) :
    applyRobot config now emitted (afterRobots config now emitted commands done gateway) i
        (commands i) =
      afterRobots config now emitted commands (done ++ [i]) gateway := by
  have positions := update_restrict done i (fun i => some (commands i).position)
    gateway.positions (some (commands i).position) rfl
  have values := update_restrict done i gateway.deliveries gateway.values
    (if i ∈ done then [] else gateway.deliveries i) (if_neg fresh)
  have deliveries := update_restrict done i (fun _ => ([] : Text)) gateway.deliveries [] rfl
  unfold applyRobot
  by_cases triggers : (commands i).triggers config now
  · have senders : (done ++ [i]).filter (fun i => (commands i).triggers config now) =
        (done.filter fun i => (commands i).triggers config now) ++ [i] := by simp [triggers]
    simp only [triggers, if_true, triggerSend, foldl_handleTx, afterRobots, senders, positions,
      values, deliveries]
    simp [AssocMap.assignAll_append, Nat.add_assoc]
  · have senders : (done ++ [i]).filter (fun i => (commands i).triggers config now) =
        done.filter fun i => (commands i).triggers config now := by simp [triggers]
    simp only [triggers, if_false, afterRobots, senders, positions, values, deliveries]

/-- The loop succeeds exactly when every robot's fields can be read. -/
theorem run_updateRobot {config : Config n Coord} {now : Int} {data : List Text}
    {emitted : Fin n → List Uid} {commands : Fin n → Command Coord} {robots done : List (Fin n)}
    (readable : ∀ i ∈ robots, readRobot config data i = .ok (commands i))
    (distinct : (done ++ robots).Nodup) (gateway : RobotGateway n Coord) :
    Run.run (updateRobot config now data emitted)
        (afterRobots config now emitted commands done gateway) robots =
      .ok (afterRobots config now emitted commands (done ++ robots) gateway) := by
  induction robots generalizing done with
  | nil => rw [Run.run_nil, List.append_nil]
  | cons i robots inductionHypothesis =>
      have fresh : i ∉ done := fun again =>
        (List.nodup_append.mp distinct).2.2 i again i (by simp) rfl
      have stepped :
          updateRobot config now data emitted
              (afterRobots config now emitted commands done gateway) i =
            .ok (afterRobots config now emitted commands (done ++ [i]) gateway) := by
        rw [updateRobot, readable i (by simp)]
        exact congrArg Except.ok (applyRobot_afterRobots config now emitted commands fresh gateway)
      rw [List.append_cons] at distinct ⊢
      rw [Run.run_cons stepped]
      exact inductionHypothesis (fun other member => readable other (by simp [member])) distinct

theorem readable_of_run {config : Config n Coord} {now : Int} {data : List Text}
    {emitted : Fin n → List Uid} {robots : List (Fin n)} {gateway final : RobotGateway n Coord}
    (ran : Run.run (updateRobot config now data emitted) gateway robots = .ok final) :
    ∀ i ∈ robots, ∃ command, readRobot config data i = .ok command := by
  induction robots generalizing gateway with
  | nil => simp
  | cons i robots inductionHypothesis =>
      obtain ⟨next, stepped, rest⟩ := Run.run_cons_ok ran
      intro other member
      rcases List.mem_cons.mp member with rfl | later
      · rw [updateRobot] at stepped
        split at stepped
        next => cases stepped
        next command read => exact ⟨command, read⟩
      · exact inductionHypothesis rest other later

/-! ## The whole update -/

/-- An update as one atomic step: every robot is placed, the requested packets go
out, every pending field is reported and cleared, and expired records go. -/
def afterUpdate (config : Config n Coord) (now : Int) (emitted : Fin n → List Uid)
    (commands : Fin n → Command Coord) (gateway : RobotGateway n Coord) : RobotGateway n Coord :=
  let senders := (List.finRange n).filter fun i => (commands i).triggers config now
  { gateway with
    tx := (gateway.tx.assignAll
      (senders.flatMap fun i => (emitted i).map fun uid => (uid, ⟨i, now⟩))).eraseWhere
        (expired now)
    numTx := gateway.numTx + (senders.map fun i => (emitted i).length).sum
    sends := gateway.sends ++ senders.map fun i => (i, now)
    positions := fun i => some (commands i).position
    values := gateway.deliveries
    responses := gateway.responses ++ [gateway.deliveries]
    deliveries := fun _ => [] }

theorem purge_afterRobots (config : Config n Coord) (now : Int) (emitted : Fin n → List Uid)
    (commands : Fin n → Command Coord) (gateway : RobotGateway n Coord) :
    purge now (sendResponse (afterRobots config now emitted commands (List.finRange n) gateway)) =
      afterUpdate config now emitted commands gateway := by
  simp [purge, sendResponse, afterRobots, afterUpdate]

/-- An update whose data has enough fields and whose robots can all be read is
the atomic update. -/
theorem doUpdate_eq {config : Config n Coord} {data : List Text}
    {commands : Fin n → Command Coord} (enough : fieldsPerRobot * n ≤ data.length)
    (readable : ∀ i, readRobot config data i = .ok (commands i)) (now : Int)
    (emitted : Fin n → List Uid) (gateway : RobotGateway n Coord) :
    doUpdate config now data emitted gateway =
      .ok (afterUpdate config now emitted commands gateway) := by
  have start : gateway = afterRobots config now emitted commands [] gateway := by
    simp [afterRobots, AssocMap.assignAll]
  have ran : Run.run (updateRobot config now data emitted)
      (afterRobots config now emitted commands [] gateway) (List.finRange n) =
        .ok (afterRobots config now emitted commands (List.finRange n) gateway) :=
    run_updateRobot (fun i _ => readable i) (List.nodup_finRange n) gateway
  rw [← start] at ran
  rw [doUpdate, if_neg (Nat.not_lt.mpr enough), ran]
  exact congrArg Except.ok (purge_afterRobots config now emitted commands gateway)

/-- Every update that does not end the program is the atomic update. -/
theorem doUpdate_ok {config : Config n Coord} {now : Int} {data : List Text}
    {emitted : Fin n → List Uid} {gateway next : RobotGateway n Coord}
    (updated : doUpdate config now data emitted gateway = .ok next) :
    ∃ commands : Fin n → Command Coord, (∀ i, readRobot config data i = .ok (commands i)) ∧
      next = afterUpdate config now emitted commands gateway := by
  have unfolded := updated
  rw [doUpdate] at unfolded
  split at unfolded
  next => cases unfolded
  next enough =>
    split at unfolded
    next => cases unfolded
    next final ran =>
      have readable := fun i => readable_of_run ran i (List.mem_finRange i)
      obtain ⟨commands, read⟩ := Classical.skolem.mp readable
      refine ⟨commands, read, ?_⟩
      rw [doUpdate_eq (Nat.not_lt.mp enough) read, Except.ok.injEq] at updated
      exact updated.symm

/-! ## One event -/

/-- What an event that does not end the program does. -/
theorem step_cases {config : Config n Coord} {gateway next : RobotGateway n Coord}
    {event : Event n} (stepped : step config gateway event = .ok next) :
    (∃ robot uid, event.call = .handleTx robot uid ∧
        next = handleTx gateway robot uid event.time) ∨
      (∃ robot uid, event.call = .handleRx robot uid ∧
        next = handleRx gateway robot uid event.time) ∨
      ∃ data emitted commands, event.update? = some (data, emitted) ∧
        (∀ i, readRobot config data i = .ok (commands i)) ∧
        next = afterUpdate config event.time emitted commands gateway := by
  obtain ⟨time, call⟩ := event
  cases call with
  | handleTx robot uid => exact Or.inl ⟨robot, uid, rfl, (Except.ok.inj stepped).symm⟩
  | handleRx robot uid => exact Or.inr (Or.inl ⟨robot, uid, rfl, (Except.ok.inj stepped).symm⟩)
  | doInitialize data emitted =>
      obtain ⟨commands, read, equal⟩ := doUpdate_ok stepped
      exact Or.inr (Or.inr ⟨data, emitted, commands, rfl, read, equal⟩)
  | doUpdate data emitted =>
      obtain ⟨commands, read, equal⟩ := doUpdate_ok stepped
      exact Or.inr (Or.inr ⟨data, emitted, commands, rfl, read, equal⟩)

theorem transmissions_update {config : Config n Coord} {event : Event n} {data : List Text}
    {emitted : Fin n → List Uid} {commands : Fin n → Command Coord}
    (isUpdate : event.update? = some (data, emitted))
    (read : ∀ i, readRobot config data i = .ok (commands i)) :
    transmissions config event =
      ((List.finRange n).filter fun i => (commands i).triggers config event.time).flatMap
        fun i => (emitted i).map fun uid => (uid, ⟨i, event.time⟩) := by
  have perRobot : emissions config event.time data emitted = fun i =>
      if (commands i).triggers config event.time then
        (emitted i).map fun uid => (uid, ⟨i, event.time⟩)
      else [] := by
    funext i
    rw [emissions, read i]
  have all : transmissions config event =
      (List.finRange n).flatMap (emissions config event.time data emitted) := by
    rw [Event.update?] at isUpdate
    unfold transmissions
    split at isUpdate <;> simp_all
  rw [all, perRobot]
  induction List.finRange n with
  | nil => rfl
  | cons i robots inductionHypothesis =>
      rw [List.flatMap_cons, inductionHypothesis, List.filter_cons]
      by_cases triggers : (commands i).triggers config event.time <;> simp [triggers]

/-- The table of transmissions after an event: its own transmissions are added,
and an update then drops what has expired. -/
theorem step_tx {config : Config n Coord} {gateway next : RobotGateway n Coord} {event : Event n}
    (stepped : step config gateway event = .ok next) :
    next.tx =
      if event.isUpdate then
        (gateway.tx.assignAll (transmissions config event)).eraseWhere (expired event.time)
      else gateway.tx.assignAll (transmissions config event) := by
  rcases step_cases stepped with
    ⟨robot, uid, call, rfl⟩ | ⟨robot, uid, call, rfl⟩ | ⟨data, emitted, commands, update, read, rfl⟩
  · simp [Event.isUpdate, Event.update?, transmissions, call, handleTx, AssocMap.assignAll]
  · simp only [Event.isUpdate, Event.update?, transmissions, call, handleRx]
    split <;> simp [AssocMap.assignAll]
  · rw [transmissions_update update read]
    simp [Event.isUpdate, update, afterUpdate]

/-! ## Progress -/

/-- Data an update can read: at least four fields a robot, the first three of
which are coordinates and the last an integer. -/
structure Parses (config : Config n Coord) (data : List Text) : Prop where
  enough : fieldsPerRobot * n ≤ data.length
  coordinates : ∀ (i : Fin n) (k : Nat), k < 3 → ∀ text, data[i * fieldsPerRobot + k]? = some text →
    ∃ value, config.stod text = .ok value
  flags : ∀ (i : Fin n) text, data[i * fieldsPerRobot + 3]? = some text →
    ∃ value, Decimal.stoi text = .ok value

/-- An event whose data, if it carries any, can be read. -/
def Event.Parses (config : Config n Coord) (event : Event n) : Prop :=
  ∀ data emitted, event.update? = some (data, emitted) → Gateway.Parses config data

theorem readRobot_of_parses {config : Config n Coord} {data : List Text}
    (parses : Parses config data) (i : Fin n) (mobility : config.hasMobility i = true) :
    ∃ command, readRobot config data i = .ok command := by
  have present : ∀ k < 4, ∃ text, data[i * fieldsPerRobot + k]? = some text := by
    intro k below
    have inBounds : i * fieldsPerRobot + k < data.length := by
      have enough := parses.enough
      have robot := i.isLt
      simp only [fieldsPerRobot] at enough ⊢
      omega
    exact ⟨_, List.getElem?_eq_getElem inBounds⟩
  obtain ⟨xText, xAt⟩ := present 0 (by omega)
  obtain ⟨yText, yAt⟩ := present 1 (by omega)
  obtain ⟨zText, zAt⟩ := present 2 (by omega)
  obtain ⟨sendText, sendAt⟩ := present 3 (by omega)
  obtain ⟨x, xValue⟩ := parses.coordinates i 0 (by omega) xText xAt
  obtain ⟨y, yValue⟩ := parses.coordinates i 1 (by omega) yText yAt
  obtain ⟨z, zValue⟩ := parses.coordinates i 2 (by omega) zText zAt
  obtain ⟨send, sendValue⟩ := parses.flags i sendText sendAt
  refine ⟨⟨(x, y, z), send⟩, ?_⟩
  rw [Nat.add_zero] at xAt
  unfold readRobot
  simp only [mobility, if_true, fieldAt, xAt, yAt, zAt, sendAt, converted, xValue, yValue, zValue,
    sendValue, bind, Except.bind, pure, Except.pure]

theorem step_progress {config : Config n Coord} (mobility : ∀ i, config.hasMobility i = true)
    (gateway : RobotGateway n Coord) {event : Event n} (parses : event.Parses config) :
    ∃ next, step config gateway event = .ok next := by
  have ofUpdate : ∀ data emitted, event.update? = some (data, emitted) →
      ∃ next, doUpdate config event.time data emitted gateway = .ok next := by
    intro data emitted isUpdate
    have readable := parses data emitted isUpdate
    obtain ⟨commands, read⟩ :=
      Classical.skolem.mp fun i => readRobot_of_parses readable i (mobility i)
    exact ⟨_, doUpdate_eq readable.enough read event.time emitted gateway⟩
  obtain ⟨time, call⟩ := event
  cases call with
  | handleTx robot uid => exact ⟨_, rfl⟩
  | handleRx robot uid => exact ⟨_, rfl⟩
  | doInitialize data emitted => exact ofUpdate data emitted rfl
  | doUpdate data emitted => exact ofUpdate data emitted rfl

/-- A run whose updates can be read never ends the program. -/
theorem run_ok {config : Config n Coord} (mobility : ∀ i, config.hasMobility i = true)
    (gateway : RobotGateway n Coord) {events : List (Event n)}
    (parses : ∀ event ∈ events, event.Parses config) :
    ∃ final, Run.run (step config) gateway events = .ok final := by
  obtain ⟨final, ran, -⟩ := Run.run_total (step config) (fun _ => True)
    (fun gateway event _ readable =>
      (step_progress mobility gateway readable).imp fun _ stepped => ⟨stepped, trivial⟩)
    trivial parses
  exact ⟨final, ran⟩

theorem parses_of_numbers {config : Config n Coord} {data : List Text}
    (enough : fieldsPerRobot * n ≤ data.length)
    (numbers : ∀ text ∈ data, (config.stod text).isOk = true ∧ (Decimal.stoi text).isOk = true) :
    Parses config data := by
  have value : ∀ {α : Type} {result : Except Decimal.ConversionError α}, result.isOk = true →
      ∃ value, result = .ok value := by
    intro α result isOk
    cases result with
    | error error => exact absurd isOk Bool.false_ne_true
    | ok value => exact ⟨value, rfl⟩
  exact ⟨enough, fun _ _ _ text found => value (numbers text (List.mem_of_getElem? found)).1,
    fun _ text found => value (numbers text (List.mem_of_getElem? found)).2⟩

end Sidewalk.Gateway
