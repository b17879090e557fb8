import Mathlib.Algebra.BigOperators.Fin
import Mathlib.Algebra.BigOperators.Group.Finset.Basic
import Sidewalk.Foundation.Mailbox
import Sidewalk.Gateway.Update

/-!
Owns the reporting guarantee of the gateway: towards each robot it refines a
mailbox, whose items are the matched receptions and whose batches are the
replies. A matched reception is reported exactly once, in order, with the robot
and the latency of its own transmission.

Does not own how long a transmission can be matched.
-/

set_option autoImplicit false

namespace Sidewalk.Gateway

open Sidewalk.Foundation Sidewalk.Protocol

variable {n : Nat} {Coord : Type}

/-! ## Matched receptions -/

/-- A call of `HandleRx` that finds its packet in the table, with the record found. -/
structure Reception (n : Nat) where
  robot : Fin n
  uid : Uid
  time : Int
  record : TxRecord n

/-- What the gateway reports for a reception. -/
def Reception.delivery (reception : Reception n) : Delivery :=
  deliveryOf reception.record reception.time

/-- The reception an event is, if it is one and is matched. -/
def matched (gateway : RobotGateway n Coord) (event : Event n) : List (Reception n) :=
  match event.call with
  | .handleRx robot uid =>
      match gateway.tx.find? uid with
      | none => []
      | some record => [⟨robot, uid, event.time, record⟩]
  | _ => []

/-- The matched receptions of a run, in order. -/
def receptions (config : Config n Coord) (gateway : RobotGateway n Coord)
    (events : List (Event n)) : List (Reception n) :=
  Run.observe (step config) matched gateway events

/-- The receptions of one robot. -/
def atRobot (robot : Fin n) (receptions : List (Reception n)) : List (Reception n) :=
  receptions.filter fun reception => reception.robot = robot

theorem matched_of_isUpdate (gateway : RobotGateway n Coord) {event : Event n}
    (update : event.isUpdate = true) : matched gateway event = [] := by
  rw [Event.isUpdate, Event.update?] at update
  unfold matched
  split at update <;> simp_all

theorem matched_handleRx_none {gateway : RobotGateway n Coord} {event : Event n} {robot : Fin n}
    {uid : Uid} (call : event.call = .handleRx robot uid) (unknown : gateway.tx.find? uid = none) :
    matched gateway event = [] := by
  simp only [matched, call, unknown]

theorem matched_handleRx_some {gateway : RobotGateway n Coord} {event : Event n} {robot : Fin n}
    {uid : Uid} {record : TxRecord n} (call : event.call = .handleRx robot uid)
    (known : gateway.tx.find? uid = some record) :
    matched gateway event = [⟨robot, uid, event.time, record⟩] := by
  simp only [matched, call, known]

theorem mem_matched {gateway : RobotGateway n Coord} {event : Event n} {reception : Reception n}
    (member : reception ∈ matched gateway event) :
    event.call = .handleRx reception.robot reception.uid ∧ reception.time = event.time ∧
      gateway.tx.find? reception.uid = some reception.record := by
  rw [matched] at member
  split at member
  next robot uid call =>
    split at member
    next => exact absurd member List.not_mem_nil
    next record known =>
      rw [List.mem_singleton] at member
      subst member
      exact ⟨call, rfl, known⟩
  next => exact absurd member List.not_mem_nil

/-! ## Fields -/

theorem handleRx_of_unknown {gateway : RobotGateway n Coord} {uid : Uid}
    (unknown : gateway.tx.find? uid = none) (robot : Fin n) (now : Int) :
    handleRx gateway robot uid now = gateway := by
  simp only [handleRx, unknown]

theorem handleRx_deliveries_other (gateway : RobotGateway n Coord) {robot other : Fin n}
    (different : other ≠ robot) (uid : Uid) (now : Int) :
    (handleRx gateway robot uid now).deliveries other = gateway.deliveries other := by
  unfold handleRx
  split
  next => rfl
  next => exact Function.update_of_ne different _ _

theorem handleRx_deliveries_self {gateway : RobotGateway n Coord} {robot : Fin n} {uid : Uid}
    {record : TxRecord n} (known : gateway.tx.find? uid = some record) (now : Int) :
    (handleRx gateway robot uid now).deliveries robot =
      appendDelivery (gateway.deliveries robot) (deliveryOf record now) := by
  simp only [handleRx, known, Function.update_self]

theorem handleRx_responses (gateway : RobotGateway n Coord) (robot : Fin n) (uid : Uid)
    (now : Int) : (handleRx gateway robot uid now).responses = gateway.responses := by
  unfold handleRx
  split <;> rfl

/-- An update sends the pending fields and leaves empty ones. -/
theorem step_update {config : Config n Coord} {gateway next : RobotGateway n Coord}
    {event : Event n} (stepped : step config gateway event = .ok next)
    (update : event.isUpdate = true) :
    next.responses = gateway.responses ++ [gateway.deliveries] ∧ next.deliveries = fun _ => [] := by
  rcases step_cases stepped with
    ⟨robot, uid, call, -⟩ | ⟨robot, uid, call, -⟩ | ⟨data, emitted, commands, -, -, rfl⟩
  · rw [Event.isUpdate, Event.update?, call] at update
    exact absurd update Bool.false_ne_true
  · rw [Event.isUpdate, Event.update?, call] at update
    exact absurd update Bool.false_ne_true
  · exact ⟨rfl, rfl⟩

/-! ## Refinement of mailboxes -/

/-- What an event means to the mailbox of one robot. -/
def operations (robot : Fin n) (gateway : RobotGateway n Coord) (event : Event n) :
    List (MailboxOp Delivery) :=
  if event.isUpdate then [.flush]
  else (atRobot robot (matched gateway event)).map fun reception => .receive reception.delivery

/-- The gateway's texts write down one mailbox per robot. -/
structure Represents (gateway : RobotGateway n Coord) (boxes : Fin n → Mailbox Delivery) :
    Prop where
  responses : ∀ robot,
    (gateway.responses.map fun reply => reply robot) = (boxes robot).delivered.map fieldText
  deliveries : ∀ robot, gateway.deliveries robot = fieldText (boxes robot).pending

theorem represents_initial :
    Represents (RobotGateway.initial n Coord) fun _ => Mailbox.empty where
  responses := fun _ => rfl
  deliveries := fun _ => rfl

private theorem represents_handleRx {gateway : RobotGateway n Coord}
    {boxes : Fin n → Mailbox Delivery} (represents : Represents gateway boxes) {robot : Fin n}
    {uid : Uid} {record : TxRecord n} (known : gateway.tx.find? uid = some record) (now : Int)
    (other : Fin n) :
    (handleRx gateway robot uid now).deliveries other =
      fieldText ((boxes other).run ((atRobot other [⟨robot, uid, now, record⟩]).map
        fun reception => .receive reception.delivery)).pending := by
  by_cases here : robot = other
  · subst here
    rw [handleRx_deliveries_self known, represents.deliveries, appendDelivery, appendItem_fieldText]
    simp [atRobot, Mailbox.run_receive, Reception.delivery]
  · rw [handleRx_deliveries_other _ (Ne.symm here), represents.deliveries]
    simp [atRobot, here, Mailbox.run]

/-- An event that is no update sends no reply. -/
theorem responses_between {config : Config n Coord} {gateway next : RobotGateway n Coord}
    {event : Event n} (stepped : step config gateway event = .ok next)
    (update : ¬ event.isUpdate = true) : next.responses = gateway.responses := by
  rcases step_cases stepped with
    ⟨robot, uid, -, rfl⟩ | ⟨robot, uid, -, rfl⟩ | ⟨data, emitted, -, isUpdate, -⟩
  · rfl
  · exact handleRx_responses gateway robot uid event.time
  · exact absurd (by rw [Event.isUpdate, isUpdate]; rfl) update

/-- One event: the gateway's texts follow the mailboxes. -/
theorem represents_step {config : Config n Coord} {gateway next : RobotGateway n Coord}
    {event : Event n} (stepped : step config gateway event = .ok next)
    {boxes : Fin n → Mailbox Delivery} (represents : Represents gateway boxes) :
    Represents next fun robot => (boxes robot).run (operations robot gateway event) := by
  by_cases update : event.isUpdate = true
  · obtain ⟨responses, deliveries⟩ := step_update stepped update
    constructor
    · intro robot
      rw [responses, List.map_append, represents.responses, operations, if_pos update,
        Mailbox.run_flush, List.map_append, List.map_singleton, represents.deliveries,
        List.map_singleton]
    · intro robot
      rw [deliveries, operations, if_pos update, Mailbox.run_flush, fieldText_nil]
  · constructor
    · intro robot
      rw [operations, if_neg update, Mailbox.run_of_no_flush _ (by simp),
        responses_between stepped update, represents.responses]
    · intro robot
      rcases step_cases stepped with
        ⟨sender, uid, call, rfl⟩ | ⟨receiver, uid, call, rfl⟩ | ⟨data, emitted, -, isUpdate, -⟩
      · rw [operations, if_neg update, matched, call]
        exact represents.deliveries robot
      · rw [operations, if_neg update]
        cases known : gateway.tx.find? uid with
        | none =>
            rw [matched_handleRx_none call known, handleRx_of_unknown known]
            exact represents.deliveries robot
        | some record =>
            rw [matched_handleRx_some call known]
            exact represents_handleRx represents known event.time robot
      · exact absurd (by rw [Event.isUpdate, isUpdate]; rfl) update

theorem represents_run {config : Config n Coord} {gateway final : RobotGateway n Coord}
    {events : List (Event n)} (ran : Run.run (step config) gateway events = .ok final)
    {boxes : Fin n → Mailbox Delivery} (represents : Represents gateway boxes) :
    Represents final fun robot =>
      (boxes robot).run (Run.observe (step config) (operations robot) gateway events) := by
  induction events generalizing gateway boxes with
  | nil =>
      rw [Run.run_nil, Except.ok.injEq] at ran
      exact ran ▸ represents
  | cons event events inductionHypothesis =>
      obtain ⟨next, stepped, rest⟩ := Run.run_cons_ok ran
      have later := inductionHypothesis rest (represents_step stepped represents)
      simpa only [Run.observe_cons stepped, Mailbox.run_append] using later

/-- The mailbox of a robot receives the robot's matched receptions. -/
theorem received_operations (config : Config n Coord) (robot : Fin n)
    (gateway : RobotGateway n Coord) (events : List (Event n)) :
    Mailbox.received (Run.observe (step config) (operations robot) gateway events) =
      (atRobot robot (receptions config gateway events)).map Reception.delivery := by
  have perEvent : ∀ (gateway : RobotGateway n Coord) (event : Event n),
      Mailbox.received (operations robot gateway event) =
        (atRobot robot (matched gateway event)).map Reception.delivery := by
    intro gateway event
    unfold operations
    split
    next update => rw [matched_of_isUpdate gateway update]; rfl
    next => simp [Mailbox.received, List.filterMap_map]
  refine (Run.observe_map Mailbox.received rfl (fun _ _ => List.filterMap_append) perEvent gateway
    events).trans ?_
  exact (Run.observe_map (fun seen => (atRobot robot seen).map Reception.delivery) rfl
    (fun _ _ => by simp [atRobot]) (fun _ _ => rfl) gateway events).symm

/-! ## Conservation -/

/-- The items a robot's fields have carried: those of every reply, then those pending. -/
def reportedItems (gateway : RobotGateway n Coord) (robot : Fin n) : List Text :=
  (gateway.responses.flatMap fun reply => fieldItems (reply robot)) ++
    fieldItems (gateway.deliveries robot)

theorem reportedItems_of_represents {gateway : RobotGateway n Coord}
    {boxes : Fin n → Mailbox Delivery} (represents : Represents gateway boxes) (robot : Fin n) :
    reportedItems gateway robot = (boxes robot).contents.map Delivery.text := by
  have replies : (gateway.responses.flatMap fun reply => fieldItems (reply robot)) =
      ((boxes robot).delivered.map fieldText).flatMap fieldItems := by
    rw [← represents.responses robot, List.flatMap_map]
  rw [reportedItems, replies, represents.deliveries, fieldItems_fieldText, List.flatMap_map,
    Mailbox.contents, List.map_append, List.map_flatten, List.flatMap_def]
  simp only [fieldItems_fieldText]

/-- Over a whole run, a robot's items are its matched receptions, in order, each once. -/
theorem reportedItems_run {config : Config n Coord} {final : RobotGateway n Coord}
    {events : List (Event n)}
    (ran : Run.run (step config) (RobotGateway.initial n Coord) events = .ok final)
    (robot : Fin n) :
    reportedItems final robot =
      (atRobot robot (receptions config (RobotGateway.initial n Coord) events)).map
        fun reception => reception.delivery.text := by
  rw [reportedItems_of_represents (represents_run ran represents_initial), Mailbox.contents_run,
    received_operations]
  simp [Mailbox.contents, Mailbox.empty]

end Sidewalk.Gateway
