import Sidewalk.Gateway.Retention

/-!
Owns the exactly-once guarantee over whole runs: in each, the replies and the pending
fields carry every matched reception once, in order, in the reply of its own interval,
with the transmitter and the latency of its own packet.

Does not own the retention window.
-/

set_option autoImplicit false

namespace Sidewalk.Gateway

open Sidewalk.Foundation Sidewalk.Protocol

variable {n : Nat} {Coord : Type}

/-! ## Attribution -/

theorem getMicroSeconds_of_nonneg {time : Int} (nonneg : 0 ≤ time) :
    getMicroSeconds time = time / 1000 ∧ 0 ≤ getMicroSeconds time := by
  rw [getMicroSeconds, Int.tdiv_eq_ediv_of_nonneg nonneg]
  omega

/-- A matched reception carries the record of a transmission that came before it. -/
theorem record_of_reception {config : Config n Coord} {events : List (Event n)}
    (ordered : events.Pairwise fun earlier later => earlier.time ≤ later.time)
    {reception : Reception n}
    (seen : reception ∈ receptions config (RobotGateway.initial n Coord) events) :
    (reception.uid, reception.record) ∈ events.flatMap (transmissions config) ∧
      reception.record.time ≤ reception.time := by
  obtain ⟨before, event, after, middle, rfl, ran, member⟩ := Run.mem_observe seen
  obtain ⟨-, time, found⟩ := mem_matched member
  have transmitted := transmitted_of_find? ran _ _ found
  obtain ⟨sender, inBefore, inSender⟩ := List.mem_flatMap.mp transmitted
  refine ⟨?_, ?_⟩
  · rw [List.flatMap_append]
    exact List.mem_append_left _ transmitted
  · rw [time, time_of_mem_transmissions inSender]
    exact (List.pairwise_append.mp ordered).2.2 sender inBefore event (by simp)

theorem eq_of_unique_uid {pairs : List (Uid × TxRecord n)} (unique : (pairs.map Prod.fst).Nodup)
    {uid : Uid} {first second : TxRecord n} (firstMember : (uid, first) ∈ pairs)
    (secondMember : (uid, second) ∈ pairs) : first = second :=
  congrArg Prod.snd (List.inj_on_of_nodup_map unique firstMember secondMember rfl)

/-! ## Batches -/

/-- The events end with an update, or there are none yet. -/
def AtUpdate (events : List (Event n)) : Prop :=
  events = [] ∨ ∃ earlier update, events = earlier ++ [update] ∧ update.isUpdate = true

/-- Right after an update nothing is pending. -/
theorem deliveries_of_atUpdate {config : Config n Coord} {gateway : RobotGateway n Coord}
    {events : List (Event n)}
    (ran : Run.run (step config) (RobotGateway.initial n Coord) events = .ok gateway)
    (atUpdate : AtUpdate events) : gateway.deliveries = fun _ => [] := by
  rcases atUpdate with rfl | ⟨earlier, update, rfl, isUpdate⟩
  · rw [Run.run_nil, Except.ok.injEq] at ran
    exact ran ▸ rfl
  · obtain ⟨middle, -, stepped⟩ := Run.run_concat_ok ran
    exact (step_update stepped isUpdate).2

/-- Between updates the pending fields collect what arrives. -/
theorem deliveries_of_batch {config : Config n Coord} {start middle : RobotGateway n Coord}
    {batch : List (Event n)} (ran : Run.run (step config) start batch = .ok middle)
    (noUpdate : ∀ event ∈ batch, event.isUpdate = false)
    {boxes : Fin n → Mailbox Delivery} (represents : Represents start boxes)
    (empty : start.deliveries = fun _ => []) (robot : Fin n) :
    middle.deliveries robot =
      fieldText ((atRobot robot (receptions config start batch)).map Reception.delivery) := by
  have noFlush : MailboxOp.flush ∉ Run.observe (step config) (operations robot) start batch := by
    intro flushed
    obtain ⟨before, event, after, state, rfl, -, member⟩ := Run.mem_observe flushed
    rw [operations, noUpdate event (by simp)] at member
    simp at member
  have startEmpty : (boxes robot).pending = [] := by
    rw [← fieldText_eq_nil_iff, ← represents.deliveries, empty]
  rw [(represents_run ran represents).deliveries robot, Mailbox.run_of_no_flush _ noFlush,
    received_operations, startEmpty, List.nil_append]

theorem responses_of_batch {config : Config n Coord} {start middle : RobotGateway n Coord}
    {batch : List (Event n)} (ran : Run.run (step config) start batch = .ok middle)
    (noUpdate : ∀ event ∈ batch, event.isUpdate = false) :
    middle.responses = start.responses := by
  induction batch generalizing start with
  | nil =>
      rw [Run.run_nil, Except.ok.injEq] at ran
      exact ran ▸ rfl
  | cons event batch inductionHypothesis =>
      obtain ⟨next, stepped, rest⟩ := Run.run_cons_ok ran
      have plain := noUpdate event (by simp)
      rw [inductionHypothesis rest fun event member => noUpdate event (by simp [member])]
      exact responses_between stepped (by simp [plain])

/-! ## Counting -/

theorem numRx_run {config : Config n Coord} {gateway final : RobotGateway n Coord}
    {events : List (Event n)} (ran : Run.run (step config) gateway events = .ok final) :
    final.numRx = gateway.numRx + (receptions config gateway events).length := by
  induction events generalizing gateway with
  | nil =>
      rw [Run.run_nil, Except.ok.injEq] at ran
      exact ran ▸ rfl
  | cons event events inductionHypothesis =>
      obtain ⟨next, stepped, rest⟩ := Run.run_cons_ok ran
      have here : next.numRx = gateway.numRx + (matched gateway event).length := by
        rcases step_cases stepped with
          ⟨robot, uid, call, rfl⟩ | ⟨robot, uid, call, rfl⟩ | ⟨data, emitted, -, update, -, rfl⟩
        · simp [matched, call, handleTx]
        · cases known : gateway.tx.find? uid with
          | none => simp [matched_handleRx_none call known, handleRx_of_unknown known]
          | some record => simp [matched_handleRx_some call known, handleRx, known]
        · have isUpdate : event.isUpdate = true := by rw [Event.isUpdate, update]; rfl
          simp [matched_of_isUpdate gateway isUpdate, afterUpdate]
      rw [inductionHypothesis rest, here, receptions, receptions, Run.observe_cons stepped,
        List.length_append, Nat.add_assoc]

/-- Every reception is at exactly one robot. -/
theorem sum_atRobot_length (all : List (Reception n)) :
    ∑ robot, (atRobot robot all).length = all.length := by
  induction all with
  | nil => simp [atRobot]
  | cons reception all inductionHypothesis =>
      have perRobot : ∀ robot, (atRobot robot (reception :: all)).length =
          (atRobot robot all).length + if reception.robot = robot then 1 else 0 := by
        intro robot
        rw [atRobot, List.filter_cons]
        by_cases here : reception.robot = robot <;> simp [here, atRobot]
      rw [Finset.sum_congr rfl fun robot _ => perRobot robot, Finset.sum_add_distrib,
        inductionHypothesis, Finset.sum_ite_eq, if_pos (Finset.mem_univ _), List.length_cons]

/-! ## Exactly once -/

/-- Over every run, the items of a robot's replies followed by those pending are
its matched receptions, in order and each once. Each item names the transmitter
and the latency of its own packet, each reply holds the receptions since the
previous update, an unmatched reception changes nothing, a reception at one robot
changes no other robot's field, and the receive counter counts the items. -/
theorem receptions_reported_exactly_once (config : Config n Coord)
    (mobility : ∀ i, config.hasMobility i = true) (events : List (Event n))
    (ordered : events.Pairwise fun earlier later => earlier.time ≤ later.time)
    (unique : ((events.flatMap (transmissions config)).map Prod.fst).Nodup)
    (parses : ∀ event ∈ events, event.Parses config) :
    let start := RobotGateway.initial n Coord
    ∃ final, Run.run (step config) start events = .ok final ∧
      (∀ robot, reportedItems final robot =
        (atRobot robot (receptions config start events)).map
          fun reception => reception.delivery.text) ∧
      (∀ reception ∈ receptions config start events,
        (∀ record, (reception.uid, record) ∈ events.flatMap (transmissions config) ↔
          record = reception.record) ∧
        reception.delivery =
          ⟨reception.record.robot, (reception.time - reception.record.time) / 1000⟩ ∧
        0 ≤ reception.delivery.latencyUs) ∧
      (∀ before batch update after, events = before ++ (batch ++ update :: after) →
        AtUpdate before → (∀ event ∈ batch, event.isUpdate = false) → update.isUpdate = true →
        ∃ first middle next, Run.run (step config) start before = .ok first ∧
          Run.run (step config) first batch = .ok middle ∧
          step config middle update = .ok next ∧
          next.responses = first.responses ++ [middle.deliveries] ∧
          ∀ robot, fieldItems (middle.deliveries robot) =
            (atRobot robot (receptions config first batch)).map
              fun reception => reception.delivery.text) ∧
      (∀ (gateway : RobotGateway n Coord) robot uid now, gateway.tx.find? uid = none →
        handleRx gateway robot uid now = gateway) ∧
      (∀ (gateway : RobotGateway n Coord) robot uid now other, other ≠ robot →
        (handleRx gateway robot uid now).deliveries other = gateway.deliveries other) ∧
      final.numRx = ∑ robot, (reportedItems final robot).length := by
  intro start
  obtain ⟨final, ran⟩ := run_ok mobility start parses
  have items := reportedItems_run ran
  refine ⟨final, ran, items, ?_, ?_, fun gateway robot uid now unknown =>
    handleRx_of_unknown unknown robot now, fun gateway robot uid now other different =>
    handleRx_deliveries_other gateway different uid now, ?_⟩
  · intro reception seen
    obtain ⟨transmitted, before⟩ := record_of_reception ordered seen
    obtain ⟨floor, nonneg⟩ := getMicroSeconds_of_nonneg (Int.sub_nonneg_of_le before)
    refine
      ⟨fun record => ⟨fun member => eq_of_unique_uid unique member transmitted, ?_⟩, ?_, nonneg⟩
    · rintro rfl
      exact transmitted
    · rw [Reception.delivery, deliveryOf, floor]
  · rintro before batch update after rfl atUpdate noUpdate isUpdate
    obtain ⟨first, ranBefore, fromFirst⟩ := Run.run_append_ok ran
    obtain ⟨middle, ranBatch, fromMiddle⟩ := Run.run_append_ok fromFirst
    obtain ⟨next, stepped, -⟩ := Run.run_cons_ok fromMiddle
    have collected := deliveries_of_batch ranBatch noUpdate
      (represents_run ranBefore represents_initial) (deliveries_of_atUpdate ranBefore atUpdate)
    refine ⟨first, middle, next, ranBefore, ranBatch, stepped, ?_, fun robot => ?_⟩
    · rw [(step_update stepped isUpdate).1, responses_of_batch ranBatch noUpdate]
    · rw [collected robot, fieldItems_fieldText, List.map_map]
      rfl
  · have counted := numRx_run ran
    rw [counted, ← sum_atRobot_length]
    simp only [items, List.length_map]
    exact Nat.zero_add _

theorem receptions_reported_exactly_once_relay :
    ∃ final, Run.run (step relay) (RobotGateway.initial 2 Int) relayEvents = .ok final ∧
      reportedItems final 1 = ["0:1000000".toList] ∧ final.numRx = 1 := by
  obtain ⟨final, ran, items, -, -, -, -, counted⟩ :=
    receptions_reported_exactly_once relay (fun _ => rfl) relayEvents (by decide) (by decide)
      relayEvents_parse
  have one : reportedItems final 1 = ["0:1000000".toList] := (items 1).trans (by decide +kernel)
  have none : reportedItems final 0 = [] := (items 0).trans (by decide +kernel)
  refine ⟨final, ran, one, ?_⟩
  rw [counted, Fin.sum_univ_two, none, one]
  rfl

end Sidewalk.Gateway
