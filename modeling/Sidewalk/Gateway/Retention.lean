import Sidewalk.Gateway.Reports

/-!
Owns the retention window of the transmission table: a transmission is in the
table until the first update more than a second after it, the table holds
nothing else, and every reception within the second is matched and reported.

Does not own which receptions a robot's replies contain.
-/

set_option autoImplicit false

namespace Sidewalk.Gateway

open Sidewalk.Foundation Sidewalk.Protocol

variable {n : Nat} {Coord : Type}

/-! ## What the table can hold -/

/-- No update among the events comes more than a second after `time`. -/
def KeptThrough (time : Int) (events : List (Event n)) : Prop :=
  ∀ update ∈ events, update.isUpdate = true → update.time ≤ time + seconds 1

instance (time : Int) (events : List (Event n)) : Decidable (KeptThrough time events) :=
  inferInstanceAs (Decidable (∀ update ∈ events, _ → _))

theorem keptThrough_cons {time : Int} {event : Event n} {events : List (Event n)} :
    KeptThrough time (event :: events) ↔
      (event.isUpdate = true → event.time ≤ time + seconds 1) ∧ KeptThrough time events := by
  simp [KeptThrough]

theorem expired_iff {now : Int} {record : TxRecord n} :
    expired now record = true ↔ ¬ now ≤ record.time + seconds 1 := by
  simp only [expired, decide_eq_true_eq]
  omega

/-- A record found after an event is one the event made or one found before. -/
theorem transmitted_or_known {config : Config n Coord} {gateway next : RobotGateway n Coord}
    {event : Event n} (stepped : step config gateway event = .ok next) {uid : Uid}
    {record : TxRecord n} (found : next.tx.find? uid = some record) :
    (uid, record) ∈ transmissions config event ∨ gateway.tx.find? uid = some record := by
  rw [step_tx stepped] at found
  split at found
  next =>
    rw [AssocMap.find?_eraseWhere, Option.filter_eq_some_iff] at found
    exact AssocMap.mem_or_find?_of_find?_assignAll found.1
  next => exact AssocMap.mem_or_find?_of_find?_assignAll found

/-- Every record in the table is that of a transmission of the run. -/
theorem transmitted_of_find? {config : Config n Coord} {final : RobotGateway n Coord}
    {events : List (Event n)}
    (ran : Run.run (step config) (RobotGateway.initial n Coord) events = .ok final) :
    ∀ uid record, final.tx.find? uid = some record →
      (uid, record) ∈ events.flatMap (transmissions config) := by
  refine Run.history_induction (fun past gateway => ∀ uid record,
    gateway.tx.find? uid = some record → (uid, record) ∈ past.flatMap (transmissions config))
    ran ?_ ?_
  · intro uid record found
    exact Option.noConfusion rfl (heq_of_eq found)
  · intro past event rest gateway next _ _ inductionHypothesis stepped uid record found
    rw [List.flatMap_append, List.mem_append, List.flatMap_singleton]
    exact (transmitted_or_known stepped found).symm.imp_left (inductionHypothesis uid record)

/-! ## How long the table holds it -/

/-- An event that does not transmit a packet keeps its record, unless the event
is an update and the record has expired. -/
theorem find?_step {config : Config n Coord} {gateway next : RobotGateway n Coord}
    {event : Event n} (stepped : step config gateway event = .ok next) {uid : Uid}
    (other : uid ∉ (transmissions config event).map Prod.fst) {record : TxRecord n}
    (found : gateway.tx.find? uid = some record) :
    next.tx.find? uid =
      if event.isUpdate = true → event.time ≤ record.time + seconds 1 then some record
      else none := by
  rw [step_tx stepped]
  by_cases update : event.isUpdate = true
  · rw [if_pos update, AssocMap.find?_eraseWhere, AssocMap.find?_assignAll_of_not_mem _ other,
      found]
    by_cases inTime : event.time ≤ record.time + seconds 1
    · simp [Option.filter, expired_iff, inTime]
    · simp [Option.filter, expired_iff, inTime, update]
  · rw [if_neg update, AssocMap.find?_assignAll_of_not_mem _ other, found,
      if_pos fun isUpdate => absurd isUpdate update]

theorem find?_step_transmitted {config : Config n Coord} {gateway next : RobotGateway n Coord}
    {event : Event n} (stepped : step config gateway event = .ok next)
    (distinct : ((transmissions config event).map Prod.fst).Nodup) {uid : Uid}
    {record : TxRecord n} (member : (uid, record) ∈ transmissions config event) :
    next.tx.find? uid = some record := by
  have assigned := AssocMap.find?_assignAll_of_mem gateway.tx distinct member
  have fresh : expired event.time record = false := by
    rw [Bool.eq_false_iff, Ne, expired_iff, time_of_mem_transmissions member, seconds]
    omega
  rw [step_tx stepped]
  split
  · rw [AssocMap.find?_eraseWhere, assigned]
    simp [Option.filter, fresh]
  · exact assigned

/-- Once purged, a packet that is not transmitted again stays out of the table. -/
theorem find?_run_none {config : Config n Coord} {gateway final : RobotGateway n Coord}
    {events : List (Event n)} (ran : Run.run (step config) gateway events = .ok final) {uid : Uid}
    (other : uid ∉ (events.flatMap (transmissions config)).map Prod.fst)
    (absent : gateway.tx.find? uid = none) : final.tx.find? uid = none := by
  induction events generalizing gateway with
  | nil =>
      rw [Run.run_nil, Except.ok.injEq] at ran
      exact ran ▸ absent
  | cons event events inductionHypothesis =>
      obtain ⟨next, stepped, rest⟩ := Run.run_cons_ok ran
      rw [List.flatMap_cons, List.map_append, List.mem_append, not_or] at other
      apply inductionHypothesis rest other.2
      have assigned := AssocMap.find?_assignAll_of_not_mem gateway.tx other.1
      rw [absent] at assigned
      rw [step_tx stepped]
      split
      · rw [AssocMap.find?_eraseWhere, assigned]
        rfl
      · exact assigned

/-- A run that does not transmit a packet keeps its record exactly when no update
of the run comes more than a second after the record. -/
theorem find?_run {config : Config n Coord} {gateway final : RobotGateway n Coord}
    {events : List (Event n)} (ran : Run.run (step config) gateway events = .ok final) {uid : Uid}
    (other : uid ∉ (events.flatMap (transmissions config)).map Prod.fst) {record : TxRecord n}
    (found : gateway.tx.find? uid = some record) :
    final.tx.find? uid = if KeptThrough record.time events then some record else none := by
  induction events generalizing gateway with
  | nil =>
      rw [Run.run_nil, Except.ok.injEq] at ran
      rw [← ran, found, if_pos (by simp [KeptThrough])]
  | cons event events inductionHypothesis =>
      obtain ⟨next, stepped, rest⟩ := Run.run_cons_ok ran
      rw [List.flatMap_cons, List.map_append, List.mem_append, not_or] at other
      have here := find?_step stepped other.1 found
      by_cases inTime : event.isUpdate = true → event.time ≤ record.time + seconds 1
      · rw [if_pos inTime] at here
        rw [inductionHypothesis rest other.2 here]
        simp only [keptThrough_cons, iff_true_intro inTime, true_and]
      · rw [if_neg inTime] at here
        rw [find?_run_none rest other.2 here,
          if_neg fun kept => inTime (keptThrough_cons.mp kept).1]

/-- The record of a transmission, at the end of a run in which it happened. -/
theorem find?_transmitted {config : Config n Coord} {start final : RobotGateway n Coord}
    {before after : List (Event n)} {event : Event n}
    (ran : Run.run (step config) start (before ++ event :: after) = .ok final)
    (unique : (((before ++ event :: after).flatMap (transmissions config)).map Prod.fst).Nodup)
    {uid : Uid} {record : TxRecord n} (member : (uid, record) ∈ transmissions config event) :
    final.tx.find? uid = if KeptThrough record.time after then some record else none := by
  obtain ⟨middle, -, fromEvent⟩ := Run.run_append_ok ran
  obtain ⟨next, stepped, rest⟩ := Run.run_cons_ok fromEvent
  rw [List.flatMap_append, List.flatMap_cons, List.map_append, List.map_append] at unique
  obtain ⟨distinct, -, apart⟩ := List.nodup_append.mp (List.nodup_append.mp unique).2.1
  have other : uid ∉ (after.flatMap (transmissions config)).map Prod.fst := fun again =>
    apart uid (List.mem_map_of_mem member) uid again rfl
  exact find?_run rest other (find?_step_transmitted stepped distinct member)

/-- After an update, no record is more than a second old. -/
theorem age_after_update {config : Config n Coord} {gateway next : RobotGateway n Coord}
    {event : Event n} (stepped : step config gateway event = .ok next)
    (update : event.isUpdate = true) {uid : Uid} {record : TxRecord n}
    (found : next.tx.find? uid = some record) : event.time - record.time ≤ seconds 1 := by
  rw [step_tx stepped, if_pos update, AssocMap.find?_eraseWhere, Option.filter_eq_some_iff] at found
  have notExpired : ¬ expired event.time record = true := by simpa using found.2
  rw [expired_iff, not_not] at notExpired
  omega

/-! ## Receptions within the window -/

theorem matched_in_window {config : Config n Coord} {gateway : RobotGateway n Coord}
    {before : List (Event n)} {reception : Event n} {robot : Fin n} {uid : Uid}
    {record : TxRecord n}
    (ran : Run.run (step config) (RobotGateway.initial n Coord) before = .ok gateway)
    (earlier : ∀ event ∈ before, event.time ≤ reception.time)
    (unique : ((before.flatMap (transmissions config)).map Prod.fst).Nodup)
    (transmitted : (uid, record) ∈ before.flatMap (transmissions config))
    (call : reception.call = .handleRx robot uid)
    (inTime : reception.time ≤ record.time + seconds 1) :
    matched gateway reception = [⟨robot, uid, reception.time, record⟩] := by
  obtain ⟨event, inBefore, member⟩ := List.mem_flatMap.mp transmitted
  obtain ⟨first, last, rfl⟩ := List.append_of_mem inBefore
  apply matched_handleRx_some call
  rw [find?_transmitted ran unique member, if_pos]
  intro update inLast _
  exact (earlier update (by simp [inLast])).trans inTime

/-- The retention window is exact: at the end of every run, the packet of a
transmission is in the table exactly when no later update ran more than a second
after it, and then with its transmitter and time; the table holds nothing else.
Every reception within a second of its transmission is matched and its item
reported; every record is at most a second old after an update; and the erasing
loop removes the expired entries of any table and no others. -/
theorem retention_window_exact (config : Config n Coord) (events : List (Event n))
    (ordered : events.Pairwise fun earlier later => earlier.time ≤ later.time)
    (unique : ((events.flatMap (transmissions config)).map Prod.fst).Nodup)
    (final : RobotGateway n Coord)
    (ran : Run.run (step config) (RobotGateway.initial n Coord) events = .ok final) :
    (∀ before event after uid record, events = before ++ event :: after →
      (uid, record) ∈ transmissions config event →
        record.time = event.time ∧
        final.tx.find? uid =
          if ∀ update ∈ after, update.isUpdate = true → update.time ≤ event.time + seconds 1
          then some record else none) ∧
    (∀ uid record, final.tx.find? uid = some record →
      (uid, record) ∈ events.flatMap (transmissions config)) ∧
    (∀ before reception after robot uid record, events = before ++ reception :: after →
      reception.call = .handleRx robot uid →
      (uid, record) ∈ before.flatMap (transmissions config) →
      reception.time ≤ record.time + seconds 1 →
        ⟨robot, uid, reception.time, record⟩ ∈
            receptions config (RobotGateway.initial n Coord) events ∧
        (deliveryOf record reception.time).text ∈ reportedItems final robot) ∧
    (∀ before update, events = before ++ [update] → update.isUpdate = true →
      ∀ uid record, final.tx.find? uid = some record → update.time - record.time ≤ seconds 1) ∧
    ∀ (gateway : RobotGateway n Coord) (now : Int),
      (purge now gateway).tx.entries =
        gateway.tx.entries.filter fun entry => now - entry.2.time ≤ seconds 1 := by
  refine ⟨?_, transmitted_of_find? ran, ?_, ?_, ?_⟩
  · rintro before event after uid record rfl member
    have time := time_of_mem_transmissions member
    refine ⟨time, ?_⟩
    rw [find?_transmitted ran unique member, time]
    rfl
  · rintro before reception after robot uid record rfl call transmitted inTime
    obtain ⟨gateway, first, -⟩ := Run.run_append_ok ran
    have earlier : ∀ event ∈ before, event.time ≤ reception.time := fun event member =>
      (List.pairwise_append.mp ordered).2.2 event member reception (by simp)
    rw [List.flatMap_append, List.map_append] at unique
    have isMatched := matched_in_window first earlier (List.nodup_append.mp unique).1 transmitted
      call inTime
    have seen : (⟨robot, uid, reception.time, record⟩ : Reception n) ∈
        receptions config (RobotGateway.initial n Coord) (before ++ reception :: after) := by
      rw [receptions, Run.observe_append first, Run.observe, isMatched]
      simp
    refine ⟨seen, ?_⟩
    rw [reportedItems_run ran]
    exact List.mem_map.mpr ⟨_, List.mem_filter.mpr ⟨seen, decide_eq_true rfl⟩, rfl⟩
  · rintro before update rfl isUpdate uid record found
    obtain ⟨gateway, -, stepped⟩ := Run.run_concat_ok ran
    exact age_after_update stepped isUpdate found
  · intro gateway now
    rw [purge, AssocMap.entries_eraseWhere]
    apply List.filter_congr
    intro entry _
    by_cases young : now - entry.2.time ≤ seconds 1
    · simp [expired, young]
    · simp [expired, young, not_le.mp young]

/-! ## A relayed packet -/

/-- The first of two robots. -/
def leader : Fin 2 := 0

/-- The second of two robots. -/
def follower : Fin 2 := 1

/-- Two robots whose coordinates are whole metres. -/
def relay : Config 2 Int := ⟨0, fun _ => true, Decimal.stoll⟩

/-- The leader sends packet 7 in the first update; the follower receives it a second
later, and an update follows at once. -/
def relayEvents : List (Event 2) :=
  [⟨0, .doInitialize [['0'], ['0'], ['0'], ['1'], ['5'], ['0'], ['0'], ['0']] fun _ => [7]⟩,
    ⟨1000000000, .handleRx follower 7⟩,
    ⟨1000000000, .doUpdate [['1'], ['0'], ['0'], ['0'], ['5'], ['0'], ['0'], ['0']] fun _ => []⟩]

theorem relayEvents_parse : ∀ event ∈ relayEvents, event.Parses relay := by
  intro event member data emitted update
  simp only [relayEvents, List.mem_cons, List.not_mem_nil, or_false] at member
  rcases member with rfl | rfl | rfl
  · cases update
    exact parses_of_numbers (by decide) (by decide)
  · exact Option.noConfusion rfl (heq_of_eq update)
  · cases update
    exact parses_of_numbers (by decide) (by decide)

theorem retention_window_exact_relay :
    ∃ final, Run.run (step relay) (RobotGateway.initial 2 Int) relayEvents = .ok final ∧
      final.tx.find? 7 = some ⟨0, 0⟩ ∧ "0:1000000".toList ∈ reportedItems final 1 := by
  obtain ⟨final, ran⟩ := run_ok (fun _ => rfl) (RobotGateway.initial 2 Int) relayEvents_parse
  obtain ⟨kept, -, reported, -⟩ :=
    retention_window_exact relay relayEvents (by decide) (by decide) final ran
  refine ⟨final, ran, ?_, ?_⟩
  · exact (kept [] _ _ 7 ⟨0, 0⟩ rfl (by decide)).2.trans (by decide)
  · exact (reported [_] _ _ 1 7 ⟨0, 0⟩ rfl rfl (by decide) (by decide)).2

end Sidewalk.Gateway
