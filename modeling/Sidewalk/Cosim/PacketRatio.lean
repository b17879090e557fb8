import Mathlib.Algebra.Order.Field.Rat
import Mathlib.Algebra.Order.BigOperators.Group.List
import Mathlib.Algebra.Order.Field.Basic
import Mathlib.Tactic.Ring
import Sidewalk.Cosim.Deliveries

/-!
Owns the packet reception ratio: which messages its numerator and its denominator
count. The denominator counts sends from the warm-up on; the numerator estimates
the time of the send from the step of the reply, so it agrees exactly when the
warm-up does not fall between the send and that estimate. Where it never does,
the ratio is at most one.

Does not own the statistics of the latencies.
-/

set_option autoImplicit false

namespace Sidewalk.Cosim

open Sidewalk.Foundation Sidewalk.Protocol Sidewalk.Bridge Sidewalk.Gateway

variable {n : Nat} {Coord : Type} {setting : Setting n Coord}

/-! ## One delivery -/

/-- `handleReply` at step `k` appends the latency of a reception. -/
def Appended (setting : Setting n Coord) (k : Nat) (reception : Reception n) : Prop :=
  (report reception).Counted setting.params (timeAt setting k)

instance (setting : Setting n Coord) (k : Nat) (reception : Reception n) :
    Decidable (Appended setting k reception) :=
  inferInstanceAs (Decidable (Report.Counted _ _ _))

/-- A packet sent at `sentNs` and received at `receivedNs` is reported by the step at
`stepNs`. Taking that step minus the latency for the time of the send is late by
the wait from the reception, rounded down to a microsecond, to the step; the
warm-up is not in between. -/
def Aligned (setting : Setting n Coord) (sentNs receivedNs stepNs : Int) : Prop :=
  setting.params.warmupNs ≤ sentNs ∨
    sentNs + (stepNs - receivedNs / 1000 * 1000) < setting.params.warmupNs

instance (setting : Setting n Coord) (sentNs receivedNs stepNs : Int) :
    Decidable (Aligned setting sentNs receivedNs stepNs) :=
  inferInstanceAs (Decidable (_ ∨ _))

theorem timeAt_whole (setting : Setting n Coord) (k : Nat) :
    ∃ us, timeAt setting k = 1000 * us := by
  refine ⟨k * (setting.params.stepMs * 1000), ?_⟩
  unfold timeAt
  ring

/-- A delivery is counted on both sides of the ratio or on neither exactly when
it is aligned. -/
theorem appended_iff_sent_iff (lawful : setting.Lawful) {past : List (Round n Coord)}
    {system : Coupled n Coord}
    (ran : Run.run (step setting) (Coupled.initial setting) past = .ok system)
    {round : Round n Coord} (timely : Timely setting past.length round) {reception : Reception n}
    (member : reception ∈ heard setting system round) :
    (Appended setting past.length reception ↔
        setting.params.warmupNs ≤ reception.record.time) ↔
      Aligned setting reception.record.time reception.time (timeAt setting past.length) := by
  obtain ⟨⟨earlier, sender, between, -, -, sentAt⟩, -, before, -, latency⟩ :=
    times_of_heard lawful ran timely member
  obtain ⟨sentUs, sent⟩ := timeAt_whole setting earlier.length
  obtain ⟨stepUs, stepped⟩ := timeAt_whole setting past.length
  show (setting.params.warmupNs ≤
    timeAt setting past.length - reception.delivery.latencyUs * 1000 ↔ _) ↔ _
  unfold Aligned
  rw [latency]
  omega

/-! ## What a run counts -/

/-- The sends of a round that the bridge counts, with the packets they emit. -/
def countedSends (setting : Setting n Coord) (system : Coupled n Coord) (round : Round n Coord) :
    List (Fin n × Option Uid) :=
  ((List.finRange n).filter fun i =>
    ((callbacks system.node round.before).robots i).send ∧
      setting.params.warmupNs ≤ system.simNs).map fun i => (i, round.packet i)

/-- The deliveries of a round whose latencies `handleReply` appends. -/
def countedDeliveries (setting : Setting n Coord) (system : Coupled n Coord)
    (round : Round n Coord) : List (Reception n) :=
  (heard setting system round).filter fun reception =>
    (report reception).Counted setting.params system.simNs

theorem counts_run (lawful : setting.Lawful) {rounds : List (Round n Coord)}
    (schedule : Schedule setting rounds) {final : Coupled n Coord}
    (ran : Run.run (step setting) (Coupled.initial setting) rounds = .ok final) :
    final.node.sent =
        (Run.observe (step setting) (countedSends setting) (Coupled.initial setting)
          rounds).length ∧
      final.node.latenciesUs.length =
        (Run.observe (step setting) (countedDeliveries setting) (Coupled.initial setting)
          rounds).length := by
  refine Run.history_induction (fun past system =>
    system.node.sent =
        (Run.observe (step setting) (countedSends setting) (Coupled.initial setting) past).length ∧
      system.node.latenciesUs.length =
        (Run.observe (step setting) (countedDeliveries setting) (Coupled.initial setting)
          past).length) ran ⟨rfl, rfl⟩ ?_
  intro past round rest system next split ranPast inductionHypothesis stepped
  obtain ⟨sentSoFar, latenciesSoFar⟩ := inductionHypothesis
  obtain ⟨reached, steppedTo, -, latencies, sent⟩ :=
    step_reply lawful ranPast (schedule past round rest split)
  rw [stepped, Except.ok.injEq] at steppedTo
  subst steppedTo
  have time := (tracks_run ranPast).1
  rw [Run.observe_concat ranPast, Run.observe_concat ranPast, List.length_append,
    List.length_append, ← sentSoFar, ← latenciesSoFar, sent, latencies]
  constructor
  · simp only [countedSends, List.length_map, send_asked ranPast, decide_eq_true_eq, time]
  · have perRobot : ∀ j, ((atRobot j (heard setting system round)).filter fun reception =>
        setting.params.warmupNs ≤
          timeAt setting past.length - reception.delivery.latencyUs * 1000) =
        atRobot j (countedDeliveries setting system round) := by
      intro j
      rw [countedDeliveries, atRobot, atRobot, List.filter_filter, List.filter_filter, time]
      apply List.filter_congr
      intro reception _
      exact Bool.and_comm _ _
    simp only [List.length_append, List.length_flatMap, List.length_map, perRobot]
    rw [← sum_atRobot_length (countedDeliveries setting system round), Fin.sum_univ_def]

/-! ## At most one -/

/-- The receptions of a round by packet and robot. -/
def Round.keys (round : Round n Coord) : List (Uid × Fin n) :=
  round.arrivals.map fun arrival => (arrival.uid, arrival.robot)

/-- Each message is received at most once by each of the other robots. -/
structure ReceivedOnce (setting : Setting n Coord) (rounds : List (Round n Coord)) : Prop where
  once : (rounds.flatMap Round.keys).Nodup
  others : ∀ earlier sender between round later i,
    rounds = earlier ++ sender :: (between ++ round :: later) →
      ∀ arrival ∈ round.arrivals, Emits setting earlier sender i arrival.uid → arrival.robot ≠ i

/-- The deliveries of a run, each with the time of the step whose reply reports it. -/
def deliveries (setting : Setting n Coord) (rounds : List (Round n Coord)) :
    List (Reception n × Int) :=
  Run.observe (step setting) (fun system round =>
    (heard setting system round).map fun reception => (reception, system.simNs))
    (Coupled.initial setting) rounds

/-- Every delivery of a run is aligned. -/
def AllAligned (setting : Setting n Coord) (rounds : List (Round n Coord)) : Prop :=
  ∀ delivery ∈ deliveries setting rounds,
    Aligned setting delivery.1.record.time delivery.1.time delivery.2

/-- Where sends count from no later than the gateway makes them, as with the
defaults of both sides, every delivery of every run is aligned. -/
theorem allAligned_of_warmup_le (lawful : setting.Lawful)
    (early : setting.params.warmupNs ≤ setting.config.txEnable) {rounds : List (Round n Coord)}
    (schedule : Schedule setting rounds) : AllAligned setting rounds := by
  intro delivery member
  obtain ⟨past, round, later, system, split, ran, inRound⟩ := Run.mem_observe member
  obtain ⟨reception, inHeard, rfl⟩ := List.mem_map.mp inRound
  obtain ⟨⟨earlier, sender, between, -, emits, sentAt⟩, -⟩ :=
    times_of_heard lawful ran (schedule past round later split) inHeard
  left
  rw [sentAt]
  exact early.trans emits.2.1

/-- Things with distinct keys, each charged to a source with few keys. -/
theorem length_le_of_charged {Thing Key Source : Type} {things : List Thing} {key : Thing → Key}
    {sources : List Source} {keysOf : Source → List Key} {width : Nat}
    (distinct : (things.map key).Nodup)
    (few : ∀ source ∈ sources, (keysOf source).length ≤ width)
    (charged : ∀ thing ∈ things, ∃ source ∈ sources, key thing ∈ keysOf source) :
    things.length ≤ sources.length * width := by
  have covered : things.map key ⊆ sources.flatMap keysOf := by
    intro found member
    obtain ⟨thing, inThings, rfl⟩ := List.mem_map.mp member
    exact List.mem_flatMap.mpr (charged thing inThings)
  calc things.length
    _ = (things.map key).length := (List.length_map _).symm
    _ ≤ (sources.flatMap keysOf).length := (List.subperm_of_subset distinct covered).length_le
    _ ≤ sources.length * width := by
        have summands := List.sum_le_card_nsmul (sources.map fun source => (keysOf source).length)
          width (by simpa using few)
        rwa [List.length_map, smul_eq_mul, ← List.length_flatMap] at summands

/-- The packet and the robot of an event that is a reception. -/
def receptionKey (event : Gateway.Event n) : List (Uid × Fin n) :=
  match event.call with
  | .handleRx robot uid => [(uid, robot)]
  | _ => []

theorem matched_keys_sublist (gateway : RobotGateway n Coord) (event : Gateway.Event n) :
    ((matched gateway event).map fun reception => (reception.uid, reception.robot)).Sublist
      (receptionKey event) := by
  unfold matched
  split
  next robot uid call =>
    rw [receptionKey, call]
    split
    next => exact List.nil_sublist _
    next => exact List.Sublist.refl _
  next => exact List.nil_sublist _

theorem heard_keys_sublist (setting : Setting n Coord) (system : Coupled n Coord)
    (round : Round n Coord) :
    ((heard setting system round).map fun reception => (reception.uid, reception.robot)).Sublist
      round.keys := by
  have among := Run.observe_sublist (Gateway.step setting.config)
    (fun reception : Reception n => (reception.uid, reception.robot)) receptionKey
    matched_keys_sublist system.gateway round.receives
  have keys : round.receives.flatMap receptionKey = round.keys := by
    rw [Round.receives, List.flatMap_map, Round.keys, List.map_eq_flatMap]
    rfl
  rwa [keys] at among

theorem countedDeliveries_keys_nodup (setting : Setting n Coord) {rounds : List (Round n Coord)}
    (receivedOnce : ReceivedOnce setting rounds) :
    ((Run.observe (step setting) (countedDeliveries setting) (Coupled.initial setting) rounds).map
      fun reception => (reception.uid, reception.robot)).Nodup := by
  refine receivedOnce.once.sublist (Run.observe_sublist _ _ _ (fun system round => ?_) _ _)
  exact (List.filter_sublist.map _).trans (heard_keys_sublist setting system round)

/-- The packets of a counted send as the other robots can receive them. -/
def keysOf (send : Fin n × Option Uid) : List (Uid × Fin n) :=
  send.2.toList.flatMap fun uid =>
    ((List.finRange n).filter fun robot => robot ≠ send.1).map fun robot => (uid, robot)

theorem keysOf_length_le (send : Fin n × Option Uid) : (keysOf send).length ≤ n - 1 := by
  obtain ⟨i, packet⟩ := send
  have parts := List.length_eq_length_filter_add (fun robot => decide (robot = i))
    (l := List.finRange n)
  rw [finRange_filter_eq, List.length_finRange, List.length_singleton] at parts
  cases packet with
  | none => exact Nat.zero_le _
  | some uid =>
      simp only [keysOf, Option.toList_some, List.flatMap_singleton, List.length_map]
      simp only [← decide_not, ne_eq] at parts ⊢
      omega

/-- A counted delivery of an aligned run is one of a counted send. -/
theorem countedDelivery_charged (lawful : setting.Lawful) {rounds : List (Round n Coord)}
    (schedule : Schedule setting rounds) (receivedOnce : ReceivedOnce setting rounds)
    (aligned : AllAligned setting rounds) {reception : Reception n}
    (member : reception ∈
      Run.observe (step setting) (countedDeliveries setting) (Coupled.initial setting) rounds) :
    ∃ send ∈ Run.observe (step setting) (countedSends setting) (Coupled.initial setting) rounds,
      (reception.uid, reception.robot) ∈ keysOf send := by
  obtain ⟨past, round, later, system, rfl, ran, counted⟩ := Run.mem_observe member
  obtain ⟨inHeard, appended⟩ := List.mem_filter.mp counted
  have timely := schedule past round later rfl
  obtain ⟨⟨earlier, sender, between, split, emits, sentAt⟩, -⟩ :=
    times_of_heard lawful ran timely inHeard
  have warm : setting.params.warmupNs ≤ reception.record.time := by
    have time := (tracks_run ran).1
    have here := aligned (reception, system.simNs)
      (Run.mem_observe_of_run ran (List.mem_map.mpr ⟨reception, inHeard, rfl⟩))
    rw [time] at here
    apply ((appended_iff_sent_iff lawful ran timely inHeard).mpr here).mp
    unfold Appended
    rw [← time]
    exact of_decide_eq_true appended
  have other : reception.robot ≠ reception.record.robot :=
    receivedOnce.others earlier sender between round later _ (by rw [split]; simp) _
      (mem_heard inHeard).1 emits
  subst split
  obtain ⟨sending, ranEarlier, -⟩ := Run.run_append_ok ran
  refine ⟨(reception.record.robot, sender.packet reception.record.robot), ?_, ?_⟩
  · rw [List.append_assoc, List.cons_append]
    refine Run.mem_observe_of_run ranEarlier (List.mem_map.mpr ⟨_, ?_, rfl⟩)
    simp only [List.mem_filter, List.mem_finRange, true_and, send_asked ranEarlier,
      decide_eq_true_eq, (tracks_run ranEarlier).1]
    exact ⟨emits.1, sentAt ▸ warm⟩
  · rw [keysOf, emits.2.2]
    simpa using other

theorem latencies_le_sent (lawful : setting.Lawful) {rounds : List (Round n Coord)}
    (schedule : Schedule setting rounds) (receivedOnce : ReceivedOnce setting rounds)
    (aligned : AllAligned setting rounds) {final : Coupled n Coord}
    (ran : Run.run (step setting) (Coupled.initial setting) rounds = .ok final) :
    final.node.latenciesUs.length ≤ final.node.sent * (n - 1) := by
  obtain ⟨sent, latencies⟩ := counts_run lawful schedule ran
  rw [sent, latencies]
  exact length_le_of_charged (countedDeliveries_keys_nodup setting receivedOnce)
    (fun send _ => keysOf_length_le send)
    fun _ member => countedDelivery_charged lawful schedule receivedOnce aligned member

theorem prr_le_one {node : BridgeNode n Coord}
    (bounded : node.latenciesUs.length ≤ node.sent * (n - 1)) : node.prr ≤ 1 := by
  unfold BridgeNode.prr
  split
  · apply div_le_one_of_le₀ (by exact_mod_cast bounded)
    exact mul_nonneg (Nat.cast_nonneg _) (Nat.cast_nonneg _)
  · exact zero_le_one

/-! ## The two counts -/

/-- In every run, at every step: the send of a robot counts in `sent` when it is
at or after the warm-up, the latency of a delivery is appended when `handleReply`
finds it so, and a delivery is treated like its send exactly when it is aligned.
So where every delivery of a run is aligned and each message is received at most
once by each other robot, there are at most `n - 1` latencies for each send, the
ratio has no zero denominator and is at most one. -/
theorem counted_alike_iff_aligned (setting : Setting n Coord) (lawful : setting.Lawful)
    (rounds : List (Round n Coord)) (schedule : Schedule setting rounds) :
    ∃ final, Run.run (step setting) (Coupled.initial setting) rounds = .ok final ∧
      (∀ past round later, rounds = past ++ round :: later →
        ∃ system next, Run.run (step setting) (Coupled.initial setting) past = .ok system ∧
          step setting system round = .ok next ∧
          next.node.sent = system.node.sent + ((List.finRange n).filter fun i =>
            published i (freshCalls past round) ≠ [] ∧
              setting.params.warmupNs ≤ timeAt setting past.length).length ∧
          next.node.latenciesUs = system.node.latenciesUs ++ (List.finRange n).flatMap (fun j =>
            ((atRobot j (heard setting system round)).filter fun reception =>
              Appended setting past.length reception).map
                fun reception => reception.delivery.latencyUs) ∧
          ∀ reception ∈ heard setting system round,
            ∃ earlier sender between, past = earlier ++ sender :: between ∧
              Emits setting earlier sender reception.record.robot reception.uid ∧
              reception.record.time = timeAt setting earlier.length ∧
              ((Appended setting past.length reception ↔
                  setting.params.warmupNs ≤ timeAt setting earlier.length) ↔
                Aligned setting (timeAt setting earlier.length) reception.time
                  (timeAt setting past.length))) ∧
      (ReceivedOnce setting rounds → AllAligned setting rounds →
        final.node.latenciesUs.length ≤ final.node.sent * (n - 1) ∧
          (final.node.latenciesUs ≠ [] → final.node.sent ≠ 0 ∧ 1 < n) ∧ final.node.prr ≤ 1) := by
  obtain ⟨final, ran⟩ := lockstep_total lawful schedule
  refine ⟨final, ran, ?_, ?_⟩
  · rintro past round later rfl
    obtain ⟨system, ranPast, -⟩ := Run.run_append_ok ran
    have timely := schedule past round later rfl
    obtain ⟨next, stepped, -, latencies, sent⟩ := step_reply lawful ranPast timely
    refine ⟨system, next, ranPast, stepped, sent, latencies, fun reception member => ?_⟩
    obtain ⟨⟨earlier, sender, between, split, emits, sentAt⟩, -⟩ :=
      times_of_heard lawful ranPast timely member
    refine ⟨earlier, sender, between, split, emits, sentAt, ?_⟩
    rw [← sentAt]
    exact appended_iff_sent_iff lawful ranPast timely member
  · intro receivedOnce aligned
    have bounded := latencies_le_sent lawful schedule receivedOnce aligned ran
    refine ⟨bounded, fun some => ?_, prr_le_one bounded⟩
    have positive := (List.length_pos_iff.mpr some).trans_le bounded
    have sends := Nat.pos_of_mul_pos_right positive
    have others := Nat.pos_of_mul_pos_left positive
    omega

/-! ## One message -/

/-- After some idle rounds the leader sends one message, received 10 ms later. -/
def oneMessage (idle : Nat) : List (Round 2 Int) :=
  List.replicate idle ⟨[], [], fun _ => none, []⟩ ++
    [⟨[(leader, earlierPose)], [], fun i => if i = leader then some 7 else none, []⟩,
      ⟨[], [⟨timeAt twoRobots idle + 10000000, follower, 7⟩], fun _ => none, []⟩]

theorem oneMessage_schedule (idle : Nat) : Schedule twoRobots (oneMessage idle) := by
  apply schedule_of_getElem
  intro k inside arrival member
  by_cases waiting : k < idle
  · simp [oneMessage, waiting] at member
  · obtain rfl | rfl : k = idle ∨ k = idle + 1 := by
      simp [oneMessage] at inside
      omega
    · simp [oneMessage] at member
    · simp [oneMessage] at member
      rw [member, Nat.add_sub_cancel, timeAt_succ]
      simp [twoRobots]

theorem oneMessage_receivedOnce (idle : Nat) : ReceivedOnce twoRobots (oneMessage idle) where
  once := by simp [oneMessage, Round.keys, List.flatMap_replicate]
  others := by
    intro earlier sender between round later i split arrival member emits
    have sends : sender ∈ oneMessage idle := by simp [split]
    have receives : round ∈ oneMessage idle := by simp [split]
    simp only [oneMessage, List.mem_append, List.mem_replicate, List.mem_cons, List.not_mem_nil,
      or_false] at sends receives
    have emitter : i = leader := by
      have packet := emits.2.2
      rcases sends with ⟨-, rfl⟩ | rfl | rfl <;> simp_all
    have receiver : arrival.robot = follower := by
      rcases receives with ⟨-, rfl⟩ | rfl | rfl <;> simp_all
    rw [emitter, receiver]
    decide

/-- A message sent at 2.1 s, before the warm-up of 3 s, is not counted as sent; its
latency, reported at 4.2 s, is. -/
theorem counted_alike_straddled :
    Schedule twoRobots (oneMessage 1) ∧ ReceivedOnce twoRobots (oneMessage 1) ∧
      twoRobots.config.txEnable ≤ twoRobots.params.warmupNs ∧
      (Run.run (step twoRobots) (Coupled.initial twoRobots) (oneMessage 1)).map
        (fun final => (final.node.sent, final.node.latenciesUs)) = .ok (0, [10000]) := by
  refine ⟨oneMessage_schedule 1, oneMessage_receivedOnce 1, ?_, ?_⟩ <;> decide +kernel

theorem counted_alike_iff_aligned_late :
    ∃ final, Run.run (step twoRobots) (Coupled.initial twoRobots) (oneMessage 2) = .ok final ∧
      final.node.latenciesUs = [10000] ∧ final.node.prr ≤ 1 := by
  obtain ⟨final, ran, -, ratio⟩ :=
    counted_alike_iff_aligned twoRobots twoRobots_lawful (oneMessage 2) (oneMessage_schedule 2)
  have aligned : AllAligned twoRobots (oneMessage 2) := by
    unfold AllAligned
    decide +kernel
  have latencies : (Run.run (step twoRobots) (Coupled.initial twoRobots) (oneMessage 2)).map
      (fun final => final.node.latenciesUs) = .ok [10000] := by
    decide +kernel
  rw [ran] at latencies
  exact ⟨final, ran, Except.ok.inj latencies, (ratio (oneMessage_receivedOnce 2) aligned).2.2⟩

end Sidewalk.Cosim
