import Sidewalk.Cosim.Deliveries

/-!
Owns which pose the bridge republishes for a delivery. It keeps one sent pose per
robot, overwritten by every message of that robot, so the pose pushed is that of
the delivered message exactly when the sender has published nothing else, or the
same pose again, by the step of the reply.

Does not own the counting of latencies.
-/

set_option autoImplicit false

namespace Sidewalk.Cosim

open Sidewalk.Foundation Sidewalk.Protocol Sidewalk.Bridge Sidewalk.Gateway

variable {n : Nat} {Coord : Type} {setting : Setting n Coord}

/-! ## Packets name their message -/

/-- The packets the sends of a round emit. -/
def Round.uids (round : Round n Coord) : List Uid := (List.finRange n).filterMap round.packet

/-- No two sends of a run emit the same packet. -/
def UniquePackets (rounds : List (Round n Coord)) : Prop := (rounds.flatMap Round.uids).Nodup

theorem mem_uids {round : Round n Coord} {i : Fin n} {uid : Uid}
    (emits : round.packet i = some uid) : uid ∈ round.uids :=
  List.mem_filterMap.mpr ⟨i, List.mem_finRange i, emits⟩

private theorem not_emitted_again {earlier middle later : List (Round n Coord)}
    {first second : Round n Coord} {uid : Uid} {i j : Fin n}
    (unique : UniquePackets (earlier ++ first :: (middle ++ second :: later)))
    (firstEmits : first.packet i = some uid) (secondEmits : second.packet j = some uid) :
    False := by
  rw [UniquePackets, List.flatMap_append, List.flatMap_cons, List.flatMap_append,
    List.flatMap_cons] at unique
  have apart := (List.nodup_append.mp (List.nodup_append.mp unique).2.1).2.2
  exact apart uid (mem_uids firstEmits) uid (by simp [mem_uids secondEmits]) rfl

theorem emission_unique {rounds earlier otherEarlier later otherLater : List (Round n Coord)}
    {sender other : Round n Coord} (unique : UniquePackets rounds)
    (split : rounds = earlier ++ sender :: later)
    (otherSplit : rounds = otherEarlier ++ other :: otherLater) {i j : Fin n} {uid : Uid}
    (emits : sender.packet i = some uid) (otherEmits : other.packet j = some uid) :
    earlier = otherEarlier ∧ sender = other ∧ later = otherLater ∧ i = j := by
  have same : earlier = otherEarlier ∧ sender = other ∧ later = otherLater := by
    rcases List.append_eq_append_iff.mp (split.symm.trans otherSplit) with
      ⟨middle, rfl, tail⟩ | ⟨middle, rfl, tail⟩
    · cases middle with
      | nil => simpa using tail
      | cons head middle =>
          obtain ⟨rfl, rfl⟩ := List.cons.inj tail
          exact (not_emitted_again (split ▸ unique) emits otherEmits).elim
    · cases middle with
      | nil => simpa [eq_comm] using tail
      | cons head middle =>
          obtain ⟨rfl, rfl⟩ := List.cons.inj tail
          exact (not_emitted_again (otherSplit ▸ unique) otherEmits emits).elim
  obtain ⟨rfl, rfl, rfl⟩ := same
  refine ⟨rfl, rfl, rfl, ?_⟩
  by_contra different
  rw [split, UniquePackets, List.flatMap_append, List.flatMap_cons] at unique
  have distinct := (List.nodup_append.mp (List.nodup_append.mp unique).2.1).1
  have apart := List.pairwise_filterMap.mp distinct
  have symmetric : Std.Symm fun a b : Fin n => ∀ left, sender.packet a = some left →
      ∀ right, sender.packet b = some right → left ≠ right :=
    ⟨fun a b far left leftAt right rightAt => (far right rightAt left leftAt).symm⟩
  exact apart.forall (List.mem_finRange i) (List.mem_finRange j) different uid emits uid
    otherEmits rfl

/-! ## The pose republished -/

/-- The latest pose after more callbacks is the one before them exactly when the
last of them that is the robot's own publishes that pose. -/
theorem latest_append_eq_iff (origin : Pose Coord) (i : Fin n)
    (before after : List (PoseCall n Coord)) :
    latest origin i (before ++ after) = latest origin i before ↔
      ∀ newer, (published i after).getLast? = some newer → newer = latest origin i before := by
  rw [latest_append]
  conv_lhs => rw [latest]
  cases (published i after).getLast? with
  | none => simp
  | some newer => simp

theorem overtaken_unique : UniquePackets overtaken := by
  show (overtaken.flatMap Round.uids).Nodup
  decide

/-- The pose of robot `i` that the bridge prints into the step message of a round. -/
def messagePose (system : Coupled n Coord) (round : Round n Coord) (i : Fin n) : Pose Coord :=
  ((callbacks system.node round.before).robots i).pose

/-- In every run, for every reply and every delivery it contains: the pose pushed
for the delivery is the pose of its sender in the message that emitted the packet
exactly when the last pose the sender published between that message and the
message the reply answers, if it published any, is the last one it published before
that message. -/
theorem neighbor_pose_iff (setting : Setting n Coord) (lawful : setting.Lawful)
    (rounds : List (Round n Coord)) (schedule : Schedule setting rounds)
    (unique : UniquePackets rounds) :
    ∃ final, Run.run (step setting) (Coupled.initial setting) rounds = .ok final ∧
      ∀ past round later, rounds = past ++ round :: later →
      ∃ system next, Run.run (step setting) (Coupled.initial setting) past = .ok system ∧
        step setting system round = .ok next ∧
        ∀ j, ∃ pushed, next.node.neighbors j = system.node.neighbors j ++
            (if pushed.isEmpty then [] else [pushed]) ∧
          List.Forall₂ (fun (reception : Reception n) pose =>
            (∃ earlier sender between, past = earlier ++ sender :: between ∧
              Emits setting earlier sender reception.record.robot reception.uid) ∧
            ∀ earlier sender between src sending, past = earlier ++ sender :: between →
              Emits setting earlier sender src reception.uid →
              Run.run (step setting) (Coupled.initial setting) earlier = .ok sending →
                reception.delivery.src = src ∧
                (pose = messagePose sending sender src ↔
                  ∀ newer,
                    (published src (callsBetween sender between round)).getLast? = some newer →
                      newer = latest setting.origin src (messageCalls earlier sender)))
            (atRobot j (heard setting system round)) pushed := by
  obtain ⟨final, ran⟩ := lockstep_total lawful schedule
  refine ⟨final, ran, ?_⟩
  rintro past round later rfl
  obtain ⟨system, ranPast, fromSystem⟩ := Run.run_append_ok ran
  have timely := schedule past round later rfl
  obtain ⟨next, stepped, neighbors, -, -⟩ := step_reply lawful ranPast timely
  refine ⟨system, next, ranPast, stepped, fun j =>
    ⟨(atRobot j (heard setting system round)).map fun reception =>
      latest setting.origin reception.record.robot (messageCalls past round), ?_, ?_⟩⟩
  · rw [neighbors j, List.isEmpty_map]
  · rw [List.forall₂_map_right_iff, List.forall₂_same]
    intro reception atJ
    obtain ⟨⟨earlier, sender, between, split, emits, -⟩, -⟩ :=
      times_of_heard lawful ranPast timely (List.mem_of_mem_filter atJ)
    refine ⟨⟨earlier, sender, between, split, emits⟩, ?_⟩
    intro earlier' sender' between' src sending split' emits' ranSending
    have uniquePast : UniquePackets past := by
      rw [UniquePackets, List.flatMap_append] at unique
      exact (List.nodup_append.mp unique).1
    obtain ⟨rfl, rfl, rfl, rfl⟩ :=
      emission_unique uniquePast split split' emits.2.2 emits'.2.2
    refine ⟨rfl, ?_⟩
    rw [messagePose, pose_asked ranSending, split, messageCalls_between]
    exact latest_append_eq_iff _ _ _ _

/-- A pose published before the reply overtakes the one the delivered message
carried: the message at 2.1 s carries the earlier pose, and its delivery is
republished at 4.2 s with the later one. -/
theorem neighbor_pose_overtaken :
    Schedule twoRobots overtaken ∧ UniquePackets overtaken ∧
      (Run.run (step twoRobots) (Coupled.initial twoRobots) (overtaken.take 1)).map
        (fun sending => overtaken[1]?.map fun sender => messagePose sending sender 0) =
          .ok (some earlierPose) ∧
      (Run.run (step twoRobots) (Coupled.initial twoRobots) overtaken).map
        (fun final => final.node.neighbors 1) = .ok [[laterPose]] ∧
      laterPose ≠ earlierPose := by
  refine ⟨overtaken_schedule, overtaken_unique, ?_, ?_, ?_⟩ <;> decide +kernel

theorem neighbor_pose_iff_overtaken :
    ∃ system next pushed, Run.run (step twoRobots) (Coupled.initial twoRobots) (overtaken.take 2) =
        .ok system ∧
      step twoRobots system ⟨[(0, laterPose)], [⟨2110000000, 1, 7⟩], fun _ => none, []⟩ = .ok next ∧
      next.node.neighbors 1 = system.node.neighbors 1 ++ (if pushed.isEmpty then [] else [pushed]) ∧
      pushed.length = 1 := by
  obtain ⟨final, -, rounds⟩ := neighbor_pose_iff twoRobots twoRobots_lawful overtaken
    overtaken_schedule overtaken_unique
  obtain ⟨system, next, ran, stepped, robots⟩ := rounds (overtaken.take 2) _ [] rfl
  obtain ⟨pushed, appended, related⟩ := robots 1
  have delivered : (Run.run (step twoRobots) (Coupled.initial twoRobots) (overtaken.take 2)).map
      (fun system => (atRobot 1 (heard twoRobots system
        ⟨[(0, laterPose)], [⟨2110000000, 1, 7⟩], fun _ => none, []⟩)).length) = .ok 1 := by
    decide +kernel
  rw [ran] at delivered
  exact ⟨system, next, pushed, ran, stepped, appended,
    related.length_eq.symm.trans (Except.ok.inj delivered)⟩

end Sidewalk.Cosim
