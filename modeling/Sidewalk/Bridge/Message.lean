import Sidewalk.Bridge.State

/-!
Owns what the bridge sends and remembers: the step message as a whole, four
fields for each robot, and how callbacks and messages move a robot's latest pose
into its sent pose. After each message the sent pose of a robot is the latest
pose it had published by then.

Does not own what the gateway makes of the message.
-/

set_option autoImplicit false

namespace Sidewalk.Bridge

open Sidewalk.Foundation Sidewalk.Protocol

variable {n : Nat} {Coord : Type}

/-! ## The whole message -/

/-- The four fields of a robot in the step message. -/
def Robot.message (print : Coord → Text) (robot : Robot Coord) : List Text :=
  [print robot.pose.x, print robot.pose.y, print robot.pose.z,
    Decimal.ofNat (if robot.send then 1 else 0)]

/-- All fields of the step message after the two of the time. -/
def messageFields (print : Coord → Text) (node : BridgeNode n Coord) : List Text :=
  (List.finRange n).flatMap fun i => (node.robots i).message print

/-- The node after building the step message. -/
def afterMessage (params : Params Coord) (simNs : Int) (node : BridgeNode n Coord) :
    BridgeNode n Coord :=
  { node with
    robots := fun i => (node.robots i).built
    sent := node.sent +
      ((List.finRange n).filter fun i => (node.robots i).send ∧ params.warmupNs ≤ simNs).length }

theorem foldl_buildRobot (params : Params Coord) (simNs : Int) (out : Text)
    (node : BridgeNode n Coord) {robots : List (Fin n)} (distinct : robots.Nodup) :
    robots.foldl (buildRobot params simNs) (out, node) =
      (out ++ robots.flatMap fun i => (node.robots i).fields params.print,
        { node with
          robots := fun i => if i ∈ robots then (node.robots i).built else node.robots i
          sent := node.sent +
            (robots.filter fun i => (node.robots i).send ∧ params.warmupNs ≤ simNs).length }) := by
  induction robots using List.reverseRecOn with
  | nil => simp
  | append_singleton robots i inductionHypothesis =>
      obtain ⟨earlier, -, apart⟩ := List.nodup_append.mp distinct
      have fresh : i ∉ robots := fun again => apart i again i (by simp) rfl
      have robotsEq : Function.update
          (fun j => if j ∈ robots then (node.robots j).built else node.robots j) i
          (node.robots i).built =
            fun j => if j ∈ robots ++ [i] then (node.robots j).built else node.robots j := by
        funext j
        by_cases here : j = i
        · simp [here]
        · simp [here]
      rw [List.foldl_append, inductionHypothesis earlier, List.foldl_cons, List.foldl_nil,
        buildRobot]
      simp only [if_neg fresh, robotsEq, List.flatMap_append, List.filter_append,
        List.length_append]
      by_cases sends : (node.robots i).send = true ∧ params.warmupNs ≤ simNs
      · simp [sends, Nat.add_assoc]
      · simp [sends]

/-- Texts each led by a space, after a first text, are all joined by spaces. -/
theorem intercalate_of_led (first : Text) (texts : List Text) :
    [' '].intercalate (first :: texts) = first ++ texts.flatMap (' ' :: ·) := by
  induction texts generalizing first with
  | nil => simp
  | cons text texts inductionHypothesis =>
      rw [List.intercalate_cons_of_ne_nil (List.cons_ne_nil _ _), inductionHypothesis]
      simp

theorem Robot.fields_eq (print : Coord → Text) (robot : Robot Coord) :
    robot.fields print = (robot.message print).flatMap (' ' :: ·) := by
  simp [Robot.fields, Robot.message]

/-- The step message is its time and the robots' fields joined by spaces, and
building it treats all robots at once. -/
theorem stepMessage_eq (params : Params Coord) (simNs : Int) (node : BridgeNode n Coord) :
    stepMessage params simNs node =
      ([' '].intercalate (Decimal.ofInt (simNs.tdiv 1000000000) ::
          Decimal.ofInt (simNs.tmod 1000000000) :: messageFields params.print node) ++ ['\r', '\n'],
        afterMessage params simNs node) := by
  have fields : (List.finRange n).flatMap (fun i => (node.robots i).fields params.print) =
      (messageFields params.print node).flatMap (' ' :: ·) := by
    rw [messageFields, List.flatMap_assoc]
    simp only [Robot.fields_eq]
  rw [stepMessage, foldl_buildRobot params simNs _ node (List.nodup_finRange n),
    intercalate_of_led, fields]
  simp [afterMessage]

/-- In a list of records of equal width, field `k` of record `i` stands at
`i * width + k`. -/
theorem getElem?_flatMap_stride {ι α : Type} {width : Nat} (record : ι → List α)
    (uniform : ∀ i, (record i).length = width) (indices : List ι) (i : Nat) {k : Nat}
    (below : k < width) :
    (indices.flatMap record)[i * width + k]? =
      indices[i]?.bind fun index => (record index)[k]? := by
  induction indices generalizing i with
  | nil => simp
  | cons index indices inductionHypothesis =>
      rw [List.flatMap_cons]
      cases i with
      | zero =>
          rw [Nat.zero_mul, Nat.zero_add, List.getElem?_append_left (by rw [uniform]; exact below)]
          rfl
      | succ i =>
          have later : (i + 1) * width + k = width + (i * width + k) := by
            rw [Nat.add_mul, Nat.one_mul]
            omega
          rw [later, List.getElem?_append_right (by rw [uniform]; omega), uniform,
            Nat.add_sub_cancel_left, inductionHypothesis]
          rfl

theorem messageFields_getElem? (print : Coord → Text) (node : BridgeNode n Coord) (i : Fin n)
    {k : Nat} (below : k < 4) :
    (messageFields print node)[i * 4 + k]? = ((node.robots i).message print)[k]? := by
  have width : ∀ i, ((node.robots i).message print).length = 4 := fun _ => rfl
  rw [messageFields, getElem?_flatMap_stride _ width _ _ below]
  simp

/-! ## Callbacks -/

/-- A call of a pose callback. -/
abbrev PoseCall (n : Nat) (Coord : Type) := Fin n × Pose Coord

/-- The node after a list of pose callbacks. -/
def callbacks (node : BridgeNode n Coord) (calls : List (PoseCall n Coord)) :
    BridgeNode n Coord :=
  calls.foldl (fun node call => poseCallback node call.1 call.2) node

/-- Callbacks touch nothing but the robots. -/
theorem callbacks_eq (node : BridgeNode n Coord) (calls : List (PoseCall n Coord)) :
    callbacks node calls = { node with robots := (callbacks node calls).robots } := by
  induction calls generalizing node with
  | nil => rfl
  | cons call calls inductionHypothesis =>
      exact inductionHypothesis (poseCallback node call.1 call.2)

@[simp] theorem callbacks_sent (node : BridgeNode n Coord) (calls : List (PoseCall n Coord)) :
    (callbacks node calls).sent = node.sent := by
  rw [callbacks_eq]

@[simp] theorem callbacks_latenciesUs (node : BridgeNode n Coord)
    (calls : List (PoseCall n Coord)) : (callbacks node calls).latenciesUs = node.latenciesUs := by
  rw [callbacks_eq]

@[simp] theorem callbacks_neighbors (node : BridgeNode n Coord)
    (calls : List (PoseCall n Coord)) : (callbacks node calls).neighbors = node.neighbors := by
  rw [callbacks_eq]

/-- The poses robot `i` published, in order. -/
def published (i : Fin n) (calls : List (PoseCall n Coord)) : List (Pose Coord) :=
  (calls.filter fun call => call.1 = i).map Prod.snd

/-- The most recent pose robot `i` published, `origin` before the first. -/
def latest (origin : Pose Coord) (i : Fin n) (calls : List (PoseCall n Coord)) : Pose Coord :=
  (published i calls).getLast?.getD origin

theorem published_append (i : Fin n) (before after : List (PoseCall n Coord)) :
    published i (before ++ after) = published i before ++ published i after := by
  simp [published]

theorem latest_of_published_nil {origin : Pose Coord} {i : Fin n}
    {calls : List (PoseCall n Coord)} (none : published i calls = []) :
    latest origin i calls = origin := by
  rw [latest, none]
  rfl

theorem latest_append (origin : Pose Coord) (i : Fin n) (before after : List (PoseCall n Coord)) :
    latest origin i (before ++ after) = latest (latest origin i before) i after := by
  rw [latest, latest, published_append, List.getLast?_append, latest]
  cases (published i after).getLast? <;> rfl

/-- What a robot's entry holds when `sentCalls` were made by the last step
message and `since` after it. -/
def tracked (origin : Pose Coord) (sentCalls since : List (PoseCall n Coord)) (i : Fin n) :
    Robot Coord where
  pose := latest origin i (sentCalls ++ since)
  sentPose := latest origin i sentCalls
  fresh := published i since ≠ []
  havePose := published i (sentCalls ++ since) ≠ []

/-- The node's robots hold what the calls made so far say. -/
def Tracks (origin : Pose Coord) (sentCalls since : List (PoseCall n Coord))
    (node : BridgeNode n Coord) : Prop :=
  ∀ i, node.robots i = tracked origin sentCalls since i

theorem tracks_initial (origin : Pose Coord) :
    Tracks origin [] [] (BridgeNode.initial n origin) :=
  fun _ => rfl

theorem tracks_poseCallback {origin : Pose Coord} {sentCalls since : List (PoseCall n Coord)}
    {node : BridgeNode n Coord} (tracks : Tracks origin sentCalls since node)
    (call : PoseCall n Coord) :
    Tracks origin sentCalls (since ++ [call]) (poseCallback node call.1 call.2) := by
  intro i
  by_cases here : i = call.1
  · subst here
    simp [poseCallback, tracked, tracks call.1, latest, published]
  · have other : published i [call] = [] := by simp [published, Ne.symm here]
    simp [poseCallback, Function.update_of_ne here, tracks i, tracked, latest, published_append,
      other]

theorem tracks_callbacks {origin : Pose Coord} {sentCalls since : List (PoseCall n Coord)}
    {node : BridgeNode n Coord} (tracks : Tracks origin sentCalls since node)
    (calls : List (PoseCall n Coord)) :
    Tracks origin sentCalls (since ++ calls) (callbacks node calls) := by
  induction calls generalizing since node with
  | nil => simpa [callbacks] using tracks
  | cons call calls inductionHypothesis =>
      rw [List.append_cons]
      exact inductionHypothesis (tracks_poseCallback tracks call)

/-- A robot's send flag is set exactly when it published since the last message. -/
theorem send_tracked (origin : Pose Coord) (sentCalls since : List (PoseCall n Coord))
    (i : Fin n) : (tracked origin sentCalls since i).send = decide (published i since ≠ []) := by
  rw [Robot.send, tracked, published_append]
  by_cases some : published i since = [] <;> simp [some]

/-- One robot's turn: its sent pose becomes its latest, and nothing is fresh. -/
theorem built_tracked (origin : Pose Coord) (sentCalls since : List (PoseCall n Coord))
    (i : Fin n) :
    (tracked origin sentCalls since i).built = tracked origin (sentCalls ++ since) [] i := by
  have sentPose : (if (tracked origin sentCalls since i).send then
      latest origin i (sentCalls ++ since) else latest origin i sentCalls) =
        latest origin i (sentCalls ++ since) := by
    rw [send_tracked]
    by_cases none : published i since = []
    · rw [if_neg (by simp [none]), latest_append, latest_of_published_nil none]
    · rw [if_pos (by simp [none])]
  calc (tracked origin sentCalls since i).built
    _ = ⟨latest origin i (sentCalls ++ since),
          if (tracked origin sentCalls since i).send then latest origin i (sentCalls ++ since)
          else latest origin i sentCalls,
          false, decide (published i (sentCalls ++ since) ≠ [])⟩ := rfl
    _ = tracked origin (sentCalls ++ since) [] i := by
        rw [sentPose, tracked, List.append_nil]
        rfl

theorem tracks_afterMessage {origin : Pose Coord} {sentCalls since : List (PoseCall n Coord)}
    {node : BridgeNode n Coord} (tracks : Tracks origin sentCalls since node)
    (params : Params Coord) (simNs : Int) :
    Tracks origin (sentCalls ++ since) [] (afterMessage params simNs node) := by
  intro i
  rw [← built_tracked, ← tracks i]
  rfl

end Sidewalk.Bridge
