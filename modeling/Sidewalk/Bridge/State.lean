import Mathlib.Data.Rat.Defs
import Mathlib.Data.List.FinRange
import Mathlib.Logic.Function.Basic
import Sidewalk.Foundation.Run
import Sidewalk.Protocol.Delivery

/-!
Owns the model of `BridgeNode`: its state, the pose callback, the building of a
step message, and `handleReply` with its hand-written split of the reply line.
The state records what the node publishes and writes to its CSV.

Does not own the socket, the pacing to the wall clock, message headers and log
lines other than the field-count warning. Printing a coordinate is a parameter.
The conversions of `warmup_s` and of latencies to floating point are exact. Of the
arithmetic on `int64_t`, only that on the latency of a reply may overflow.
-/

set_option autoImplicit false

namespace Sidewalk.Bridge

open Sidewalk.Foundation Sidewalk.Protocol

/-- `geometry_msgs::msg::Pose`: a position and a quaternion. -/
structure Pose (Coord : Type) where
  x : Coord
  y : Coord
  z : Coord
  orientation : Coord × Coord × Coord × Coord
deriving DecidableEq, Repr

/-- `BridgeNode::Robot` without its subscription and publisher. -/
structure Robot (Coord : Type) where
  /-- latest pose from the robot -/
  pose : Pose Coord
  /-- pose carried by its last state message -/
  sentPose : Pose Coord
  fresh : Bool
  havePose : Bool
deriving DecidableEq, Repr

/-- One row of the CSV file. The first column shows the seconds of `simNs` as
`operator<<` prints them, with six significant digits. -/
structure CsvRow where
  simNs : Int
  src : Int
  dst : Nat
  latencyUs : Int
deriving DecidableEq, Repr

/-- The parameters that decide what a step does: `step_ms` and `warmup_s` in
nanoseconds, and how `operator<<` prints a coordinate. -/
structure Params (Coord : Type) where
  stepMs : Nat
  warmupNs : Int
  print : Coord → Text

/-- `BridgeNode` with `n` robots, and what it has published: the pose arrays on
`/robot_j/neighbors`, the values on `/sidewalk/latency_ms`, the CSV rows, and the
field count of the one warning. -/
structure BridgeNode (n : Nat) (Coord : Type) where
  robots : Fin n → Robot Coord
  sent : Nat
  latenciesUs : List Int
  neighbors : Fin n → List (List (Pose Coord))
  latencyMs : List ℚ
  csv : List CsvRow
  fieldWarning : Option Nat

variable {n : Nat} {Coord : Type}

/-- A node just constructed; `origin` is the default pose. -/
def BridgeNode.initial (n : Nat) (origin : Pose Coord) : BridgeNode n Coord where
  robots := fun _ => ⟨origin, origin, false, false⟩
  sent := 0
  latenciesUs := []
  neighbors := fun _ => []
  latencyMs := []
  csv := []
  fieldWarning := none

/-- The callback of the subscription to `/robot_i/pose`. -/
def poseCallback (node : BridgeNode n Coord) (i : Fin n) (pose : Pose Coord) :
    BridgeNode n Coord :=
  { node with
    robots := Function.update node.robots i
      { node.robots i with pose := pose, fresh := true, havePose := true } }

/-! ## The step message -/

/-- Whether the step message sets a robot's send flag. -/
def Robot.send (robot : Robot Coord) : Bool := robot.fresh && robot.havePose

/-- A robot after its turn in the loop that builds the step message. -/
def Robot.built (robot : Robot Coord) : Robot Coord :=
  { robot with
    sentPose := if robot.send then robot.pose else robot.sentPose
    fresh := false }

/-- What the loop prints for a robot: `' ' x ' ' y ' ' z ' ' send`. -/
def Robot.fields (print : Coord → Text) (robot : Robot Coord) : Text :=
  ' ' :: print robot.pose.x ++ ' ' :: print robot.pose.y ++ ' ' :: print robot.pose.z ++
    ' ' :: Decimal.ofNat (if robot.send then 1 else 0)

/-- One turn of the loop over the robots, on the stream `out` and the node. -/
def buildRobot (params : Params Coord) (simNs : Int) (state : Text × BridgeNode n Coord)
    (i : Fin n) : Text × BridgeNode n Coord :=
  let (out, node) := state
  let robot := node.robots i
  (out ++ robot.fields params.print,
    { node with
      robots := Function.update node.robots i robot.built
      sent := node.sent + if robot.send ∧ params.warmupNs ≤ simNs then 1 else 0 })

/-- The step message for time `simNs` and the node after building it. -/
def stepMessage (params : Params Coord) (simNs : Int) (node : BridgeNode n Coord) :
    Text × BridgeNode n Coord :=
  let header := Decimal.ofInt (simNs.tdiv 1000000000) ++ ' ' ::
    Decimal.ofInt (simNs.tmod 1000000000)
  let (out, built) := (List.finRange n).foldl (buildRobot params simNs) (header, node)
  (out ++ ['\r', '\n'], built)

/-! ## The reply -/

/-- One turn of the loop that splits the line, on `start` and `fields`. -/
def splitTurn (line : Text) (state : Nat × List Text) (i : Nat) : Nat × List Text :=
  let (start, fields) := state
  if i = line.length ∨ (line)[i]? = some ' ' then
    (i + 1, fields ++ [(line.drop start).take (i - start)])
  else (start, fields)

/-- The loop `for (size_t i = 0; i <= line.size(); i++)`: the fields of the line. -/
def splitFields (line : Text) : List Text :=
  ((List.range (line.length + 1)).foldl (splitTurn line) (0, [])).2

/-- The two texts cut from an item at its first `:`. Without one, `find` returns
`npos`, and both `substr(0, npos)` and `substr(npos + 1)` are the whole item. -/
def splitItem (item : Text) : Text × Text :=
  match item.findIdx? (· = ':') with
  | none => (item, item)
  | some c => (item.take c, item.drop (c + 1))

/-- `value` is an `int64_t`. -/
def InInt64 (value : Int) : Prop := -2 ^ 63 ≤ value ∧ value < 2 ^ 63

/-- What `sim_ns - lat_us * 1000` is: exact, unless the product or the difference
overflows, which leaves any value. -/
structure SentTime where
  sentNs : Int → Int → Int
  exact : ∀ simNs latUs, InInt64 (latUs * 1000) → InInt64 (simNs - latUs * 1000) →
    sentNs simNs latUs = simNs - latUs * 1000

/-- Nothing overflows. -/
def SentTime.unbounded : SentTime where
  sentNs simNs latUs := simNs - latUs * 1000
  exact _ _ _ _ := rfl

@[simp] theorem SentTime.unbounded_sentNs (simNs latUs : Int) :
    SentTime.unbounded.sentNs simNs latUs = simNs - latUs * 1000 := rfl

/-- One turn of the loop over the items of receiver `j`, on the node and the pose
array being filled. -/
def handleItem (sentTime : SentTime) (params : Params Coord) (simNs : Int) (j : Fin n)
    (state : BridgeNode n Coord × List (Pose Coord)) (item : Text) :
    Except Decimal.ConversionError (BridgeNode n Coord × List (Pose Coord)) := do
  let (node, neigh) := state
  let (srcText, latencyText) := splitItem item
  let src ← Decimal.stoi srcText
  let latUs ← Decimal.stoll latencyText
  let poses :=
    if known : 0 ≤ src ∧ src < n then
      neigh ++ [(node.robots ⟨src.toNat, by omega⟩).sentPose]
    else neigh
  return ({ node with
      latencyMs := node.latencyMs ++ [(latUs : ℚ) / 1000]
      csv := node.csv ++ [⟨simNs, src, j, latUs⟩]
      latenciesUs :=
        if params.warmupNs ≤ sentTime.sentNs simNs latUs then node.latenciesUs ++ [latUs]
        else node.latenciesUs }, poses)

/-- One turn of the loop over the receivers. -/
def handleField (sentTime : SentTime) (params : Params Coord) (simNs : Int)
    (fields : List Text) (node : BridgeNode n Coord) (j : Fin n) :
    Except Decimal.ConversionError (BridgeNode n Coord) := do
  let field := fields.getD j []
  if field.isEmpty then
    return node
  else
    let (next, neigh) ←
      Run.run (handleItem sentTime params simNs j) (node, []) (Delimited.getlines ';' field)
    return { next with neighbors := Function.update next.neighbors j (next.neighbors j ++ [neigh]) }

/-- `BridgeNode::handleReply`, whatever an overflow leaves. -/
def handleReplyWith (sentTime : SentTime) (params : Params Coord) (line : Text) (simNs : Int)
    (node : BridgeNode n Coord) : Except Decimal.ConversionError (BridgeNode n Coord) :=
  let fields := splitFields line
  let warned := if fields.length = n then node else
    { node with fieldWarning := node.fieldWarning.or (some fields.length) }
  Run.run (handleField sentTime params simNs fields) warned
    ((List.finRange n).filter fun j => j < fields.length)

/-- `BridgeNode::handleReply` where nothing overflows. -/
def handleReply (params : Params Coord) (line : Text) (simNs : Int) (node : BridgeNode n Coord) :
    Except Decimal.ConversionError (BridgeNode n Coord) :=
  handleReplyWith .unbounded params line simNs node

/-- The reception ratio `report` prints once some latency is recorded. With nothing
sent the code divides by zero and prints `inf`, where this is 0. -/
def BridgeNode.prr (node : BridgeNode n Coord) : ℚ :=
  if 1 < n then (node.latenciesUs.length : ℚ) / (node.sent * (n - 1 : Nat)) else 0

end Sidewalk.Bridge
