import Mathlib.Algebra.Field.Defs
import Mathlib.Algebra.Order.Ring.Defs
import Sidewalk.Bridge.State
import Sidewalk.Foundation.Run

/-!
Owns the model of `RobotNode`, over any ordered field with its `hypot`: the
constructor, `pickWaypoint` and `tick`, with a division by zero as a fault. The
state records the poses the node publishes.

Does not own the random engine: `draws n` is the value of the `n`-th call of
`u(rng_)`. Nor does it own the subscription to the neighbours, which counts; the
report timer, which logs, is left out. Clock readings are nanoseconds, and the clock
is read once in the constructor and once in each tick.
-/

set_option autoImplicit false

namespace Sidewalk.Robot

open Sidewalk.Foundation Sidewalk.Bridge

/-- `geometry_msgs::msg::PoseStamped`. -/
structure PoseStamped (K : Type) where
  stamp : Int
  frameId : List Char
  pose : Pose K

/-- `RobotNode`; `drawn` counts the values taken from the random engine. -/
structure RobotNode (K : Type) where
  area : K
  speed : K
  x : K
  y : K
  wx : K
  wy : K
  drawn : Nat
  last : Int
  published : List (PoseStamped K)

/-- What `tick` must never do. -/
inductive MotionFault where
  | divisionByZero
deriving DecidableEq, Repr

variable {K : Type}

/-- `RobotNode::pickWaypoint`. -/
def RobotNode.pickWaypoint (draws : Nat → K) (node : RobotNode K) : RobotNode K :=
  { node with
    wx := draws node.drawn
    wy := draws (node.drawn + 1)
    drawn := node.drawn + 2 }

/-- The end of `tick`: the pose published with the stamp `t`. -/
def RobotNode.publish [Field K] (t : Int) (node : RobotNode K) : RobotNode K :=
  { node with
    published := node.published ++
      [{ stamp := t
         frameId := ['m', 'a', 'p']
         pose := { x := node.x, y := node.y, z := 1 / 2, orientation := (0, 0, 0, 1) } }] }

/-- The constructor: the initial position, the first waypoint, and the clock
reading `start`. -/
def RobotNode.construct [Field K] (draws : Nat → K) (area speed : K) (start : Int) :
    RobotNode K :=
  let placed : RobotNode K :=
    { area := area, speed := speed, x := draws 0, y := draws 1, wx := 0, wy := 0, drawn := 2
      last := start, published := [] }
  placed.pickWaypoint draws

/-- `Duration::seconds()`. -/
def seconds [Field K] (nanoseconds : Int) : K := (nanoseconds : K) / 1000000000

variable [Field K] [LinearOrder K]

/-- `a / d`, which must not be reached with a zero `d`. -/
def divide (a d : K) : Except MotionFault K :=
  if d = 0 then .error .divisionByZero else .ok (a / d)

/-- `RobotNode::tick` with the clock reading `t`. -/
def RobotNode.tick (hypot : K → K → K) (draws : Nat → K) (node : RobotNode K) (t : Int) :
    Except MotionFault (RobotNode K) := do
  let dt := seconds (t - node.last)
  let node := { node with last := t }
  let dx := node.wx - node.x
  let dy := node.wy - node.y
  let d := hypot dx dy
  let step := node.speed * dt
  let moved ←
    if d ≤ step then
      pure (RobotNode.pickWaypoint draws { node with x := node.wx, y := node.wy })
    else do
      let ux ← divide dx d
      let uy ← divide dy d
      pure { node with x := node.x + ux * step, y := node.y + uy * step }
  return moved.publish t

/-! ## What a tick does -/

/-- The length `speed * dt` a tick may move by. -/
def RobotNode.stepLength (node : RobotNode K) (t : Int) : K := node.speed * seconds (t - node.last)

/-- The distance `d` to the waypoint. -/
def RobotNode.remaining (hypot : K → K → K) (node : RobotNode K) : K :=
  hypot (node.wx - node.x) (node.wy - node.y)

/-- What every tick does besides moving: it keeps the parameters, stores the clock
reading and publishes its new position. -/
structure RobotNode.Ticked (node next : RobotNode K) (t : Int) : Prop where
  area : next.area = node.area
  speed : next.speed = node.speed
  last : next.last = t
  published : ∃ pose, next.published = node.published ++ [pose] ∧ pose.stamp = t ∧
    pose.pose.x = next.x ∧ pose.pose.y = next.y

variable {hypot : K → K → K} {draws : Nat → K} {node : RobotNode K} {t : Int}

/-- A tick that arrives stops at the waypoint and picks the next one. -/
theorem RobotNode.tick_arrive (arrives : node.remaining hypot ≤ node.stepLength t) :
    ∃ next, node.tick hypot draws t = .ok next ∧ node.Ticked next t ∧
      next.x = node.wx ∧ next.y = node.wy ∧
      next.wx = draws node.drawn ∧ next.wy = draws (node.drawn + 1) ∧
      next.drawn = node.drawn + 2 := by
  unfold tick
  simp only [remaining, stepLength] at arrives
  simp only [if_pos arrives, pure, Except.pure, bind, Except.bind]
  exact ⟨_, rfl, ⟨rfl, rfl, rfl, _, rfl, rfl, rfl, rfl⟩, rfl, rfl, rfl, rfl, rfl⟩

/-- A tick that does not arrive moves along the straight line to the waypoint. -/
theorem RobotNode.tick_move (short : ¬ node.remaining hypot ≤ node.stepLength t)
    (apart : node.remaining hypot ≠ 0) :
    ∃ next, node.tick hypot draws t = .ok next ∧ node.Ticked next t ∧
      next.x = node.x + (node.wx - node.x) / node.remaining hypot * node.stepLength t ∧
      next.y = node.y + (node.wy - node.y) / node.remaining hypot * node.stepLength t ∧
      next.wx = node.wx ∧ next.wy = node.wy ∧ next.drawn = node.drawn := by
  unfold tick
  simp only [remaining, stepLength] at short apart ⊢
  simp only [if_neg short, divide, if_neg apart, pure, Except.pure, bind, Except.bind]
  exact ⟨_, rfl, ⟨rfl, rfl, rfl, _, rfl, rfl, rfl, rfl⟩, rfl, rfl, rfl, rfl, rfl⟩

/-- Every tick that ends publishes one pose. -/
theorem RobotNode.tick_published {next : RobotNode K}
    (ticked : node.tick hypot draws t = .ok next) :
    ∃ sent, next.published = node.published ++ [sent] := by
  by_cases arrives : node.remaining hypot ≤ node.stepLength t
  · obtain ⟨same, reached, kept, -⟩ := tick_arrive arrives
    rw [ticked, Except.ok.injEq] at reached
    obtain ⟨sent, published, -⟩ := kept.published
    exact ⟨sent, reached ▸ published⟩
  · by_cases apart : node.remaining hypot = 0
    · unfold tick at ticked
      simp only [remaining, stepLength] at arrives apart
      simp only [if_neg arrives, divide, if_pos apart, bind, Except.bind] at ticked
      cases ticked
    · obtain ⟨same, reached, kept, -⟩ := tick_move arrives apart
      rw [ticked, Except.ok.injEq] at reached
      obtain ⟨sent, published, -⟩ := kept.published
      exact ⟨sent, reached ▸ published⟩

end Sidewalk.Robot
