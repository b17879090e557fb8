import Mathlib.Analysis.InnerProductSpace.PiL2
import Sidewalk.Foundation.Pursuit
import Sidewalk.Robot.Waypoint

/-!
Owns the motion of the random-waypoint robot over the reals with the Euclidean
norm: a tick is one step of a pursuit in the plane, its division is never
reached with a zero distance, and over whole runs the robot and its waypoint stay
in the square while the robot keeps to its speed.

Does not own the distribution of the waypoints: any values in the square may be
drawn.
-/

set_option autoImplicit false

namespace Sidewalk.Robot

open Sidewalk.Foundation

/-- `std::hypot` over the reals. -/
noncomputable def euclid (dx dy : ℝ) : ℝ := √(dx ^ 2 + dy ^ 2)

/-- A tick over the reals. -/
noncomputable def realTick (draws : Nat → ℝ) (node : RobotNode ℝ) (t : Int) :
    Except MotionFault (RobotNode ℝ) :=
  node.tick euclid draws t

/-- A point of the square `[0, area] x [0, area]`. -/
def InSquare (area x y : ℝ) : Prop := (0 ≤ x ∧ x ≤ area) ∧ (0 ≤ y ∧ y ≤ area)

/-! ## The plane -/

/-- A point of the plane by its coordinates. -/
noncomputable def point (x y : ℝ) : EuclideanSpace ℝ (Fin 2) :=
  WithLp.toLp _ ![x, y]

theorem dist_point (x y x' y' : ℝ) : dist (point x y) (point x' y') = euclid (x' - x) (y' - y) := by
  unfold point euclid
  rw [dist_comm, EuclideanSpace.dist_eq, Fin.sum_univ_two]
  simp [Real.dist_eq, sq_abs]

theorem point_add_smul (x y dx dy scale : ℝ) :
    point x y + scale • (point dx dy - point x y) =
      point (x + scale * (dx - x)) (y + scale * (dy - y)) := by
  unfold point
  ext i
  fin_cases i <;> simp

/-- The square as a set of the plane. -/
def square (area : ℝ) : Set (EuclideanSpace ℝ (Fin 2)) := {p | ∀ axis, 0 ≤ p axis ∧ p axis ≤ area}

theorem point_mem_square {area x y : ℝ} : point x y ∈ square area ↔ InSquare area x y := by
  show (∀ axis, 0 ≤ point x y axis ∧ point x y axis ≤ area) ↔ _
  rw [Fin.forall_fin_two]
  rfl

theorem convex_square (area : ℝ) : Convex ℝ (square area) := by
  intro p pIn q qIn a b aNonneg bNonneg one axis
  exact convex_Icc 0 area (pIn axis) (qIn axis) aNonneg bNonneg one

/-! ## Clock readings -/

theorem seconds_nonneg {earlier later : Int} (forward : earlier ≤ later) :
    (0 : ℝ) ≤ seconds (later - earlier) := by
  have nonneg : (0 : ℝ) ≤ ((later - earlier : Int) : ℝ) := Int.cast_nonneg (by omega)
  unfold seconds
  positivity

theorem seconds_add (first second third : Int) :
    (seconds (third - first) : ℝ) = seconds (third - second) + seconds (second - first) := by
  unfold seconds
  push_cast
  ring

/-! ## One tick -/

namespace RobotNode

/-- Where the robot is, in the plane. -/
noncomputable def position (node : RobotNode ℝ) : EuclideanSpace ℝ (Fin 2) := point node.x node.y

/-- Its current waypoint, in the plane. -/
noncomputable def waypoint (node : RobotNode ℝ) : EuclideanSpace ℝ (Fin 2) :=
  point node.wx node.wy

theorem remaining_eq_dist (node : RobotNode ℝ) :
    node.remaining euclid = dist node.position node.waypoint :=
  (dist_point node.x node.y node.wx node.wy).symm

/-- The invariant: position, waypoint and every published pose are in the square. -/
structure InArena (node : RobotNode ℝ) : Prop where
  speed : 0 ≤ node.speed
  position : InSquare node.area node.x node.y
  waypoint : InSquare node.area node.wx node.wy
  published : ∀ sent ∈ node.published, InSquare node.area sent.pose.x sent.pose.y

variable {draws : Nat → ℝ} {node : RobotNode ℝ} {t : Int}

theorem stepLength_nonneg (speedNonneg : 0 ≤ node.speed) (forward : node.last ≤ t) :
    0 ≤ node.stepLength t :=
  mul_nonneg speedNonneg (seconds_nonneg forward)

/-- A tick is a step of the pursuit of the waypoint, and the division by the
distance is only reached away from it. A tick that does not arrive keeps its
waypoint; one that arrives draws the next. -/
theorem tick_refines_pursuit (draws : Nat → ℝ) (speedNonneg : 0 ≤ node.speed)
    (forward : node.last ≤ t) :
    ∃ next, realTick draws node t = .ok next ∧ node.Ticked next t ∧
      next.position = Pursuit.stepTowards node.position node.waypoint (node.stepLength t) ∧
      ((node.stepLength t < dist node.position node.waypoint ∧
          next.wx = node.wx ∧ next.wy = node.wy) ∨
        (dist node.position node.waypoint ≤ node.stepLength t ∧
          next.wx = draws node.drawn ∧ next.wy = draws (node.drawn + 1))) := by
  by_cases near : dist node.position node.waypoint ≤ node.stepLength t
  · rw [← remaining_eq_dist] at near
    obtain ⟨next, ticked, rest, x, y, wx, wy, -⟩ := tick_arrive near
    rw [remaining_eq_dist] at near
    refine ⟨next, ticked, rest, ?_, Or.inr ⟨near, wx, wy⟩⟩
    rw [Pursuit.stepTowards_arrive near, position, x, y]
    rfl
  · have far : node.stepLength t < dist node.position node.waypoint := not_le.mp near
    have apart : dist node.position node.waypoint ≠ 0 :=
      (lt_of_le_of_lt (stepLength_nonneg speedNonneg forward) far).ne'
    rw [← remaining_eq_dist] at near apart
    obtain ⟨next, ticked, rest, x, y, wx, wy, -⟩ := tick_move near apart
    refine ⟨next, ticked, rest, ?_, Or.inl ⟨far, wx, wy⟩⟩
    rw [Pursuit.stepTowards_short far, ← remaining_eq_dist, position, position, waypoint,
      point_add_smul, x, y]
    congr 1 <;> ring

theorem tick_inArena (inArena : node.InArena)
    (drawn : ∀ k, 0 ≤ draws k ∧ draws k ≤ node.area) (forward : node.last ≤ t) :
    ∃ next, realTick draws node t = .ok next ∧ node.Ticked next t ∧ next.InArena ∧
      dist next.position node.position ≤ node.stepLength t := by
  have nonneg := stepLength_nonneg inArena.speed forward
  obtain ⟨next, ticked, rest, moved, waypoint⟩ :=
    tick_refines_pursuit draws inArena.speed forward
  have inSquare : next.position ∈ square node.area := by
    rw [moved]
    exact Pursuit.stepTowards_mem (convex_square node.area)
      (point_mem_square.mpr inArena.position) (point_mem_square.mpr inArena.waypoint) nonneg
  have position : InSquare node.area next.x next.y := point_mem_square.mp inSquare
  refine ⟨next, ticked, rest, ⟨?_, ?_, ?_, ?_⟩, ?_⟩
  · rw [rest.speed]
    exact inArena.speed
  · rw [rest.area]
    exact position
  · rw [rest.area]
    rcases waypoint with ⟨-, wx, wy⟩ | ⟨-, wx, wy⟩
    · rw [wx, wy]
      exact inArena.waypoint
    · rw [wx, wy]
      exact ⟨drawn node.drawn, drawn (node.drawn + 1)⟩
  · obtain ⟨pose, appended, -, x, y⟩ := rest.published
    intro sent member
    rw [rest.area]
    rw [appended, List.mem_append, List.mem_singleton] at member
    rcases member with earlier | rfl
    · exact inArena.published sent earlier
    · rw [x, y]
      exact position
  · rw [moved]
    exact Pursuit.dist_stepTowards_le nonneg

/-- How far one tick moves, and how much nearer to its waypoint a tick comes that
does not arrive. -/
theorem tick_distances (speedNonneg : 0 ≤ node.speed) (forward : node.last ≤ t)
    {next : RobotNode ℝ} (ticked : realTick draws node t = .ok next) :
    dist next.position node.position ≤ node.stepLength t ∧
      (node.stepLength t < dist node.position node.waypoint →
        (next.wx = node.wx ∧ next.wy = node.wy) ∧
        dist next.position next.waypoint =
          dist node.position node.waypoint - node.stepLength t) := by
  have nonneg := stepLength_nonneg speedNonneg forward
  obtain ⟨same, reached, -, moved, target⟩ := tick_refines_pursuit draws speedNonneg forward
  rw [ticked, Except.ok.injEq] at reached
  subst reached
  constructor
  · rw [moved]
    exact Pursuit.dist_stepTowards_le nonneg
  · intro far
    have kept := (target.resolve_right fun arrived => absurd arrived.1 (not_le.mpr far)).2
    have waypoint : next.waypoint = node.waypoint := by
      unfold waypoint
      rw [kept.1, kept.2]
    refine ⟨kept, ?_⟩
    rw [waypoint, moved]
    exact Pursuit.dist_target_stepTowards nonneg far

/-! ## Runs of ticks -/

/-- Any run whose clock never goes backwards ends normally, in the square, and
within the distance its speed allows for the elapsed time. -/
theorem run_inArena (inArena : node.InArena)
    (drawn : ∀ k, 0 ≤ draws k ∧ draws k ≤ node.area) {readings : List Int}
    (forward : (node.last :: readings).Pairwise (· ≤ ·)) :
    ∃ final, Run.run (realTick draws) node readings = .ok final ∧ final.InArena ∧
      final.area = node.area ∧ final.speed = node.speed ∧
      final.last = readings.getLastD node.last ∧
      dist final.position node.position ≤ node.speed * seconds (final.last - node.last) := by
  induction readings generalizing node with
  | nil =>
      refine ⟨node, rfl, inArena, rfl, rfl, rfl, ?_⟩
      simp [seconds]
  | cons t readings inductionHypothesis =>
      obtain ⟨bounds, rest⟩ := List.pairwise_cons.mp forward
      obtain ⟨next, ticked, kept, nextIn, near⟩ := tick_inArena inArena drawn (bounds t (by simp))
      obtain ⟨final, ran, finalIn, area, speed, last, far⟩ :=
        inductionHypothesis nextIn (by rwa [kept.area]) (by rwa [kept.last])
      refine ⟨final, (Run.run_cons ticked readings).trans ran, finalIn, area.trans kept.area,
        speed.trans kept.speed, ?_, ?_⟩
      · rw [last, kept.last, List.getLastD_cons]
      · calc dist final.position node.position
            ≤ dist final.position next.position + dist next.position node.position :=
              dist_triangle _ _ _
          _ ≤ node.speed * seconds (final.last - t) + node.speed * seconds (t - node.last) := by
              rw [kept.speed, kept.last] at far
              exact add_le_add far near
          _ = node.speed * seconds (final.last - node.last) := by
              rw [seconds_add node.last t final.last, mul_add]

theorem construct_inArena {area speed : ℝ} (start : Int) (speedNonneg : 0 ≤ speed)
    (drawn : ∀ k, 0 ≤ draws k ∧ draws k ≤ area) : (construct draws area speed start).InArena where
  speed := speedNonneg
  position := ⟨drawn 0, drawn 1⟩
  waypoint := ⟨drawn 2, drawn 3⟩
  published := by
    intro sent member
    exact absurd member List.not_mem_nil

end RobotNode

/-! ## The robot in its arena -/

/-- The node after the ticks with the readings `past`. -/
def Reached (draws : Nat → ℝ) (area speed : ℝ) (start : Int) (past : List Int)
    (node : RobotNode ℝ) : Prop :=
  Run.run (realTick draws) (RobotNode.construct draws area speed start) past = .ok node

section Runs

variable {draws : Nat → ℝ} {area speed : ℝ} {start : Int}

theorem exists_reached (speedNonneg : 0 ≤ speed) (drawn : ∀ k, 0 ≤ draws k ∧ draws k ≤ area)
    {past : List Int} (forward : (start :: past).Pairwise (· ≤ ·)) :
    ∃ node, Reached draws area speed start past node ∧ node.InArena ∧ node.area = area ∧
      node.speed = speed ∧ node.last = past.getLastD start := by
  obtain ⟨node, ran, inArena, areaEq, speedEq, last, -⟩ :=
    RobotNode.run_inArena (RobotNode.construct_inArena start speedNonneg drawn) drawn forward
  exact ⟨node, ran, inArena, areaEq, speedEq, last⟩

theorem Reached.unique {past : List Int} {node other : RobotNode ℝ}
    (reached : Reached draws area speed start past node)
    (again : Reached draws area speed start past other) : node = other := by
  unfold Reached at reached again
  rw [reached, Except.ok.injEq] at again
  exact again

/-- The clock of a node that is reached does not run ahead of later readings. -/
theorem forward_from {past rest : List Int} (forward : (start :: (past ++ rest)).Pairwise (· ≤ ·)) :
    (past.getLastD start :: rest).Pairwise (· ≤ ·) := by
  rw [← List.cons_append, List.pairwise_append] at forward
  apply List.pairwise_cons.mpr
  constructor
  · intro reading member
    exact forward.2.2 _ List.getLastD_mem_cons reading member
  · exact forward.2.1

/-- From a node that is reached, a further stretch of the run ends normally and
within the distance the speed allows for the time between the two clocks. -/
theorem Reached.stretch (speedNonneg : 0 ≤ speed) (drawn : ∀ k, 0 ≤ draws k ∧ draws k ≤ area)
    {past between : List Int} (forward : (start :: (past ++ between)).Pairwise (· ≤ ·))
    {earlier later : RobotNode ℝ} (reached : Reached draws area speed start past earlier)
    (after : Reached draws area speed start (past ++ between) later) :
    dist later.position earlier.position ≤ speed * seconds (later.last - earlier.last) := by
  have before : (start :: past).Pairwise (· ≤ ·) :=
    forward.sublist ((List.sublist_append_left past between).cons_cons start)
  obtain ⟨node, ran, inArena, areaEq, speedEq, last⟩ := exists_reached speedNonneg drawn before
  obtain rfl := reached.unique ran
  have ahead := forward_from forward
  rw [← last] at ahead
  obtain ⟨final, ranOn, -, -, -, -, near⟩ :=
    RobotNode.run_inArena inArena (by rwa [areaEq]) ahead
  have same : Reached draws area speed start (past ++ between) final :=
    (Run.run_append reached between).trans ranOn
  rw [after.unique same, ← speedEq]
  exact near

/-- The distances of one tick of a run. -/
theorem Reached.tick_distances (speedNonneg : 0 ≤ speed)
    (drawn : ∀ k, 0 ≤ draws k ∧ draws k ≤ area) {past rest : List Int} {t : Int}
    (forward : (start :: (past ++ t :: rest)).Pairwise (· ≤ ·)) {node next : RobotNode ℝ}
    (reached : Reached draws area speed start past node)
    (ticked : realTick draws node t = .ok next) :
    euclid (next.x - node.x) (next.y - node.y) ≤ speed * seconds (t - node.last) ∧
      (speed * seconds (t - node.last) < euclid (node.wx - node.x) (node.wy - node.y) →
        (next.wx = node.wx ∧ next.wy = node.wy) ∧
        euclid (next.wx - next.x) (next.wy - next.y) =
          euclid (node.wx - node.x) (node.wy - node.y) - speed * seconds (t - node.last)) := by
  have before : (start :: past).Pairwise (· ≤ ·) :=
    forward.sublist ((List.sublist_append_left past _).cons_cons start)
  obtain ⟨same, ran, inArena, -, speedEq, last⟩ := exists_reached speedNonneg drawn before
  obtain rfl := reached.unique ran
  have ahead : node.last ≤ t := by
    rw [last]
    exact (List.pairwise_cons.mp (forward_from forward)).1 t List.mem_cons_self
  have distances := RobotNode.tick_distances inArena.speed ahead ticked
  rw [RobotNode.stepLength, speedEq] at distances
  rw [← dist_point, ← dist_point, ← dist_point, dist_comm]
  exact distances

/-- Every pose the robot publishes lies in the square. -/
theorem published_in_square (speedNonneg : 0 ≤ speed)
    (drawn : ∀ k, 0 ≤ draws k ∧ draws k ≤ area) {readings : List Int}
    (forward : (start :: readings).Pairwise (· ≤ ·)) :
    ∃ node, Reached draws area speed start readings node ∧
      ∀ sent ∈ node.published, InSquare area sent.pose.x sent.pose.y := by
  obtain ⟨node, reached, inArena, areaEq, -, -⟩ := exists_reached speedNonneg drawn forward
  have published := inArena.published
  rw [areaEq] at published
  exact ⟨node, reached, published⟩

/-- Over every run whose clock never goes backwards, the robot and its waypoint
stay in the square, no tick divides by zero, each tick moves by at most
`speed * dt` and a tick that does not arrive comes nearer to its waypoint by
exactly that, and between any two ticks the robot keeps to its speed. -/
theorem robot_stays_in_arena_within_speed (draws : Nat → ℝ) (area speed : ℝ) (start : Int)
    (readings : List Int) (speedNonneg : 0 ≤ speed)
    (drawn : ∀ k, 0 ≤ draws k ∧ draws k ≤ area)
    (forward : (start :: readings).Pairwise (· ≤ ·)) :
    (∀ past rest, readings = past ++ rest →
      ∃ node, Reached draws area speed start past node ∧ node.last = past.getLastD start ∧
        InSquare area node.x node.y ∧ InSquare area node.wx node.wy) ∧
    (∀ past t rest node next, readings = past ++ t :: rest →
      Reached draws area speed start past node → realTick draws node t = .ok next →
      euclid (next.x - node.x) (next.y - node.y) ≤ speed * seconds (t - node.last) ∧
      (speed * seconds (t - node.last) < euclid (node.wx - node.x) (node.wy - node.y) →
        (next.wx = node.wx ∧ next.wy = node.wy) ∧
        euclid (next.wx - next.x) (next.wy - next.y) =
          euclid (node.wx - node.x) (node.wy - node.y) - speed * seconds (t - node.last))) ∧
    (∀ past between rest earlier later, readings = past ++ between ++ rest →
      Reached draws area speed start past earlier →
      Reached draws area speed start (past ++ between) later →
      euclid (later.x - earlier.x) (later.y - earlier.y) ≤
        speed * seconds (later.last - earlier.last)) := by
  refine ⟨?_, ?_, ?_⟩
  · intro past rest split
    have before : (start :: past).Pairwise (· ≤ ·) :=
      forward.sublist ((split ▸ List.sublist_append_left past rest).cons_cons start)
    obtain ⟨node, reached, inArena, areaEq, -, last⟩ := exists_reached speedNonneg drawn before
    rw [← areaEq]
    exact ⟨node, areaEq.symm ▸ reached, last, inArena.position, inArena.waypoint⟩
  · intro past t rest node next split reached ticked
    subst split
    exact reached.tick_distances speedNonneg drawn forward ticked
  · intro past between rest earlier later split reached after
    have upTo : (start :: (past ++ between)).Pairwise (· ≤ ·) :=
      forward.sublist ((split ▸ List.sublist_append_left (past ++ between) rest).cons_cons start)
    rw [← dist_point, dist_comm]
    exact reached.stretch speedNonneg drawn upTo after

end Runs

/-! ## A robot on its way -/

/-- A robot that starts in the corner, goes to (3, 4), and then back to the corner. -/
noncomputable def outAndBack (k : Nat) : ℝ := (([0, 0, 3, 4] : List Int)[k]?.getD 0 : Int)

theorem outAndBack_inside (k : Nat) : 0 ≤ outAndBack k ∧ outAndBack k ≤ ((5 : Int) : ℝ) := by
  unfold outAndBack
  match k with
  | 0 | 1 | 2 | 3 => constructor <;> norm_num
  | k + 4 => simp

/-- The pose published at (x, y). -/
noncomputable def poseAt (x y : ℝ) : Bridge.Pose ℝ := ⟨x, y, ((2 : Int) : ℝ)⁻¹, 0, 0, 0, 1⟩

/-- The robot on its way to (3, 4), on five metres at one metre in a second. -/
noncomputable def underway (x y : ℝ) (last : Int) (published : List (PoseStamped ℝ)) :
    RobotNode ℝ :=
  ⟨((5 : Int) : ℝ), 1, x, y, ((3 : Int) : ℝ), ((4 : Int) : ℝ), 4, last, published⟩

/-- Far from its waypoint it moves by one metre in a second. -/
theorem tick_underway (x y remaining : ℝ) (last : Int) (published : List (PoseStamped ℝ))
    (square : (3 - x) ^ 2 + (4 - y) ^ 2 = remaining ^ 2) (far : 1 < remaining) :
    realTick outAndBack (underway x y last published) (last + 1000000000) =
      .ok (underway (x + (3 - x) / remaining) (y + (4 - y) / remaining) (last + 1000000000)
        (published ++ [⟨last + 1000000000, ['m', 'a', 'p'],
          poseAt (x + (3 - x) / remaining) (y + (4 - y) / remaining)⟩])) := by
  have distance : euclid (3 - x) (4 - y) = remaining := by
    rw [euclid, square]
    exact Real.sqrt_sq (by linarith)
  have second : (seconds 1000000000 : ℝ) = 1 := by norm_num [seconds]
  have apart : remaining ≠ 0 := by linarith
  have short : ¬ remaining ≤ 1 := not_le.mpr far
  simp [realTick, RobotNode.tick, RobotNode.publish, underway, poseAt, distance, second, divide,
    apart, short, pure, Except.pure, bind, Except.bind]

theorem reached_underway :
    Reached outAndBack ((5 : Int) : ℝ) 1 0 [1000000000, 2000000000]
      (underway (6 / 5) (8 / 5) 2000000000
        [⟨1000000000, ['m', 'a', 'p'], poseAt (3 / 5) (4 / 5)⟩,
          ⟨2000000000, ['m', 'a', 'p'], poseAt (6 / 5) (8 / 5)⟩]) := by
  have start : RobotNode.construct outAndBack ((5 : Int) : ℝ) 1 0 = underway 0 0 0 [] := by
    simp [RobotNode.construct, RobotNode.pickWaypoint, underway, outAndBack]
  have first := tick_underway 0 0 5 0 [] (by norm_num) (by norm_num)
  have second := tick_underway (3 / 5) (4 / 5) 4 1000000000
    [⟨1000000000, ['m', 'a', 'p'], poseAt (3 / 5) (4 / 5)⟩] (by norm_num) (by norm_num)
  rw [show (0 : ℝ) + (3 - 0) / 5 = 3 / 5 by norm_num,
    show (0 : ℝ) + (4 - 0) / 5 = 4 / 5 by norm_num] at first
  rw [show (3 / 5 : ℝ) + (3 - 3 / 5) / 4 = 6 / 5 by norm_num,
    show (4 / 5 : ℝ) + (4 - 4 / 5) / 4 = 8 / 5 by norm_num] at second
  rw [Reached, start]
  exact (Run.run_cons first _).trans ((Run.run_single _ _).trans second)

/-- A run with a repeated reading and a gap of ten seconds, in which the robot reaches
its waypoint. -/
theorem robot_stays_in_arena_underway :
    ∃ final, Reached outAndBack ((5 : Int) : ℝ) 1 0
        [1000000000, 2000000000, 2000000000, 12000000000] final ∧
      InSquare ((5 : Int) : ℝ) final.x final.y ∧
      euclid (final.x - 6 / 5) (final.y - 8 / 5) ≤ 1 * seconds 10000000000 := by
  obtain ⟨inside, -, apart⟩ := robot_stays_in_arena_within_speed outAndBack ((5 : Int) : ℝ) 1 0
    [1000000000, 2000000000, 2000000000, 12000000000] zero_le_one outAndBack_inside (by decide)
  obtain ⟨final, reached, last, position, -⟩ := inside _ [] (List.append_nil _).symm
  have near := apart [1000000000, 2000000000] [2000000000, 12000000000] [] _ final rfl
    reached_underway reached
  rw [last] at near
  exact ⟨final, reached, position, near⟩

end Sidewalk.Robot
