import Sidewalk.Cosim.EndToEnd
import Sidewalk.Robot.Arena

/-!
Owns the way from the robots to the channel model: each robot ticks on its own,
its pose topic may lose messages but not reorder them, and the gateway places the
robots where the step messages say. Whatever the interleaving and the losses, ns-3
only ever sees a robot inside the square, never goes back to an older pose, and
between two steps moves it no further than its speed allows, all up to the rounding
of the coordinates that are printed.

Does not own clocks: the stamps are readings of the robots' clock, which does not go
backwards, and the steps may run faster or slower. The robots move over the reals.
-/

set_option autoImplicit false

namespace Sidewalk.Cosim

open Sidewalk.Foundation Sidewalk.Protocol Sidewalk.Bridge Sidewalk.Gateway Sidewalk.Robot

/-! ## One robot -/

/-- A robot can go from one published pose to a later one at its speed. -/
def Reaches (speed : ℝ) (earlier later : PoseStamped ℝ) : Prop :=
  earlier.stamp ≤ later.stamp ∧
    euclid (later.pose.x - earlier.pose.x) (later.pose.y - earlier.pose.y) ≤
      speed * Robot.seconds (later.stamp - earlier.stamp)

theorem reaches_self (speed : ℝ) (sent : PoseStamped ℝ) : Reaches speed sent sent := by
  refine ⟨le_rfl, ?_⟩
  simp [euclid, Robot.seconds]

theorem abs_le_euclid (dx dy : ℝ) : |dx| ≤ euclid dx dy ∧ |dy| ≤ euclid dx dy := by
  unfold euclid
  constructor
  · apply Real.abs_le_sqrt
    linarith [sq_nonneg dy]
  · apply Real.abs_le_sqrt
    linarith [sq_nonneg dx]

section Publications

variable {draws : Nat → ℝ} {area speed : ℝ} {start : Int}

/-- The poses of a run are published in the order of their stamps, each within
reach of the ones before it. -/
theorem published_reaches (speedNonneg : 0 ≤ speed) (drawn : ∀ k, 0 ≤ draws k ∧ draws k ≤ area)
    {readings : List Int} (forward : (start :: readings).Pairwise (· ≤ ·)) {node : RobotNode ℝ}
    (reached : Reached draws area speed start readings node) :
    node.published.Pairwise (Reaches speed) := by
  refine (Run.history_induction (fun past node => node.published.Pairwise (Reaches speed) ∧
    ∀ sent ∈ node.published, sent.stamp ≤ node.last ∧
      dist node.position (point sent.pose.x sent.pose.y) ≤
        speed * Robot.seconds (node.last - sent.stamp)) reached ?_ ?_).1
  · exact ⟨List.Pairwise.nil, by simp [RobotNode.construct, RobotNode.pickWaypoint]⟩
  · intro past t rest middle next split ran earlier ticked
    obtain ⟨ordered, near⟩ := earlier
    have before : (start :: past).Pairwise (· ≤ ·) :=
      forward.sublist ((split ▸ List.sublist_append_left past _).cons_cons start)
    obtain ⟨same, reachedPast, inArena, areaEq, speedEq, last⟩ :=
      exists_reached speedNonneg drawn before
    obtain rfl : middle = same := Reached.unique ran reachedPast
    have ahead : middle.last ≤ t := by
      rw [last]
      exact (List.pairwise_cons.mp (forward_from (split ▸ forward))).1 t List.mem_cons_self
    obtain ⟨other, tickedTo, kept, -, moved⟩ := RobotNode.tick_inArena inArena
      (by rwa [areaEq]) ahead
    rw [ticked, Except.ok.injEq] at tickedTo
    subst tickedTo
    obtain ⟨pose, published, stamp, x, y⟩ := kept.published
    have here : point pose.pose.x pose.pose.y = next.position := by
      rw [x, y]
      rfl
    -- What was near the old position is near the new one, for the time that has passed.
    have nearNext : ∀ sent ∈ middle.published, sent.stamp ≤ t ∧
        dist next.position (point sent.pose.x sent.pose.y) ≤
          speed * Robot.seconds (t - sent.stamp) := by
      intro sent member
      obtain ⟨older, close⟩ := near sent member
      refine ⟨older.trans ahead, ?_⟩
      calc dist next.position (point sent.pose.x sent.pose.y)
          ≤ dist next.position middle.position +
              dist middle.position (point sent.pose.x sent.pose.y) := dist_triangle _ _ _
        _ ≤ speed * Robot.seconds (t - middle.last) +
              speed * Robot.seconds (middle.last - sent.stamp) := by
            rw [RobotNode.stepLength, speedEq] at moved
            exact add_le_add moved close
        _ = speed * Robot.seconds (t - sent.stamp) := by
            rw [seconds_add sent.stamp middle.last t, mul_add]
    constructor
    · rw [published, List.pairwise_append]
      refine ⟨ordered, List.pairwise_singleton _ _, ?_⟩
      intro sent member new isNew
      obtain rfl := List.mem_singleton.mp isNew
      obtain ⟨older, close⟩ := nearNext sent member
      rw [Reaches, stamp]
      refine ⟨older, ?_⟩
      rw [← dist_point, here, dist_comm]
      exact close
    · intro sent member
      rw [kept.last]
      rw [published] at member
      rcases List.mem_append.mp member with old | new
      · exact nearNext sent old
      · obtain rfl := List.mem_singleton.mp new
        rw [here, stamp]
        simp [Robot.seconds]

end Publications

/-! ## The robots and their topics -/

/-- The robots as `cosim.launch.py` starts them: one area and one speed, each with its
own random values, start and clock readings. -/
structure Swarm (n : Nat) where
  area : ℝ
  speed : ℝ
  draws : Fin n → Nat → ℝ
  start : Fin n → Int
  readings : Fin n → List Int
  speedNonneg : 0 ≤ speed
  drawn : ∀ i k, 0 ≤ draws i k ∧ draws i k ≤ area
  forward : ∀ i, (start i :: readings i).Pairwise (· ≤ ·)

variable {n : Nat}

/-- Robot `i` after all its ticks. -/
def Swarm.Flown (swarm : Swarm n) (i : Fin n) (node : RobotNode ℝ) : Prop :=
  Reached (swarm.draws i) swarm.area swarm.speed (swarm.start i) (swarm.readings i) node

/-- The topic `/robot_i/pose` hands over these messages: those of the robot in order,
some of them lost. -/
def Swarm.Hears (swarm : Swarm n) (i : Fin n) (received : List (PoseStamped ℝ)) : Prop :=
  ∃ node, swarm.Flown i node ∧ received.Sublist node.published

theorem Swarm.Hears.spec {swarm : Swarm n} {i : Fin n} {received : List (PoseStamped ℝ)}
    (hears : swarm.Hears i received) :
    received.Pairwise (Reaches swarm.speed) ∧
      ∀ sent ∈ received, InSquare swarm.area sent.pose.x sent.pose.y := by
  obtain ⟨node, flown, among⟩ := hears
  obtain ⟨same, reached, inSquare⟩ :=
    published_in_square swarm.speedNonneg (swarm.drawn i) (swarm.forward i)
  obtain rfl : node = same := Reached.unique flown reached
  constructor
  · have reaches := published_reaches swarm.speedNonneg (swarm.drawn i) (swarm.forward i) flown
    exact reaches.sublist among
  · intro sent member
    exact inSquare sent (among.subset member)

/-- The callbacks of a run bring the messages of the topics. -/
def Swarm.Feeds (swarm : Swarm n) (rounds : List (Round n ℝ)) : Prop :=
  ∀ i, ∃ received, swarm.Hears i received ∧
    published i (sentCalls rounds) = received.map PoseStamped.pose

theorem sentCalls_prefix {Coord : Type} (earlier later : List (Round n Coord)) :
    sentCalls earlier <+: sentCalls (earlier ++ later) := by
  rcases List.eq_nil_or_concat earlier with rfl | ⟨past, last, rfl⟩
  · exact List.nil_prefix
  · rw [List.concat_eq_append, sentCalls_concat, List.append_assoc]
    exact messageCalls_prefix past later last

/-- What the topics of a whole run bring, as far as they have got. -/
theorem Swarm.Feeds.earlier {swarm : Swarm n} {earlier later : List (Round n ℝ)}
    (feeds : swarm.Feeds (earlier ++ later)) (i : Fin n) :
    ∃ heard rest, published i (sentCalls earlier) = heard.map PoseStamped.pose ∧
      published i (sentCalls (earlier ++ later)) = (heard ++ rest).map PoseStamped.pose ∧
      swarm.Hears i (heard ++ rest) := by
  obtain ⟨received, hears, all⟩ := feeds i
  obtain ⟨more, calls⟩ := sentCalls_prefix earlier later
  rw [← calls, published_append] at all
  obtain ⟨heard, rest, rfl, first, second⟩ := List.map_eq_append_iff.mp all.symm
  refine ⟨heard, rest, first.symm, ?_, hears⟩
  rw [← calls, published_append, List.map_append, first, second]

/-! ## Positions in ns-3 -/

variable {Coord : Type}

/-- After a run the gateway has placed every robot at the printed value of the latest
pose it published before the last message. -/
theorem positions_run {setting : Setting n Coord} (lawful : setting.Lawful)
    {rounds : List (Round n Coord)} (some : rounds ≠ []) {final : Coupled n Coord}
    (ran : Run.run (step setting) (Coupled.initial setting) rounds = .ok final) (i : Fin n) :
    final.gateway.positions i = Option.some
      (setting.printed (latest setting.origin i (sentCalls rounds)).x,
        setting.printed (latest setting.origin i (sentCalls rounds)).y,
        setting.printed (latest setting.origin i (sentCalls rounds)).z) := by
  rcases List.eq_nil_or_concat rounds with rfl | ⟨past, last, rfl⟩
  · exact absurd rfl some
  · rw [List.concat_eq_append] at ran ⊢
    obtain ⟨system, ranPast, stepped⟩ := Run.run_concat_ok ran
    have nonneg : 0 ≤ system.simNs := (tracks_run ranPast).1 ▸ timeAt_nonneg setting past.length
    obtain ⟨heard, -, -, -, serves⟩ :=
      serve_eq lawful nonneg system.gateway (callbacks system.node last.before) last
    obtain ⟨line, served, -⟩ := step_ok stepped
    rw [serves, Except.ok.injEq, Prod.mk.injEq] at served
    rw [← served.1, sentCalls_concat]
    exact congrArg (fun command => Option.some (Command.position command))
      (command_asked ranPast last i)

theorem latest_of_heard {origin : Pose ℝ} {i : Fin n} {calls : List (PoseCall n ℝ)}
    {heard : List (PoseStamped ℝ)} (all : published i calls = heard.map PoseStamped.pose)
    (some : heard ≠ []) : latest origin i calls = (heard.getLast some).pose := by
  rw [latest, all, List.getLast?_map, List.getLast?_eq_some_getLast some]
  rfl

theorem Swarm.Feeds.prefix {swarm : Swarm n} {earlier later : List (Round n ℝ)}
    (feeds : swarm.Feeds (earlier ++ later)) : swarm.Feeds earlier := by
  intro i
  obtain ⟨heard, rest, first, -, node, flown, among⟩ := feeds.earlier i
  exact ⟨heard, ⟨node, flown, (List.sublist_append_left heard rest).trans among⟩, first⟩

/-- The default pose is the corner of the square, and printing moves no coordinate of
the square by more than `rounding`. -/
structure Swarm.PrintsWell (swarm : Swarm n) (setting : Setting n ℝ) (rounding : ℝ) : Prop where
  origin : setting.origin.x = 0 ∧ setting.origin.y = 0
  close : ∀ value, 0 ≤ value → value ≤ swarm.area → |setting.printed value - value| ≤ rounding

/-- A point of the square, up to `rounding` on each axis. -/
def NearSquare (rounding area x y : ℝ) : Prop :=
  (-rounding ≤ x ∧ x ≤ area + rounding) ∧ (-rounding ≤ y ∧ y ≤ area + rounding)

theorem Swarm.PrintsWell.nearSquare {swarm : Swarm n} {setting : Setting n ℝ} {rounding : ℝ}
    (prints : swarm.PrintsWell setting rounding) {x y : ℝ} (inside : InSquare swarm.area x y) :
    NearSquare rounding swarm.area (setting.printed x) (setting.printed y) := by
  obtain ⟨⟨xLow, xHigh⟩, yLow, yHigh⟩ := inside
  have alongX := abs_le.mp (prints.close x xLow xHigh)
  have alongY := abs_le.mp (prints.close y yLow yHigh)
  refine ⟨⟨?_, ?_⟩, ?_, ?_⟩
  all_goals linarith [alongX.1, alongX.2, alongY.1, alongY.2]

/-- Two values in the square are printed as far apart as they are, up to rounding. -/
theorem Swarm.PrintsWell.apart {swarm : Swarm n} {setting : Setting n ℝ} {rounding : ℝ}
    (prints : swarm.PrintsWell setting rounding) {a b bound : ℝ} (aIn : 0 ≤ a ∧ a ≤ swarm.area)
    (bIn : 0 ≤ b ∧ b ≤ swarm.area) (near : |b - a| ≤ bound) :
    |setting.printed b - setting.printed a| ≤ bound + 2 * rounding := by
  have left := abs_le.mp (prints.close a aIn.1 aIn.2)
  have right := abs_le.mp (prints.close b bIn.1 bIn.2)
  have middle := abs_le.mp near
  apply abs_le.mpr
  constructor <;> linarith [left.1, left.2, right.1, right.2, middle.1, middle.2]

theorem latest_in_square {swarm : Swarm n} {setting : Setting n ℝ} {rounding : ℝ}
    (prints : swarm.PrintsWell setting rounding) {rounds : List (Round n ℝ)}
    (feeds : swarm.Feeds rounds) (i : Fin n) :
    InSquare swarm.area (latest setting.origin i (sentCalls rounds)).x
      (latest setting.origin i (sentCalls rounds)).y := by
  obtain ⟨heard, hears, all⟩ := feeds i
  by_cases none : heard = []
  · rw [latest_of_published_nil (by rw [all, none]; rfl), prints.origin.1, prints.origin.2]
    have area : 0 ≤ swarm.area := (swarm.drawn i 0).1.trans (swarm.drawn i 0).2
    exact ⟨⟨le_rfl, area⟩, le_rfl, area⟩
  · rw [latest_of_heard all none]
    exact hears.spec.2 _ (List.getLast_mem none)

/-- Whatever the robots draw and however their messages are delayed, lost and
interleaved with the steps: after every step each robot stands inside the square in
ns-3, up to the rounding of the printed coordinates. Once a robot has been heard, the
positions at two steps are those of two of its published poses, the later no older
than the earlier, and they differ on each axis by no more than the speed allows
between the two stamps, again up to rounding. -/
theorem swarm_seen_in_arena (setting : Setting n ℝ) (lawful : setting.Lawful) (swarm : Swarm n)
    (rounding : ℝ) (prints : swarm.PrintsWell setting rounding) (rounds : List (Round n ℝ))
    (feeds : swarm.Feeds rounds) (final : Coupled n ℝ)
    (ran : Run.run (step setting) (Coupled.initial setting) rounds = .ok final) :
    (∀ earlier later, rounds = earlier ++ later → earlier ≠ [] →
      ∃ system, Run.run (step setting) (Coupled.initial setting) earlier = .ok system ∧
        ∀ i, ∃ x y z, system.gateway.positions i = some (x, y, z) ∧
          NearSquare rounding swarm.area x y) ∧
      ∀ earlier between later i, rounds = earlier ++ between ++ later →
        published i (sentCalls earlier) ≠ [] →
        ∃ first second, Run.run (step setting) (Coupled.initial setting) earlier = .ok first ∧
          Run.run (step setting) (Coupled.initial setting) (earlier ++ between) = .ok second ∧
          ∃ node p q, swarm.Flown i node ∧ p ∈ node.published ∧ q ∈ node.published ∧
            Reaches swarm.speed p q ∧
            first.gateway.positions i = some (setting.printed p.pose.x, setting.printed p.pose.y,
              setting.printed p.pose.z) ∧
            second.gateway.positions i = some (setting.printed q.pose.x, setting.printed q.pose.y,
              setting.printed q.pose.z) ∧
            |setting.printed q.pose.x - setting.printed p.pose.x| ≤
              swarm.speed * Robot.seconds (q.stamp - p.stamp) + 2 * rounding ∧
            |setting.printed q.pose.y - setting.printed p.pose.y| ≤
              swarm.speed * Robot.seconds (q.stamp - p.stamp) + 2 * rounding := by
  constructor
  · rintro earlier later rfl some
    obtain ⟨system, ranEarlier, -⟩ := Run.run_append_ok ran
    refine ⟨system, ranEarlier, fun i => ⟨_, _, _, positions_run lawful some ranEarlier i, ?_⟩⟩
    exact prints.nearSquare (latest_in_square prints feeds.prefix i)
  · rintro earlier between later i rfl heardSome
    obtain ⟨second, ranBetween, -⟩ := Run.run_append_ok ran
    obtain ⟨first, ranEarlier, -⟩ := Run.run_append_ok ranBetween
    obtain ⟨heard, rest, firstAll, secondAll, hears⟩ := feeds.prefix.earlier i
    have heardPoses : heard ≠ [] := by
      rintro rfl
      exact heardSome firstAll
    have allPoses : heard ++ rest ≠ [] := List.append_ne_nil_of_left_ne_nil heardPoses rest
    have nonempty : earlier ≠ [] := by
      rintro rfl
      exact heardSome rfl
    have wholeNonempty : earlier ++ between ≠ [] := List.append_ne_nil_of_left_ne_nil nonempty _
    obtain ⟨ordered, inSquare⟩ := hears.spec
    obtain ⟨node, flown, among⟩ := hears
    have pIn : heard.getLast heardPoses ∈ heard ++ rest :=
      List.mem_append_left rest (List.getLast_mem heardPoses)
    have qIn : (heard ++ rest).getLast allPoses ∈ heard ++ rest := List.getLast_mem allPoses
    have reaches : Reaches swarm.speed (heard.getLast heardPoses)
        ((heard ++ rest).getLast allPoses) := by
      by_cases none : rest = []
      · subst none
        simp only [List.append_nil]
        exact reaches_self _ _
      · rw [List.getLast_append_of_ne_nil allPoses none]
        exact (List.pairwise_append.mp ordered).2.2 _ (List.getLast_mem heardPoses) _
          (List.getLast_mem none)
    obtain ⟨px, py⟩ := inSquare _ pIn
    obtain ⟨qx, qy⟩ := inSquare _ qIn
    obtain ⟨alongX, alongY⟩ := abs_le_euclid
      (((heard ++ rest).getLast allPoses).pose.x - (heard.getLast heardPoses).pose.x)
      (((heard ++ rest).getLast allPoses).pose.y - (heard.getLast heardPoses).pose.y)
    refine ⟨first, second, ranEarlier, ranBetween, node, _, _, flown, among.subset pIn,
      among.subset qIn, reaches, ?_, ?_, ?_, ?_⟩
    · rw [positions_run lawful nonempty ranEarlier i, latest_of_heard firstAll heardPoses]
    · rw [positions_run lawful wholeNonempty ranBetween i, latest_of_heard secondAll allPoses]
    · exact prints.apart px qx (alongX.trans reaches.2)
    · exact prints.apart py qy (alongY.trans reaches.2)

/-! ## A robot on its way -/

/-- A coordinate in tenths of a metre, rounded down. -/
noncomputable def tenths (value : ℝ) : Int := ⌊value * ((10 : Int) : ℝ)⌋

/-- A coordinate with one digit after the point. -/
noncomputable def printTenths (value : ℝ) : Text :=
  ['.'].intercalate [Decimal.ofInt (tenths value / 10), Decimal.ofInt (tenths value % 10)]

/-- The tenths read back. -/
noncomputable def readTenths (text : Text) : Except Decimal.ConversionError ℝ :=
  match text.splitOn '.' with
  | [whole, digit] =>
      match Decimal.strtoll whole, Decimal.strtoll digit with
      | some metres, some rest => .ok (((metres * 10 + rest : Int) : ℝ) / ((10 : Int) : ℝ))
      | _, _ => .error .invalidArgument
  | _ => .error .invalidArgument

/-- Two robots with coordinates in tenths of a metre and steps of a second. -/
noncomputable def inTenths : Setting 2 ℝ where
  params := ⟨1000, 0, printTenths⟩
  config := ⟨0, fun _ => true, readTenths⟩
  base := textBase
  origin := ⟨0, 0, 0, 0, 0, 0, 1⟩
  printed value := (tenths value : ℝ) / ((10 : Int) : ℝ)

theorem readTenths_printTenths (value : ℝ) :
    readTenths (printTenths value) = .ok (inTenths.printed value) := by
  have noDot : ∀ field ∈ [Decimal.ofInt (tenths value / 10), Decimal.ofInt (tenths value % 10)],
      '.' ∉ field := by
    intro field member
    simp only [List.mem_cons, List.not_mem_nil, or_false] at member
    rcases member with rfl | rfl
    · exact Decimal.not_mem_ofInt _ (by decide) (by decide)
    · exact Decimal.not_mem_ofInt _ (by decide) (by decide)
  have cut := List.splitOn_intercalate '.' noDot (List.cons_ne_nil _ _)
  have whole : tenths value / 10 * 10 + tenths value % 10 = tenths value := by omega
  rw [readTenths, printTenths, cut]
  simp only [Decimal.strtoll_ofInt, whole, inTenths]

theorem plain_printTenths (value : ℝ) : Plain (printTenths value) := by
  have printed : printTenths value =
      Decimal.ofInt (tenths value / 10) ++ '.' :: Decimal.ofInt (tenths value % 10) := by
    simp [printTenths, List.intercalate]
  have other : ∀ c : Char, c.isDigit = false → c ≠ '-' → c ≠ '.' → c ∉ printTenths value := by
    intro c notDigit notSign notDot
    rw [printed, List.mem_append, List.mem_cons]
    rintro (whole | dot | digit)
    · exact Decimal.not_mem_ofInt _ notDigit notSign whole
    · exact notDot dot
    · exact Decimal.not_mem_ofInt _ notDigit notSign digit
  refine ⟨?_, other ' ' ?_ ?_ ?_, other '\r' ?_ ?_ ?_, other '\n' ?_ ?_ ?_⟩
  · simp [printed]
  all_goals decide

theorem inTenths_lawful : inTenths.Lawful where
  base := textBase_lawful
  prints := ⟨plain_printTenths, readTenths_printTenths⟩
  mobility _ := rfl
  fewRobots := by decide
  shortStep := by decide

/-- The leader goes out and back; the follower draws nothing but five metres. -/
noncomputable def pairDraws (i : Fin 2) (k : Nat) : ℝ :=
  if i = leader then outAndBack k else ((5 : Int) : ℝ)

/-- Two ticks of two robots on five metres. -/
noncomputable def pair : Swarm 2 where
  area := ((5 : Int) : ℝ)
  speed := 1
  draws := pairDraws
  start _ := 0
  readings _ := [1000000000, 2000000000]
  speedNonneg := zero_le_one
  drawn i k := by
    unfold pairDraws
    split
    · exact outAndBack_inside k
    · norm_num
  forward _ := by decide

theorem pair_printsWell : pair.PrintsWell inTenths (1 / 10) where
  origin := ⟨rfl, rfl⟩
  close := by
    intro value _ _
    have below := Int.floor_le (value * ((10 : Int) : ℝ))
    have above := Int.lt_floor_add_one (value * ((10 : Int) : ℝ))
    simp only [inTenths, tenths]
    push_cast at below above ⊢
    apply abs_le.mpr
    constructor <;> linarith

/-- Two messages of the leader arrive before one step each; the follower is not heard. -/
def heardTwice (first second : Pose ℝ) : List (Round 2 ℝ) :=
  [⟨[(leader, first)], [], fun _ => none, []⟩, ⟨[(leader, second)], [], fun _ => none, []⟩]

theorem pair_feeds :
    pair.Feeds (heardTwice (poseAt (3 / 5) (4 / 5)) (poseAt (6 / 5) (8 / 5))) := by
  intro i
  by_cases same : i = leader
  · subst same
    have flown : pair.Flown leader _ := reached_underway
    exact ⟨_, ⟨_, flown, List.Sublist.refl _⟩, rfl⟩
  · obtain ⟨node, flown, -⟩ := exists_reached pair.speedNonneg (pair.drawn i) (pair.forward i)
    refine ⟨[], ⟨node, flown, List.nil_sublist _⟩, ?_⟩
    simp [heardTwice, sentCalls, published, Ne.symm same]

theorem printed_of_tenths {value : ℝ} (count : Int) (whole : value * 10 = count) :
    inTenths.printed value = value := by
  have inside : tenths value = count := by
    rw [tenths, Int.cast_ofNat, whole, Int.floor_intCast]
  show (tenths value : ℝ) / ((10 : Int) : ℝ) = value
  rw [inside, Int.cast_ofNat, ← whole]
  exact mul_div_cancel_right₀ value (by norm_num)

/-- The leader is seen where it has gone, one metre further after the second step. -/
theorem swarm_seen_in_arena_pair :
    ∃ first final,
      Run.run (step inTenths) (Coupled.initial inTenths)
        ((heardTwice (poseAt (3 / 5) (4 / 5)) (poseAt (6 / 5) (8 / 5))).take 1) =
          .ok first ∧
      Run.run (step inTenths) (Coupled.initial inTenths)
        (heardTwice (poseAt (3 / 5) (4 / 5)) (poseAt (6 / 5) (8 / 5))) = .ok final ∧
      first.gateway.positions leader = some (3 / 5, 4 / 5, 1 / 2) ∧
      final.gateway.positions leader = some (6 / 5, 8 / 5, 1 / 2) ∧
      NearSquare (1 / 10) 5 (6 / 5) (8 / 5) ∧
      ∃ p q : PoseStamped ℝ, Reaches 1 p q ∧
        |(6 / 5 : ℝ) - 3 / 5| ≤ Robot.seconds (q.stamp - p.stamp) + 1 / 5 := by
  have schedule : Schedule inTenths
      (heardTwice (poseAt (3 / 5) (4 / 5)) (poseAt (6 / 5) (8 / 5))) := by
    apply schedule_of_getElem
    intro k inside arrival member
    match k, inside with
    | 0, _ => exact absurd member List.not_mem_nil
    | 1, _ => exact absurd member List.not_mem_nil
  obtain ⟨final, ran⟩ := lockstep_total inTenths_lawful schedule
  obtain ⟨steps, apart⟩ := swarm_seen_in_arena inTenths inTenths_lawful pair (1 / 10)
    pair_printsWell _ pair_feeds final ran
  obtain ⟨first, second, ranFirst, ranSecond, node, p, q, -, -, -, reaches, atP, atQ, alongX, -⟩ :=
    apart [⟨[(leader, poseAt (3 / 5) (4 / 5))], [], fun _ => none, []⟩]
      [⟨[(leader, poseAt (6 / 5) (8 / 5))], [], fun _ => none, []⟩] [] leader rfl
      (List.cons_ne_nil _ _)
  obtain ⟨system, ranSystem, seen⟩ := steps _ [] (List.append_nil _).symm (List.cons_ne_nil _ _)
  obtain rfl : system = final := Except.ok.inj (ranSystem.symm.trans ran)
  obtain rfl : second = system := Except.ok.inj (ranSecond.symm.trans ran)
  have firstAt : first.gateway.positions leader = some (3 / 5, 4 / 5, 1 / 2) := by
    rw [positions_run inTenths_lawful (List.cons_ne_nil _ _) ranFirst leader]
    show some (inTenths.printed (3 / 5), inTenths.printed (4 / 5),
      inTenths.printed (↑(2 : Int))⁻¹) = _
    rw [printed_of_tenths 6 (by norm_num), printed_of_tenths 8 (by norm_num),
      printed_of_tenths 5 (by norm_num)]
    norm_num
  have secondAt : second.gateway.positions leader = some (6 / 5, 8 / 5, 1 / 2) := by
    rw [positions_run inTenths_lawful (List.cons_ne_nil _ _) ran leader]
    show some (inTenths.printed (6 / 5), inTenths.printed (8 / 5),
      inTenths.printed (↑(2 : Int))⁻¹) = _
    rw [printed_of_tenths 12 (by norm_num), printed_of_tenths 16 (by norm_num),
      printed_of_tenths 5 (by norm_num)]
    norm_num
  obtain ⟨x, y, z, placed, near⟩ := seen leader
  rw [secondAt, Option.some.injEq, Prod.mk.injEq, Prod.mk.injEq] at placed atQ
  rw [firstAt, Option.some.injEq, Prod.mk.injEq] at atP
  obtain ⟨rfl, rfl, -⟩ := placed
  rw [← atP.1, ← atQ.1] at alongX
  have moved : |(6 / 5 : ℝ) - 3 / 5| ≤ Robot.seconds (q.stamp - p.stamp) + 1 / 5 := by
    apply alongX.trans_eq
    show 1 * Robot.seconds (q.stamp - p.stamp) + 2 * (1 / 10) = _
    ring
  exact ⟨first, second, ranFirst, ran, firstAt, secondAt, by simpa [pair] using near, p, q, reaches,
    moved⟩

end Sidewalk.Cosim
