import Mathlib.Data.List.MinMax
import Sidewalk.Analysis.TruePrr
import Sidewalk.Foundation.Windows
import Sidewalk.Robot.Arena

/-!
Owns the model of `animate.py`: the nodes it reads from the packet table, the random
waypoint tracks it draws for them, and the frames with a line for each delivery. Over
the packets of a run a delivery is drawn in the frame of its thirtieth of a second,
between the tracks of its sender and its receiver, unless it is so close to the ends
of the thirtieth that rounding decides.

Does not own SQLite, the figure and the video writer, nor how NumPy draws uniform
values: `draws k` is the `k`-th of them. Times are computed in rounded arithmetic and
tracks in exact; addresses are ASCII.
-/

set_option autoImplicit false

namespace Sidewalk.Analysis.Animation

open Sidewalk.Foundation Sidewalk.Protocol Sidewalk.Robot

/-- What the script can raise. -/
inductive AnimationError where
  | valueError
  | indexError
deriving DecidableEq, Repr

/-! ## Nodes -/

/-- `text` without the white space around it. -/
def strip (text : Text) : Text :=
  ((text.dropWhile Decimal.isSpace).reverse.dropWhile Decimal.isSpace).reverse

/-- `int(text)`: white space around it, one sign, and underscores between digits. -/
def pyInt (text : Text) : Except AnimationError Int :=
  let body := strip text
  let unsigned := body.dropWhile fun c => c = '+' || c = '-'
  if (unsigned.splitOn '_').all fun group => !group.isEmpty && group.all Char.isDigit then
    match Decimal.strtoll (body.filter fun c => c ≠ '_') with
    | some value => .ok value
    | none => .error .valueError
  else .error .valueError

/-- `int(ip.split('.')[-1]) - 2`. -/
def srcNode (ip : Text) : Except AnimationError Int := do
  let octet ← pyInt ((ip.splitOn '.').getLastD [])
  return octet - 2

/-- A row of `p` with the columns `src_node` and `dst_node`. -/
structure Message where
  timeSec : ℚ
  src : Int
  dst : Nat
deriving DecidableEq, Repr

/-- The row of a received packet. -/
def messageOf (row : PktRow Text) : Except AnimationError Message := do
  let src ← srcNode row.srcIp
  return ⟨row.timeSec, src, row.nodeId⟩

/-- `values[index]`, counted from the end when negative. -/
def pyIndex {α : Type} (values : List α) (index : Int) : Except AnimationError α :=
  let place := if index < 0 then index + values.length else index
  if place < 0 then .error .indexError
  else
    match values[place.toNat]? with
    | some value => .ok value
    | none => .error .indexError

/-! ## Tracks -/

/-- `curr_pos[r]` and `dest_pos[r]`. -/
structure Walker (K : Type) where
  x : K
  y : K
  destX : K
  destY : K

/-- `area`. -/
def area : ℚ := 50

/-- `speed`. -/
def speed : ℚ := 3 / 2

/-- `dt` before it is rounded. -/
def dt : ℚ := 1 / 30

variable {K : Type} [Field K] [LinearOrder K]

/-- One turn of the loop for one robot, after `drawn` random values. -/
def Walker.turn (norm : K → K → K) (draws : Nat → K) (drawn : Nat) (walker : Walker K) :
    Walker K × Nat :=
  let dx := walker.destX - walker.x
  let dy := walker.destY - walker.y
  let dist := norm dx dy
  let move : K := ((speed * dt : ℚ) : K)
  if dist < move then
    ({ walker with destX := draws drawn, destY := draws (drawn + 1) }, drawn + 2)
  else
    let scale := max dist ((1 / 1000000 : ℚ) : K)
    ({ walker with x := walker.x + dx / scale * move, y := walker.y + dy / scale * move }, drawn)

/-- One turn of the loop: the robots that have reached their destination draw the next
in order of their rows. -/
def turnAll (norm : K → K → K) (draws : Nat → K) : Nat → List (Walker K) → List (Walker K) × Nat
  | drawn, [] => ([], drawn)
  | drawn, walker :: walkers =>
      let (walker, drawn) := walker.turn norm draws drawn
      let (walkers, drawn) := turnAll norm draws drawn walkers
      (walker :: walkers, drawn)

/-- `curr_pos` and `dest_pos` before the loop. -/
def startWalkers (draws : Nat → K) (numRobots : Nat) : List (Walker K) :=
  (List.range numRobots).map fun r =>
    ⟨draws (2 * r), draws (2 * r + 1), draws (2 * numRobots + 2 * r),
      draws (2 * numRobots + 2 * r + 1)⟩

/-- The robots after `count` turns, and the number of random values drawn. -/
def walkersAfter (norm : K → K → K) (draws : Nat → K) (numRobots : Nat) :
    Nat → List (Walker K) × Nat
  | 0 => (startWalkers draws numRobots, 4 * numRobots)
  | count + 1 =>
      let (walkers, drawn) := walkersAfter norm draws numRobots count
      turnAll norm draws drawn walkers

/-- `positions[frame]`. -/
def positions (norm : K → K → K) (draws : Nat → K) (numRobots frame : Nat) : List (K × K) :=
  (walkersAfter norm draws numRobots (frame + 1)).1.map fun walker => (walker.x, walker.y)

/-! ## Frames -/

/-- What a frame shows: where the robots are, and the lines. -/
structure Frame (K : Type) where
  offsets : List (K × K)
  lines : List ((K × K) × (K × K))

/-- The line of a delivery. -/
def drawLine {Point : Type} (pos : List Point) (msg : Message) :
    Except AnimationError (Point × Point) := do
  let source ← pyIndex pos msg.src
  let target ← pyIndex pos msg.dst
  return (source, target)

/-- `end_time`, for times read from the table. -/
def endTime (round : ℚ → ℚ) (startTime last : ℚ) : ℚ := min last (round (startTime + 5))

/-- `frames`. -/
def frames (round : ℚ → ℚ) (startTime endTime : ℚ) : Nat :=
  ⌊round (round (endTime - startTime) / round dt)⌋₊

/-- `t_start`. -/
def tStart (round : ℚ → ℚ) (startTime : ℚ) (frame : Nat) : ℚ :=
  round (startTime + round (frame * round dt))

/-- `t_end`. -/
def tEnd (round : ℚ → ℚ) (startTime : ℚ) (frame : Nat) : ℚ :=
  round (tStart round startTime frame + round dt)

/-- The delivery is in the frame. -/
def InFrame (round : ℚ → ℚ) (startTime : ℚ) (frame : Nat) (timeSec : ℚ) : Prop :=
  Windows.InWindow (tStart round startTime) (tEnd round startTime) frame timeSec

instance (round : ℚ → ℚ) (startTime : ℚ) (frame : Nat) (timeSec : ℚ) :
    Decidable (InFrame round startTime frame timeSec) :=
  inferInstanceAs (Decidable (Windows.InWindow _ _ _ _))

/-- `update`, with `positions[frame]`. -/
def update (round : ℚ → ℚ) (pos : List (K × K)) (p : List Message) (startTime : ℚ)
    (frame : Nat) : Except AnimationError (Frame K) := do
  let msgs := p.filter fun msg => InFrame round startTime frame msg.timeSec
  let lines ← msgs.mapM (drawLine pos)
  return ⟨pos, lines⟩

/-- The script. An empty table makes `int` fail on NaN. -/
def animate (round : ℚ → ℚ) (norm : K → K → K) (draws : Nat → K) (p : List (PktRow Text)) :
    Except AnimationError (List (Frame K)) := do
  let messages ← (rxRows p).mapM messageOf
  match (messages.map Message.src).max?, (messages.map fun msg => (msg.dst : Int)).max?,
      (messages.map Message.timeSec).min?, (messages.map Message.timeSec).max? with
  | some src, some dst, some startTime, some last =>
      let numRobots := (max src dst + 1).toNat
      (List.range (frames round startTime (endTime round startTime last))).mapM fun frame =>
        update round (positions norm draws numRobots frame) messages startTime frame
  | _, _, _, _ => .error .valueError

/-! ## Node ids -/

theorem pyInt_ofNat (value : Nat) : pyInt (Decimal.ofNat value) = .ok value := by
  have digits : ∀ c ∈ Decimal.ofNat value, c.isDigit = true := fun c member =>
    Decimal.isDigit_of_mem_ofNat member
  have stripped : strip (Decimal.ofNat value) = Decimal.ofNat value := by
    unfold strip
    rw [Decimal.dropWhile_digits Decimal.isSpace_of_isDigit digits,
      Decimal.dropWhile_digits Decimal.isSpace_of_isDigit fun c member =>
        digits c (List.mem_reverse.mp member), List.reverse_reverse]
  have unsigned : (Decimal.ofNat value).dropWhile (fun c => c = '+' || c = '-') =
      Decimal.ofNat value := by
    apply Decimal.dropWhile_digits _ digits
    intro c digit
    have plus : c ≠ '+' := by
      rintro rfl
      exact absurd digit (by decide)
    have minus : c ≠ '-' := by
      rintro rfl
      exact absurd digit (by decide)
    simp [plus, minus]
  have plain : '_' ∉ Decimal.ofNat value := Decimal.not_mem_ofNat value (by decide)
  have kept : (Decimal.ofNat value).filter (fun c => c ≠ '_') = Decimal.ofNat value := by
    apply List.filter_eq_self.mpr
    intro c member
    simpa using ne_of_mem_of_not_mem member plain
  unfold pyInt
  simp only [stripped, unsigned, List.splitOn_eq_singleton plain, kept, Decimal.strtoll_ofNat]
  rw [if_pos]
  simpa [Decimal.ofNat_ne_nil] using digits

/-- The node id read back from an address. -/
theorem srcNode_address (net : Text) (i : Nat) :
    srcNode (net ++ '.' :: Decimal.ofNat (i + 2)) = .ok i := by
  have plain : '.' ∉ Decimal.ofNat (i + 2) := Decimal.not_mem_ofNat _ (by decide)
  unfold srcNode
  rw [List.splitOn_append_cons_self, List.splitOn_eq_singleton plain, List.getLastD_concat,
    pyInt_ofNat]
  show Except.ok (((i + 2 : Nat) : Int) - 2) = Except.ok (i : Int)
  congr 1
  omega

/-! ## Tracks in the plane -/

/-- Where a robot is and where it goes lie in the drawn area. -/
structure Walker.InArea (walker : Walker ℝ) : Prop where
  position : InSquare (area : ℝ) walker.x walker.y
  destination : InSquare (area : ℝ) walker.destX walker.destY

/-- From one frame to the next a robot stands or moves by `speed * dt`. -/
def Moves (p q : ℝ × ℝ) : Prop :=
  euclid (q.1 - p.1) (q.2 - p.2) = 0 ∨ euclid (q.1 - p.1) (q.2 - p.2) = ((speed * dt : ℚ) : ℝ)

theorem move_eq : ((speed * dt : ℚ) : ℝ) = 1 / 20 := by norm_num [speed, dt]

variable {draws : Nat → ℝ}

theorem turn_inArea (drawn : ∀ k, 0 ≤ draws k ∧ draws k ≤ (area : ℝ)) {walker : Walker ℝ}
    (inArea : walker.InArea) (used : Nat) :
    (walker.turn euclid draws used).1.InArea ∧
      Moves (walker.x, walker.y)
        ((walker.turn euclid draws used).1.x, (walker.turn euclid draws used).1.y) := by
  have same : euclid (walker.destX - walker.x) (walker.destY - walker.y) =
      dist (point walker.x walker.y) (point walker.destX walker.destY) := (dist_point _ _ _ _).symm
  by_cases reached : euclid (walker.destX - walker.x) (walker.destY - walker.y) <
      ((speed * dt : ℚ) : ℝ)
  · simp only [Walker.turn, if_pos reached]
    refine ⟨⟨inArea.position, drawn used, drawn (used + 1)⟩, Or.inl ?_⟩
    simp [euclid]
  · have within := not_lt.mp reached
    have positive : (0 : ℝ) < ((speed * dt : ℚ) : ℝ) := by
      rw [move_eq]
      norm_num
    have scale : max (euclid (walker.destX - walker.x) (walker.destY - walker.y))
        ((1 / 1000000 : ℚ) : ℝ) = euclid (walker.destX - walker.x) (walker.destY - walker.y) := by
      apply max_eq_left
      apply le_trans _ within
      rw [move_eq]
      norm_num
    simp only [Walker.turn, if_neg reached, scale]
    rw [same] at within ⊢
    have apart := lt_of_lt_of_le positive within
    set move : ℝ := ((speed * dt : ℚ) : ℝ)
    set way := dist (point walker.x walker.y) (point walker.destX walker.destY)
    have moved : point (walker.x + (walker.destX - walker.x) / way * move)
        (walker.y + (walker.destY - walker.y) / way * move) =
          Pursuit.stepTowards (point walker.x walker.y) (point walker.destX walker.destY) move := by
      rw [Pursuit.stepTowards_of_le apart within, point_add_smul]
      congr 1 <;> ring
    constructor
    · refine ⟨?_, inArea.destination⟩
      apply point_mem_square.mp
      rw [moved]
      exact Pursuit.stepTowards_mem (convex_square _) (point_mem_square.mpr inArea.position)
        (point_mem_square.mpr inArea.destination) positive.le
    · right
      rw [← dist_point, moved, dist_comm]
      exact Pursuit.dist_stepTowards_of_le positive.le within

theorem turnAll_inArea (drawn : ∀ k, 0 ≤ draws k ∧ draws k ≤ (area : ℝ)) {walkers : List (Walker ℝ)}
    (inArea : ∀ walker ∈ walkers, walker.InArea) (used : Nat) :
    (∀ walker ∈ (turnAll euclid draws used walkers).1, walker.InArea) ∧
      List.Forall₂ (fun before after : Walker ℝ => Moves (before.x, before.y) (after.x, after.y))
        walkers (turnAll euclid draws used walkers).1 := by
  induction walkers generalizing used with
  | nil => exact ⟨by simp [turnAll], List.Forall₂.nil⟩
  | cons walker walkers inductionHypothesis =>
      obtain ⟨first, others⟩ := List.forall_mem_cons.mp inArea
      obtain ⟨firstIn, firstMoves⟩ := turn_inArea drawn first used
      obtain ⟨othersIn, othersMove⟩ :=
        inductionHypothesis others (walker.turn euclid draws used).2
      exact ⟨List.forall_mem_cons.mpr ⟨firstIn, othersIn⟩, List.Forall₂.cons firstMoves othersMove⟩

theorem walkersAfter_inArea (drawn : ∀ k, 0 ≤ draws k ∧ draws k ≤ (area : ℝ)) (numRobots : Nat)
    (count : Nat) :
    (∀ walker ∈ (walkersAfter euclid draws numRobots count).1, walker.InArea) ∧
      (walkersAfter euclid draws numRobots count).1.length = numRobots := by
  induction count with
  | zero =>
      constructor
      · intro walker member
        obtain ⟨r, -, rfl⟩ := List.mem_map.mp member
        exact ⟨⟨drawn _, drawn _⟩, drawn _, drawn _⟩
      · simp [walkersAfter, startWalkers]
  | succ count inductionHypothesis =>
      obtain ⟨inArea, length⟩ := inductionHypothesis
      obtain ⟨nextIn, moves⟩ :=
        turnAll_inArea drawn inArea (walkersAfter euclid draws numRobots count).2
      exact ⟨nextIn, moves.length_eq.symm.trans length⟩

theorem positions_length (drawn : ∀ k, 0 ≤ draws k ∧ draws k ≤ (area : ℝ)) (numRobots frame : Nat) :
    (positions euclid draws numRobots frame).length = numRobots := by
  rw [positions, List.length_map]
  exact (walkersAfter_inArea drawn numRobots (frame + 1)).2

theorem positions_inSquare (drawn : ∀ k, 0 ≤ draws k ∧ draws k ≤ (area : ℝ))
    (numRobots frame : Nat) :
    ∀ pos ∈ positions euclid draws numRobots frame, InSquare (area : ℝ) pos.1 pos.2 := by
  intro pos member
  obtain ⟨walker, inFrame, rfl⟩ := List.mem_map.mp member
  exact ((walkersAfter_inArea drawn numRobots (frame + 1)).1 walker inFrame).position

theorem positions_move (drawn : ∀ k, 0 ≤ draws k ∧ draws k ≤ (area : ℝ)) (numRobots frame : Nat) :
    List.Forall₂ Moves (positions euclid draws numRobots frame)
      (positions euclid draws numRobots (frame + 1)) := by
  unfold positions
  rw [List.forall₂_map_left_iff, List.forall₂_map_right_iff]
  exact (turnAll_inArea drawn (walkersAfter_inArea drawn numRobots (frame + 1)).1 _).2

/-! ## Lines -/

theorem pyIndex_ok {α : Type} {values : List α} {index : Int} (nonneg : 0 ≤ index)
    (below : index.toNat < values.length) :
    ∃ value, pyIndex values index = .ok value ∧ values[index.toNat]? = some value := by
  have place : ¬ index < 0 := by omega
  refine ⟨values[index.toNat], ?_, List.getElem?_eq_getElem below⟩
  simp [pyIndex, place, List.getElem?_eq_getElem below]

theorem drawLine_ok {Point : Type} (pos : List Point) (msg : Message) (nonneg : 0 ≤ msg.src)
    (src : msg.src.toNat < pos.length) (dst : msg.dst < pos.length) :
    ∃ line, drawLine pos msg = .ok line ∧
      pos[msg.src.toNat]? = some line.1 ∧ pos[msg.dst]? = some line.2 := by
  obtain ⟨source, readSource, sourceAt⟩ := pyIndex_ok nonneg src
  obtain ⟨target, readTarget, targetAt⟩ := pyIndex_ok (Int.natCast_nonneg msg.dst)
    (show (msg.dst : Int).toNat < pos.length from dst)
  refine ⟨(source, target), ?_, sourceAt, by simpa using targetAt⟩
  simp only [drawLine, readSource, readTarget, bind, Except.bind, pure, Except.pure]

/-! ## The packets of a run -/

variable {N : Nat}

/-- Robot `i` is node `i`, and its address ends with `i + 2`. -/
structure Numbered (robots : Robots N Text) : Prop where
  nodeId : ∀ i, robots.nodeId i = i
  address : ∀ i : Fin N, ∃ net, robots.ip i = net ++ '.' :: Decimal.ofNat (i + 2)

/-- The received packets were sent and received by robots. -/
def Received (robots : Robots N Text) (p : List (PktRow Text)) : Prop :=
  ∀ rx ∈ rxRows p, (∃ i, rx.srcIp = robots.ip i) ∧ ∃ j, rx.nodeId = robots.nodeId j

/-- The columns of a row, once its address is known to be readable. -/
def columns (row : PktRow Text) : Message where
  timeSec := row.timeSec
  src := (srcNode row.srcIp).toOption.getD 0
  dst := row.nodeId

variable {robots : Robots N Text} {p : List (PktRow Text)}

theorem srcNode_robot (numbered : Numbered robots) (i : Fin N) :
    srcNode (robots.ip i) = .ok (i : Nat) := by
  obtain ⟨net, address⟩ := numbered.address i
  rw [address, srcNode_address]

theorem columns_src (numbered : Numbered robots) {row : PktRow Text} {i : Fin N}
    (sender : row.srcIp = robots.ip i) : (columns row).src = (i : Nat) := by
  rw [columns, sender, srcNode_robot numbered]
  rfl

theorem messages_eq (numbered : Numbered robots) (received : Received robots p) :
    (rxRows p).mapM messageOf = .ok ((rxRows p).map columns) := by
  apply KeyedTable.mapM_ok
  intro row member
  obtain ⟨⟨i, sender⟩, -⟩ := received row member
  have read := srcNode_robot numbered i
  rw [← sender] at read
  simp only [messageOf, columns, read, bind, Except.bind, pure, Except.pure]
  rfl

/-- A robot that sent or received a packet of the table. -/
def Seen (robots : Robots N Text) (p : List (PktRow Text)) (i : Fin N) : Prop :=
  ∃ rx ∈ rxRows p, rx.srcIp = robots.ip i ∨ rx.nodeId = robots.nodeId i

/-- The script draws the robots up to the last one seen. -/
theorem numRobots_greatest (numbered : Numbered robots) (received : Received robots p)
    {src dst : Int}
    (srcMax : (((rxRows p).map columns).map Message.src).max? = some src)
    (dstMax : (((rxRows p).map columns).map fun msg => (msg.dst : Int)).max? = some dst) :
    IsGreatest {count : Nat | ∃ i : Fin N, Seen robots p i ∧ i.val + 1 = count}
      (max src dst + 1).toNat := by
  obtain ⟨srcIn, srcLe⟩ := List.max?_eq_some_iff.mp srcMax
  obtain ⟨dstIn, dstLe⟩ := List.max?_eq_some_iff.mp dstMax
  rw [List.map_map] at srcIn srcLe dstIn dstLe
  obtain ⟨srcRow, srcMember, srcEq⟩ := List.mem_map.mp srcIn
  obtain ⟨dstRow, dstMember, dstEq⟩ := List.mem_map.mp dstIn
  obtain ⟨⟨i, sender⟩, -⟩ := received srcRow srcMember
  obtain ⟨-, ⟨j, receiver⟩⟩ := received dstRow dstMember
  have srcIs : src = (i : Nat) := srcEq.symm.trans (columns_src numbered sender)
  have dstIs : dst = (j : Nat) := by
    rw [← dstEq, ← numbered.nodeId j, ← receiver]
    rfl
  constructor
  · rcases le_total src dst with below | below
    · refine ⟨j, ⟨dstRow, dstMember, Or.inr receiver⟩, ?_⟩
      rw [max_eq_right below]
      omega
    · refine ⟨i, ⟨srcRow, srcMember, Or.inl sender⟩, ?_⟩
      rw [max_eq_left below]
      omega
  · rintro count ⟨k, ⟨row, member, seen⟩, rfl⟩
    have srcBound : (columns row).src ≤ src := srcLe _ (List.mem_map.mpr ⟨row, member, rfl⟩)
    have dstBound : (row.nodeId : Int) ≤ dst := dstLe _ (List.mem_map.mpr ⟨row, member, rfl⟩)
    have bound : (k : Int) ≤ max src dst := by
      rcases seen with sender | receiver
      · rw [columns_src numbered sender] at srcBound
        exact srcBound.trans (le_max_left _ _)
      · rw [receiver, numbered.nodeId k] at dstBound
        exact dstBound.trans (le_max_right _ _)
    omega

/-- The line of a packet joins its sender and its receiver. -/
def Joins (robots : Robots N Text) (offsets : List (ℝ × ℝ)) (rx : PktRow Text)
    (line : (ℝ × ℝ) × (ℝ × ℝ)) : Prop :=
  ∃ i j : Fin N, rx.srcIp = robots.ip i ∧ rx.nodeId = robots.nodeId j ∧
    offsets[i.val]? = some line.1 ∧ offsets[j.val]? = some line.2

/-- What a frame shows: the robots where they are, and a line for each packet of its
window, in the order of the table. -/
def Shows (robots : Robots N Text) (p : List (PktRow Text)) (round : ℚ → ℚ) (start : ℚ)
    (pos : List (ℝ × ℝ)) (k : Nat) (frame : Frame ℝ) : Prop :=
  frame.offsets = pos ∧ List.Forall₂ (Joins robots pos)
    ((rxRows p).filter fun rx => InFrame round start k rx.timeSec) frame.lines

theorem update_ok (numbered : Numbered robots) (received : Received robots p)
    {pos : List (ℝ × ℝ)} (room : ∀ i, Seen robots p i → i.val < pos.length) (round : ℚ → ℚ)
    (start : ℚ) (k : Nat) :
    ∃ frame, update round pos ((rxRows p).map columns) start k = .ok frame ∧
      Shows robots p round start pos k frame := by
  obtain ⟨lines, drawn, joins⟩ : ∃ lines,
      (((rxRows p).filter fun rx => InFrame round start k rx.timeSec).map columns).mapM
        (drawLine pos) = .ok lines ∧ List.Forall₂ (Joins robots pos)
          ((rxRows p).filter fun rx => InFrame round start k rx.timeSec) lines := by
    rw [List.mapM_map]
    apply KeyedTable.mapM_related
    intro row member
    have inTable := (List.mem_filter.mp member).1
    obtain ⟨⟨i, sender⟩, ⟨j, receiver⟩⟩ := received row inTable
    have src : (columns row).src = (i : Nat) := columns_src numbered sender
    have dst : (columns row).dst = j.val := receiver.trans (numbered.nodeId j)
    have place : (columns row).src.toNat = i.val := by omega
    obtain ⟨line, drawn, source, target⟩ := drawLine_ok pos (columns row) (by omega)
      (place ▸ room i ⟨row, inTable, Or.inl sender⟩) (dst ▸ room j ⟨row, inTable, Or.inr receiver⟩)
    rw [place] at source
    rw [dst] at target
    exact ⟨line, drawn, i, j, sender, receiver, source, target⟩
  have msgs : (((rxRows p).map columns).filter fun msg =>
      InFrame round start k msg.timeSec) =
        ((rxRows p).filter fun rx => InFrame round start k rx.timeSec).map columns := by
    rw [List.filter_map]
    rfl
  refine ⟨⟨pos, lines⟩, ?_, rfl, joins⟩
  simp only [update, msgs, drawn, bind, Except.bind]
  rfl

/-! ## Rounded times -/

/-- How far rounding moves the boundaries of so many frames. -/
def drift (error : ℚ) (count : Nat) : ℚ := (count + 4) * error

section Rounding

/-- Five seconds later is still in range. -/
theorem abs_add_five_le {range start : ℚ} (startIn : |start| + 8 ≤ range) :
    |start + 5| ≤ range := by
  have sum := abs_add_le start 5
  rw [abs_of_pos (show (0 : ℚ) < 5 by norm_num)] at sum
  linarith

variable {round : ℚ → ℚ} {range error : ℚ} (close : Binary64.Close round range error)
  (wide : 160 ≤ range) {start last : ℚ} {count : Nat}

include wide

theorem abs_dt_le : |dt| ≤ range := by
  have small : |dt| ≤ 160 := by norm_num [dt]
  exact small.trans wide

include close

theorem error_nonneg : 0 ≤ error := by
  refine (abs_nonneg _).trans (close 0 ?_)
  rw [abs_zero]
  linarith

theorem abs_endTime_sub (startIn : |start| + 8 ≤ range) :
    |endTime round start last - min last (start + 5)| ≤ error := by
  calc |endTime round start last - min last (start + 5)|
      ≤ max |last - last| |round (start + 5) - (start + 5)| := abs_min_sub_min_le_max _ _ _ _
    _ ≤ error := by
        rw [sub_self, abs_zero]
        exact max_le (error_nonneg close wide) (close _ (abs_add_five_le startIn))

variable (fine : error ≤ 1 / 10000)

include fine

theorem round_dt_bounds : 1 / 31 ≤ round dt ∧ round dt ≤ 1 / 29 := by
  obtain ⟨low, high⟩ := abs_le.mp (close dt (abs_dt_le wide))
  rw [dt] at low high ⊢
  constructor <;> linarith

/-- The frames are as many as whole thirtieths up to the end, up to rounding. -/
theorem frames_fit (ordered : start ≤ last) (startIn : |start| + 8 ≤ range)
    (countIs : frames round start (endTime round start last) = count) :
    count ≤ 150 ∧ Windows.edge start dt count ≤ min last (start + 5) + drift error count ∧
      min last (start + 5) < Windows.edge start dt (count + 1) + drift error count := by
  have errorNonneg := error_nonneg close wide
  obtain ⟨short, long⟩ := round_dt_bounds close wide fine
  have near : |endTime round start last - min last (start + 5)| ≤ error :=
    abs_endTime_sub close wide startIn
  rw [abs_le] at near
  have notBefore : start ≤ endTime round start last := by
    refine le_min ordered ?_
    have low := (abs_le.mp (close _ (abs_add_five_le startIn))).1
    linarith
  have atMost : min last (start + 5) ≤ start + 5 := min_le_right _ _
  unfold frames at countIs
  set stop := endTime round start last
  have spanNonneg : 0 ≤ stop - start := by linarith
  have spanIn : |stop - start| ≤ range := by
    rw [abs_of_nonneg spanNonneg]
    linarith
  have spanNear := close _ spanIn
  have computedIn : |round (stop - start)| ≤ 160 * (1 / 31) := by
    have grown := close.abs_round_le spanIn
    rw [abs_of_nonneg spanNonneg] at grown
    linarith
  have positive : 0 < round dt := by linarith
  have quotientIn : |round (stop - start) / round dt| ≤ range := by
    rw [abs_div, abs_of_pos positive, div_le_iff₀ positive]
    exact computedIn.trans (mul_le_mul wide short (by norm_num) (by linarith))
  obtain ⟨fits, exceeds⟩ := Windows.counted close (abs_dt_le wide) positive (by linarith)
    spanNonneg spanNear quotientIn countIs
  have few : (count : ℚ) < 151 := by
    have scaled : (count : ℚ) * error ≤ count * (1 / 10000) :=
      mul_le_mul_of_nonneg_left fine (Nat.cast_nonneg count)
    rw [dt] at fits
    linarith
  refine ⟨?_, ?_, ?_⟩
  · have below : count < 151 := by exact_mod_cast few
    omega
  · rw [Windows.edge, drift]
    linarith
  · rw [Windows.edge, drift, Nat.cast_add, Nat.cast_one]
    linarith

/-- The boundaries of the frames are the whole thirtieths, up to rounding. -/
theorem boundaries (startIn : |start| + 8 ≤ range) (few : count ≤ 150) :
    Windows.Approximate start dt (drift error count) count (tStart round start)
      (tEnd round start) := by
  have errorNonneg := error_nonneg close wide
  obtain ⟨short, long⟩ := round_dt_bounds close wide fine
  have opened : ∀ k < count, |tStart round start k| ≤ |start| + 7 ∧
      |tStart round start k - Windows.edge start dt k| ≤ (k + 2) * error := by
    intro k below
    have scaled : |k * round dt| ≤ 150 * (1 / 29) := by
      have atMost : (k : ℚ) ≤ 150 := by exact_mod_cast (show k ≤ 150 by omega)
      rw [abs_of_nonneg (mul_nonneg (Nat.cast_nonneg k) (by linarith))]
      exact mul_le_mul atMost long (by linarith) (by norm_num)
    have scaledIn : |k * round dt| ≤ range := by
      have narrow : (150 : ℚ) * (1 / 29) ≤ 160 := by norm_num
      linarith
    have product := close.abs_round_le scaledIn
    have placed := abs_add_le start (round (k * round dt))
    have placedIn : |start + round (k * round dt)| ≤ range := by linarith
    refine ⟨?_, Windows.abs_opens_sub close (abs_dt_le wide) scaledIn placedIn⟩
    have grown := close.abs_round_le placedIn
    unfold tStart
    linarith
  have within : ∀ k < count, ((k : ℚ) + 4) * error ≤ drift error count := by
    intro k below
    have cast : (k : ℚ) ≤ count := Nat.cast_le.mpr below.le
    exact mul_le_mul_of_nonneg_right (by linarith) errorNonneg
  constructor
  · intro k below
    have near := (opened k below).2
    have margin := within k below
    linarith
  · intro k below
    have sumIn : |tStart round start k + round dt| ≤ range := by
      have sum := abs_add_le (tStart round start k) (round dt)
      rw [abs_of_pos (show 0 < round dt by linarith)] at sum
      linarith [(opened k below).1]
    exact (Windows.abs_closes_sub close (abs_dt_le wide) (opened k below).2 sumIn).trans
      (within k below)

theorem drift_lt_half (few : count ≤ 150) : 2 * drift error count < dt := by
  have cast : (count : ℚ) ≤ 150 := by exact_mod_cast few
  have scaled : ((count : ℚ) + 4) * error ≤ 154 * (1 / 10000) :=
    mul_le_mul (by linarith) fine (error_nonneg close wide) (by norm_num)
  rw [drift, dt]
  linarith

end Rounding

/-! ## The animation -/

/-- The frames, when the table is not empty. -/
theorem animate_ok (numbered : Numbered robots) (received : Received robots p)
    (drawn : ∀ k, 0 ≤ draws k ∧ draws k ≤ (area : ℝ)) (nonempty : rxRows p ≠ [])
    (round : ℚ → ℚ) :
    ∃ anim start last numRobots, animate round euclid draws p = .ok anim ∧
      IsLeast {time | time ∈ (rxRows p).map PktRow.timeSec} start ∧
      IsGreatest {time | time ∈ (rxRows p).map PktRow.timeSec} last ∧
      IsGreatest {count : Nat | ∃ i : Fin N, Seen robots p i ∧ i.val + 1 = count} numRobots ∧
      List.Forall₂ (fun k frame =>
          Shows robots p round start (positions euclid draws numRobots k) k frame)
        (List.range (frames round start (endTime round start last))) anim := by
  have times : ((rxRows p).map columns).map Message.timeSec = (rxRows p).map PktRow.timeSec := by
    rw [List.map_map]
    rfl
  obtain ⟨src, srcMax⟩ : ∃ src, (((rxRows p).map columns).map Message.src).max? = some src :=
    Option.isSome_iff_exists.mp (by simpa using nonempty)
  obtain ⟨dst, dstMax⟩ : ∃ dst, (((rxRows p).map columns).map fun msg =>
      (msg.dst : Int)).max? = some dst := Option.isSome_iff_exists.mp (by simpa using nonempty)
  obtain ⟨start, startMin⟩ : ∃ start, ((rxRows p).map PktRow.timeSec).min? = some start :=
    Option.isSome_iff_exists.mp (by simpa using nonempty)
  obtain ⟨last, lastMax⟩ : ∃ last, ((rxRows p).map PktRow.timeSec).max? = some last :=
    Option.isSome_iff_exists.mp (by simpa using nonempty)
  have greatest := numRobots_greatest numbered received srcMax dstMax
  have each : ∀ k ∈ List.range (frames round start (endTime round start last)),
      ∃ frame, update round (positions euclid draws (max src dst + 1).toNat k)
          ((rxRows p).map columns) start k = .ok frame ∧
        Shows robots p round start (positions euclid draws (max src dst + 1).toNat k) k frame := by
    intro k _
    apply update_ok numbered received
    intro i seen
    rw [positions_length drawn]
    exact greatest.2 ⟨i, seen, rfl⟩
  obtain ⟨anim, made, shown⟩ := KeyedTable.mapM_related each
  refine ⟨anim, start, last, _, ?_, ?_, ?_, greatest, shown⟩
  · unfold animate
    rw [messages_eq numbered received]
    simp only [bind, Except.bind]
    rw [times, srcMax, dstMax, startMin, lastMax]
    exact made
  · exact List.min?_eq_some_iff.mp startMin
  · exact List.max?_eq_some_iff.mp lastMax

/-- On the packets of robots whose addresses end with their ids, the script makes a
frame for each whole thirtieth of a second between the first delivery and the last, or
five seconds later. Each frame has a robot for every id up to the last one seen, all
inside the area, none of which moves from frame to frame by anything but nothing or
its speed, and one line for each delivery of its rounded interval, from the sender to
the receiver, in the order of the table. A delivery farther from the ends of its
thirtieth than the rounding moves them is drawn in the frame of this thirtieth and no
other; every delivery is drawn in at most two frames, one after the other, whose
thirtieths it lies in up to the rounding; and after the last frame none is. -/
theorem animation_draws_deliveries {round : ℚ → ℚ} {range error : ℚ}
    (close : Binary64.Close round range error) (wide : 160 ≤ range) (fine : error ≤ 1 / 10000)
    (draws : Nat → ℝ) (drawn : ∀ k, 0 ≤ draws k ∧ draws k ≤ (area : ℝ)) (robots : Robots N Text)
    (numbered : Numbered robots) (p : List (PktRow Text)) (received : Received robots p)
    (nonempty : rxRows p ≠ []) (inRange : ∀ rx ∈ rxRows p, |rx.timeSec| + 8 ≤ range) :
    ∃ anim start last numRobots, animate round euclid draws p = .ok anim ∧
      IsLeast {time | time ∈ (rxRows p).map PktRow.timeSec} start ∧
      IsGreatest {time | time ∈ (rxRows p).map PktRow.timeSec} last ∧
      IsGreatest {count : Nat | ∃ i : Fin N, Seen robots p i ∧ i.val + 1 = count} numRobots ∧
      Windows.edge start dt anim.length ≤ min last (start + 5) + drift error anim.length ∧
      min last (start + 5) < Windows.edge start dt (anim.length + 1) + drift error anim.length ∧
      (∀ k frame, anim[k]? = some frame → frame.offsets.length = numRobots ∧
        (∀ pos ∈ frame.offsets, InSquare (area : ℝ) pos.1 pos.2) ∧
        (∀ next, anim[k + 1]? = some next → List.Forall₂ Moves frame.offsets next.offsets) ∧
        List.Forall₂ (Joins robots frame.offsets)
          ((rxRows p).filter fun rx => InFrame round start k rx.timeSec) frame.lines) ∧
      ∀ rx ∈ rxRows p,
        (∀ k < anim.length, Windows.WellInside start dt (drift error anim.length) k rx.timeSec →
          ∀ l < anim.length, InFrame round start l rx.timeSec ↔ l = k) ∧
        (∀ k < anim.length, InFrame round start k rx.timeSec →
          Windows.NearWindow start dt (drift error anim.length) k rx.timeSec ∧
            ∀ l < anim.length, InFrame round start l rx.timeSec → l ≤ k + 1) ∧
        (Windows.edge start dt anim.length + drift error anim.length ≤ rx.timeSec →
          ∀ k < anim.length, ¬ InFrame round start k rx.timeSec) := by
  obtain ⟨anim, start, last, numRobots, made, least, greatest, robotsSeen, shown⟩ :=
    animate_ok numbered received drawn nonempty round
  have positive : 0 < dt := by norm_num [dt]
  have length : frames round start (endTime round start last) = anim.length := by
    rw [← shown.length_eq, List.length_range]
  have startIn : |start| + 8 ≤ range := by
    obtain ⟨rx, member, timeIs⟩ := List.mem_map.mp least.1
    exact timeIs ▸ inRange rx member
  obtain ⟨few, fits, exceeds⟩ :=
    frames_fit close wide fine (least.2 greatest.1) startIn length
  have approximate := boundaries close wide fine startIn few
  have shownAt : ∀ k frame, anim[k]? = some frame →
      Shows robots p round start (positions euclid draws numRobots k) k frame := by
    intro k frame atK
    obtain ⟨inside, rfl⟩ := List.getElem?_eq_some_iff.mp atK
    have here := shown.get (by rwa [List.length_range, length]) inside
    simpa using here
  refine ⟨anim, start, last, numRobots, made, least, greatest, robotsSeen, fits, exceeds, ?_, ?_⟩
  · intro k frame atK
    obtain ⟨offsets, joins⟩ := shownAt k frame atK
    rw [offsets]
    refine ⟨positions_length drawn _ _, positions_inSquare drawn _ _, ?_, joins⟩
    intro next atNext
    rw [(shownAt (k + 1) next atNext).1]
    exact positions_move drawn numRobots k
  · intro rx member
    refine ⟨?_, ?_, ?_⟩
    · intro k below inside l other
      exact Windows.inWindow_iff approximate positive.le below inside other
    · intro k below found
      refine ⟨Windows.near_of_inWindow approximate below found, ?_⟩
      intro l other again
      exact Windows.adjacent_of_inWindow approximate positive (drift_lt_half close wide fine few)
        below other found again
    · intro late k below
      exact Windows.not_inWindow_of_late approximate positive.le below late

/-! ## Three packets -/

/-- Two robots at the addresses 7.0.0.2 and 7.0.0.3. -/
def pair : Robots 2 Text where
  nodeId i := i
  ip i := "7.0.0".toList ++ '.' :: Decimal.ofNat (i + 2)
  nodeId_injective := Fin.val_injective
  ip_injective := by
    intro i j same
    have digits : Decimal.ofNat (i.val + 2) = Decimal.ofNat (j.val + 2) := by simpa using same
    have values : ((i.val + 2 : Nat) : Int) = (j.val + 2 : Nat) := Decimal.ofInt_injective digits
    omega

theorem pair_numbered : Numbered pair := ⟨fun _ => rfl, fun _ => ⟨_, rfl⟩⟩

/-- Two robots hear each other, three times within an eighth of a second. -/
def exchange (robots : Robots N Text) (i j : Fin N) : List (PktRow Text) :=
  [⟨2, .rx, robots.nodeId j, robots.ip i, 0⟩, ⟨131 / 64, .rx, robots.nodeId i, robots.ip j, 0⟩,
    ⟨17 / 8, .rx, robots.nodeId j, robots.ip i, 0⟩]

theorem exchange_received (robots : Robots N Text) (i j : Fin N) :
    Received robots (exchange robots i j) := by
  intro rx member
  rcases List.mem_cons.mp member with rfl | member
  · exact ⟨⟨i, rfl⟩, j, rfl⟩
  rcases List.mem_cons.mp member with rfl | member
  · exact ⟨⟨j, rfl⟩, i, rfl⟩
  · obtain rfl := List.mem_singleton.mp member
    exact ⟨⟨i, rfl⟩, j, rfl⟩

theorem exchange_times {time : ℚ}
    (member : time ∈ (rxRows (exchange pair 0 1)).map PktRow.timeSec) :
    2 ≤ time ∧ time ≤ 17 / 8 := by
  have times : (rxRows (exchange pair 0 1)).map PktRow.timeSec = [2, 131 / 64, 17 / 8] := rfl
  have bounds : ∀ time ∈ ([2, 131 / 64, 17 / 8] : List ℚ), 2 ≤ time ∧ time ≤ 17 / 8 := by norm_num
  exact bounds time (times ▸ member)

/-- Draws between 0 and 49. -/
def roaming (k : Nat) : ℝ := (17 * k % 50 : Nat)

theorem roaming_inArea (k : Nat) : 0 ≤ roaming k ∧ roaming k ≤ (area : ℝ) := by
  have below : 17 * k % 50 ≤ 50 := (Nat.mod_lt _ (by omega)).le
  have bound : roaming k ≤ 50 := by
    unfold roaming
    exact_mod_cast below
  exact ⟨Nat.cast_nonneg _, by rw [area]; exact_mod_cast bound⟩

theorem animation_draws_deliveries_pair :
    ∃ anim, animate Binary64.binary64 euclid roaming (exchange pair 0 1) = .ok anim ∧
      anim.length = 3 ∧ ∀ k < 3, InFrame Binary64.binary64 2 k (131 / 64) ↔ k = 1 := by
  have inRange : ∀ rx ∈ rxRows (exchange pair 0 1), |rx.timeSec| + 8 ≤ 2 ^ 8 := by
    intro rx member
    obtain ⟨low, high⟩ := exchange_times (List.mem_map.mpr ⟨rx, member, rfl⟩)
    rw [abs_of_nonneg (by linarith)]
    linarith
  obtain ⟨anim, start, last, -, made, least, greatest, -, fits, exceeds, -, drawn⟩ :=
    animation_draws_deliveries (Binary64.binary64_close 8) (by norm_num) (by norm_num) roaming
      roaming_inArea pair pair_numbered (exchange pair 0 1) (exchange_received pair 0 1)
      (List.cons_ne_nil _ _) inRange
  have first : start = 2 := least.unique ⟨by simp [exchange, rxRows], fun _ member =>
    (exchange_times member).1⟩
  have final : last = 17 / 8 := greatest.unique ⟨by simp [exchange, rxRows], fun _ member =>
    (exchange_times member).2⟩
  have stop : min last (start + 5) = 17 / 8 := by
    rw [first, final]
    norm_num
  rw [stop, first, Windows.edge, drift, dt] at fits exceeds
  have atLeast : (2 : ℚ) < anim.length := by
    push_cast at exceeds
    linarith
  have atMost : (anim.length : ℚ) < 4 := by linarith
  have length : anim.length = 3 := by
    have below : anim.length < 4 := by exact_mod_cast atMost
    have above : 2 < anim.length := by exact_mod_cast atLeast
    omega
  refine ⟨anim, made, length, ?_⟩
  have second := drawn ⟨131 / 64, .rx, pair.nodeId 0, pair.ip 1, 0⟩ (by simp [exchange, rxRows])
  rw [length, first] at second
  apply second.1 1 (by omega)
  constructor <;> norm_num [Windows.edge, drift, dt]

end Sidewalk.Analysis.Animation
