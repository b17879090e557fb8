import Sidewalk.Bridge.Loop
import Sidewalk.Cosim.Deliveries

/-!
Owns the co-simulation as it happens on the connection: the loop of the bridge
sends bytes, ns-3 answers with bytes, and the connection hands them to `recv` cut
into chunks at will. This machine agrees with the lock-step of messages and
replies, whatever the cuts, and leaves no byte behind between rounds.

Does not own connections that fail: the loop alone is treated for any behaviour
of the socket.
-/

set_option autoImplicit false

namespace Sidewalk.Cosim

open Sidewalk.Foundation Sidewalk.Protocol Sidewalk.Bridge Sidewalk.Gateway

variable {n : Nat} {Coord : Type} {setting : Setting n Coord}

/-! ## The two processes on a connection -/

/-- A round, and how the connection cuts what ns-3 sends in it. -/
structure WireRound (n : Nat) (Coord : Type) extends Round n Coord where
  cut : Text → List Chunk
  whole : ∀ bytes, chunkBytes (cut bytes) = bytes

/-- The loop of the bridge and the gateway of ns-3. -/
structure Wired (n : Nat) (Coord : Type) where
  loop : Loop n Coord
  gateway : RobotGateway n Coord

/-- Which of the two processes ends a run, and how. -/
inductive WireFault (n : Nat) (Coord : Type) where
  | gateway (fault : Fault)
  | bridge (ending : Ending n Coord)

def Wired.initial (setting : Setting n Coord) : Wired n Coord where
  loop := Loop.initial n setting.origin
  gateway := RobotGateway.initial n Coord

/-- The parameters of the loop, with a duration. The latencies of ns-3 come from times
that are an `int64_t` of nanoseconds, so no arithmetic on them overflows. -/
def Setting.loopParams (setting : Setting n Coord) (durationS : ℚ) : LoopParams Coord :=
  { setting.params with durationS := durationS, sentTime := .unbounded }

/-- The turn of the loop that meets `line` and its terminator on the connection. -/
def WireRound.turn (round : WireRound n Coord) (line : Text) : Turn n Coord where
  ok := true
  before := round.before
  send := .taken
  results := (round.cut (line ++ terminator)).map .received
  during := round.during
  bye := .taken

/-- One turn of the loop against ns-3: it reads the message sent, and the line it
answers with goes back over the connection. -/
def wireStep (setting : Setting n Coord) (durationS : ℚ) (system : Wired n Coord)
    (round : WireRound n Coord) : Except (WireFault n Coord) (Wired n Coord) :=
  let message := (stepMessage setting.params system.loop.simNs
    (callbacks system.loop.node round.before)).1
  match serve setting system.gateway round.toRound message with
  | .error fault => .error (.gateway fault)
  | .ok (gateway, line) =>
      match Bridge.turn (setting.loopParams durationS) system.loop (round.turn line) with
      | .error ending => .error (.bridge ending)
      | .ok loop => .ok ⟨loop, gateway⟩

/-! ## One turn against ns-3 -/

/-- Between rounds nothing is left on the connection, and both levels hold the
same node, gateway and clock. -/
structure Carries (wired : Wired n Coord) (system : Coupled n Coord) : Prop where
  node : wired.loop.node = system.node
  gateway : wired.gateway = system.gateway
  simNs : wired.loop.simNs = system.simNs
  rxBuf : wired.loop.rxBuf = []
  unread : wired.loop.unread = []

/-- The faults of the two levels that correspond: the exception that ends the loop
is the one of `handleReply`. -/
def SameFault : WireFault n Coord → Fault → Prop
  | .gateway fault, other => fault = other
  | .bridge ending, .reply error => ending.cause = .exception error
  | .bridge _, .message => False
  | .bridge _, .gateway _ => False

/-- The line of a chunked answer is received whole, and nothing else with it. -/
theorem recvLine_cut {line : Text} (plain : ¬ terminator <:+: line) {chunks : List Chunk}
    (whole : chunkBytes chunks = line ++ terminator) (earlier : Text) :
    recvLine ⟨earlier, [], chunks.map .received⟩ = (some true, ⟨line, [], []⟩) := by
  have stream : [] ++ chunkBytes chunks = line ++ (terminator ++ []) := by
    rw [List.nil_append, List.append_nil, whole]
  obtain ⟨rxBuf, left, received, nothing⟩ := recvLine_next
    (rfl : (⟨earlier, [], chunks.map .received⟩ : Receiver).socket = _) plain stream
  obtain ⟨empty, noBytes⟩ := List.append_eq_nil_iff.mp nothing
  have noChunk : left = [] := by
    cases left with
    | nil => rfl
    | cons chunk left =>
        rw [chunkBytes, List.flatMap_cons] at noBytes
        exact absurd (List.append_eq_nil_iff.mp noBytes).1 chunk.nonempty
  rw [received, empty, noChunk, List.map_nil]

/-- The values of a reply are written with digits, signs, colons and semicolons. -/
theorem reply_plain {gateway : RobotGateway n Coord} {boxes : Fin n → Mailbox Delivery}
    (represents : Represents gateway boxes) :
    ¬ terminator <:+: [' '].intercalate ((List.finRange n).map gateway.deliveries) := by
  have noReturn : '\r' ∉ [' '].intercalate ((List.finRange n).map gateway.deliveries) := by
    intro member
    rcases Delimited.mem_intercalate member with space | ⟨field, inFields, inField⟩
    · exact absurd space (by decide)
    · obtain ⟨j, -, rfl⟩ := List.mem_map.mp inFields
      rw [represents.deliveries] at inField
      exact not_mem_fieldText _ (by decide) (by decide) (by decide) (by decide) inField
  intro inside
  apply noReturn
  apply inside.subset
  exact List.mem_cons_self

/-- A round on the connection agrees with the round of messages: the node handles
the same reply, or the same exception ends both. -/
theorem wireStep_agrees (lawful : setting.Lawful) {durationS : ℚ} {past : List (Round n Coord)}
    {system : Coupled n Coord}
    (ran : Run.run (step setting) (Coupled.initial setting) past = .ok system)
    (inTime : (setting.loopParams durationS).goesOn (timeAt setting past.length))
    {wired : Wired n Coord} (carries : Carries wired system) (round : WireRound n Coord) :
    Run.Agrees Carries SameFault (wireStep setting durationS wired round)
      (step setting system round.toRound) := by
  have time := (tracks_run ran).1
  have nonneg : 0 ≤ system.simNs := time ▸ timeAt_nonneg setting past.length
  obtain ⟨events, -, fromStart⟩ := (between_run lawful ran).updated
  obtain ⟨heard, receives, -, -, serves⟩ :=
    serve_eq lawful nonneg system.gateway (callbacks system.node round.before) round.toRound
  have plain := reply_plain (represents_run receives (represents_run fromStart represents_initial))
  have received : recvLine (wired.loop.receiver (round.turn
      ([' '].intercalate ((List.finRange n).map heard.deliveries))).results) =
        (some true, ⟨[' '].intercalate ((List.finRange n).map heard.deliveries), [], []⟩) := by
    rw [Loop.receiver, carries.rxBuf, carries.unread]
    exact recvLine_cut plain (round.whole _) wired.loop.line
  have goesOn : (setting.loopParams durationS).goesOn wired.loop.simNs := by
    rw [carries.simNs, time]
    exact inTime
  obtain ⟨fails, handles⟩ := turn_of_received (setting.loopParams durationS) wired.loop
    (round.turn ([' '].intercalate ((List.finRange n).map heard.deliveries)))
    (by rfl) goesOn (by rfl) received
  have awaits : wired.loop.awaiting (setting.loopParams durationS)
      (round.turn ([' '].intercalate ((List.finRange n).map heard.deliveries))) =
        callbacks (stepMessage setting.params system.simNs
          (callbacks system.node round.before)).2 round.during := by
    rw [Loop.awaiting, carries.node, carries.simNs]
    rfl
  rw [awaits, carries.simNs] at fails handles
  simp only [wireStep, step, carries.node, carries.simNs, carries.gateway, serves]
  cases handled : handleReply setting.params
      ([' '].intercalate ((List.finRange n).map heard.deliveries)) system.simNs
      (callbacks (stepMessage setting.params system.simNs
        (callbacks system.node round.before)).2 round.during) with
  | error error =>
      obtain ⟨ending, ended, cause⟩ := fails error handled
      rw [ended]
      exact cause
  | ok node =>
      obtain ⟨next, stepped, answered, nodeIs⟩ := handles node handled
      rw [stepped]
      refine ⟨nodeIs, rfl, ?_, answered.rxBuf, answered.unread⟩
      show next.simNs = system.simNs + setting.params.stepMs * 1000000
      rw [answered.simNs, carries.simNs]
      rfl

theorem carries_initial (setting : Setting n Coord) :
    Carries (Wired.initial setting) (Coupled.initial setting) :=
  ⟨rfl, rfl, rfl, rfl, rfl⟩

/-- Every round of a list begins within the duration. -/
def InTime (setting : Setting n Coord) (durationS : ℚ) (count : Nat) : Prop :=
  ∀ k < count, (setting.loopParams durationS).goesOn (timeAt setting k)

theorem wire_agrees (lawful : setting.Lawful) {durationS : ℚ} {rounds : List (WireRound n Coord)}
    (inTime : InTime setting durationS rounds.length) :
    Run.Agrees Carries SameFault
      (Run.run (wireStep setting durationS) (Wired.initial setting) rounds)
      (Run.run (step setting) (Coupled.initial setting) (rounds.map WireRound.toRound)) := by
  apply Run.run_agrees WireRound.toRound (carries_initial setting)
  intro past round rest wired system split _ ran carries
  apply wireStep_agrees lawful ran _ carries
  rw [List.length_map]
  apply inTime
  rw [split]
  simp

/-! ## The loop of the bridge in it -/

/-- The turn of the loop that a round on the connection is. -/
def turnOf (setting : Setting n Coord) (system : Wired n Coord) (round : WireRound n Coord) :
    List (Turn n Coord) :=
  match serve setting system.gateway round.toRound (stepMessage setting.params system.loop.simNs
      (callbacks system.loop.node round.before)).1 with
  | .error _ => []
  | .ok (_, line) => [round.turn line]

theorem wireStep_ok {durationS : ℚ} {system next : Wired n Coord} {round : WireRound n Coord}
    (stepped : wireStep setting durationS system round = .ok next) :
    ∃ now, turnOf setting system round = [now] ∧ now.before = round.before ∧
      Bridge.turn (setting.loopParams durationS) system.loop now = .ok next.loop := by
  unfold wireStep at stepped
  dsimp only at stepped
  split at stepped
  next => cases stepped
  next gateway line serves =>
    split at stepped
    next => cases stepped
    next loop turned =>
      rw [Except.ok.injEq] at stepped
      subst stepped
      refine ⟨round.turn line, ?_, rfl, turned⟩
      unfold turnOf
      rw [serves]

/-- The turns of a run on the connection are a run of the loop alone. -/
theorem loop_run {durationS : ℚ} {rounds : List (WireRound n Coord)} {wired : Wired n Coord}
    (ran : Run.run (wireStep setting durationS) (Wired.initial setting) rounds = .ok wired) :
    let turns := Run.observe (wireStep setting durationS) (turnOf setting) (Wired.initial setting)
      rounds
    turns.length = rounds.length ∧
      Run.run (Bridge.turn (setting.loopParams durationS)) (Loop.initial n setting.origin) turns =
        .ok wired.loop := by
  refine Run.history_induction (fun past wired =>
    let turns := Run.observe (wireStep setting durationS) (turnOf setting) (Wired.initial setting)
      past
    turns.length = past.length ∧
      Run.run (Bridge.turn (setting.loopParams durationS)) (Loop.initial n setting.origin) turns =
        .ok wired.loop) ran ⟨rfl, rfl⟩ ?_
  intro past round rest middle next _ ranPast earlier stepped
  obtain ⟨length, ranLoop⟩ := earlier
  obtain ⟨now, turn, -, turned⟩ := wireStep_ok stepped
  constructor
  · rw [Run.observe_concat ranPast, turn, List.length_append, length, List.length_append]
    rfl
  · rw [Run.observe_concat ranPast, turn]
    exact Run.run_concat ranLoop turned

/-- The step message of a round. -/
def asked (setting : Setting n Coord) (system : Coupled n Coord) (round : Round n Coord) :
    List Text :=
  [(stepMessage setting.params system.simNs (callbacks system.node round.before)).1]

theorem sends_wire (lawful : setting.Lawful) {durationS : ℚ} {rounds : List (WireRound n Coord)}
    (inTime : InTime setting durationS rounds.length) {wired : Wired n Coord}
    (ran : Run.run (wireStep setting durationS) (Wired.initial setting) rounds = .ok wired) :
    wired.loop.sends = Run.observe (step setting) (asked setting) (Coupled.initial setting)
      (rounds.map WireRound.toRound) := by
  refine Run.history_induction (fun past wired => wired.loop.sends =
    Run.observe (step setting) (asked setting) (Coupled.initial setting)
      (past.map WireRound.toRound)) ran rfl ?_
  intro past round rest middle next split ranPast earlier stepped
  have pastInTime : InTime setting durationS past.length := by
    intro k below
    apply inTime
    rw [split, List.length_append]
    omega
  have agrees := wire_agrees lawful pastInTime
  rw [ranPast] at agrees
  cases ranMessages : Run.run (step setting) (Coupled.initial setting)
      (past.map WireRound.toRound) with
  | error fault =>
      rw [ranMessages] at agrees
      exact agrees.elim
  | ok system =>
      rw [ranMessages] at agrees
      have carries : Carries middle system := agrees
      obtain ⟨now, -, before, turned⟩ := wireStep_ok stepped
      obtain ⟨receiver, answered⟩ := turn_ok turned
      rw [List.map_append, List.map_singleton, Run.observe_concat ranMessages, answered.sends,
        earlier, Loop.message, before, carries.node, carries.simNs]
      rfl

/-! ## Refinement -/

/-- The co-simulation on the connection refines the lock-step of messages and
replies: over every run within the duration, and for every way the connection
cuts the bytes, both end in the same node, gateway and clock or fault with the same
exception, and after each round no byte of a reply is left in the buffer or unread.
The texts the bridge has sent are the step messages of the lock-step, the loop has
taken one turn for each round, and where every round is timely no run faults. -/
theorem wire_refines_lockstep (setting : Setting n Coord) (lawful : setting.Lawful)
    (durationS : ℚ) (rounds : List (WireRound n Coord))
    (inTime : InTime setting durationS rounds.length) :
    let onWire := Run.run (wireStep setting durationS) (Wired.initial setting) rounds
    let messages := rounds.map WireRound.toRound
    Run.Agrees Carries SameFault onWire
        (Run.run (step setting) (Coupled.initial setting) messages) ∧
      (∀ wired, onWire = .ok wired →
        wired.loop.sends =
            Run.observe (step setting) (asked setting) (Coupled.initial setting) messages ∧
          Transcript (setting.loopParams durationS) rounds.length rounds.length false wired.loop ∧
          ∃ turns, turns.length = rounds.length ∧
            Run.run (Bridge.turn (setting.loopParams durationS)) (Loop.initial n setting.origin)
              turns = .ok wired.loop) ∧
      (Schedule setting messages → ∃ wired, onWire = .ok wired) := by
  intro onWire messages
  have agrees := wire_agrees lawful inTime
  refine ⟨agrees, ?_, ?_⟩
  · intro wired ran
    obtain ⟨length, ranLoop⟩ := loop_run ran
    have transcript := transcript_run ranLoop
    rw [length] at transcript
    exact ⟨sends_wire lawful inTime ran, transcript, _, length, ranLoop⟩
  · intro schedule
    obtain ⟨final, ran⟩ := lockstep_total lawful schedule
    rw [ran] at agrees
    cases ranWire : onWire with
    | error fault =>
        rw [show Run.run (wireStep setting durationS) (Wired.initial setting) rounds =
          .error fault from ranWire] at agrees
        exact agrees.elim
    | ok wired => exact ⟨wired, rfl⟩

/-- A round whose bytes arrive one by one. -/
def Round.byByte (round : Round n Coord) : WireRound n Coord where
  toRound := round
  cut bytes := bytes.map fun c => ⟨[c], List.cons_ne_nil _ _, by simp [chunkSize]⟩
  whole bytes := by simp [chunkBytes, List.flatMap_map]

theorem wire_refines_lockstep_byByte :
    ∃ wired, Run.run (wireStep twoRobots 0) (Wired.initial twoRobots)
        (overtaken.map Round.byByte) = .ok wired ∧
      wired.loop.rxBuf = [] ∧ wired.loop.sends.length = 3 := by
  have untilShutdown : InTime twoRobots 0 (overtaken.map Round.byByte).length :=
    fun _ _ => Or.inl le_rfl
  have same : (overtaken.map Round.byByte).map WireRound.toRound = overtaken := rfl
  obtain ⟨agrees, sent, total⟩ := wire_refines_lockstep twoRobots twoRobots_lawful 0
    (overtaken.map Round.byByte) untilShutdown
  obtain ⟨wired, ran⟩ := total (same ▸ overtaken_schedule)
  obtain ⟨sends, transcript, -⟩ := sent wired ran
  obtain ⟨final, ranMessages⟩ := lockstep_total twoRobots_lawful overtaken_schedule
  rw [same, ran, ranMessages] at agrees
  have carries : Carries wired final := agrees
  obtain ⟨messages, texts, length, -⟩ := transcript.sends
  refine ⟨wired, ran, carries.rxBuf, ?_⟩
  rw [texts, if_neg Bool.false_ne_true, List.append_nil, length]
  rfl

end Sidewalk.Cosim
