import Sidewalk.Bridge.Message
import Sidewalk.Bridge.RecvLine
import Sidewalk.Bridge.Reply
import Sidewalk.Bridge.Report

/-!
Owns the loop of `BridgeNode::run`: its condition, the message it sends each turn,
the wait for the line of the reply, the clock, the reports on the way and the
farewell. Everything that comes from outside is given turn by turn: whether the
node may go on, the callbacks, what `send` does and what `recv` returns.

Does not own the connection before the loop nor the pacing to the wall clock, nor
how much of a text a `send` takes: the loop ignores that. `duration_s` is exact.
-/

set_option autoImplicit false

namespace Sidewalk.Bridge

open Sidewalk.Foundation Sidewalk.Protocol

/-! ## One turn -/

/-- The parameters the loop reads, and what an overflow in `handleReply` leaves. -/
structure LoopParams (Coord : Type) extends Params Coord where
  durationS : ℚ
  sentTime : SentTime

/-- What a call of `::send` does. -/
inductive SendResult where
  /-- it returns how much of the text it has taken -/
  | taken
  /-- it returns a negative value -/
  | failed
  /-- the connection was reset: `SIGPIPE`, which nothing handles, ends the process -/
  | killed
deriving DecidableEq, Repr

/-- What happens around one turn of the loop. -/
structure Turn (n : Nat) (Coord : Type) where
  /-- `!stop_ && rclcpp::ok()` -/
  ok : Bool
  before : List (PoseCall n Coord)
  send : SendResult
  results : List RecvResult
  during : List (PoseCall n Coord)
  /-- the `::send` of the farewell, if this is the last turn -/
  bye : SendResult

/-- The variables of the loop and of the node it changes; `unread` are the results
of the `recv` calls to come, `sends` the texts handed to the calls of `::send` that
have returned, and `reports` the lines logged by `report`. -/
structure Loop (n : Nat) (Coord : Type) where
  node : BridgeNode n Coord
  line : Text
  rxBuf : Text
  unread : List RecvResult
  simNs : Int
  sends : List Text
  reports : List ReportLine

/-- Why no further turn begins. -/
inductive Cause where
  /-- the condition of the loop fails -/
  | stopped
  /-- `ns-3 disconnected` -/
  | disconnected
  /-- `SIGPIPE` -/
  | killed
  /-- `recv` does not return -/
  | waiting
  /-- an exception of `std::stoi` or `std::stoll` leaves the thread -/
  | exception (error : Decimal.ConversionError)
  | indexFault
deriving DecidableEq, Repr

/-- How the loop ends, and the state it leaves. -/
structure Ending (n : Nat) (Coord : Type) where
  cause : Cause
  loop : Loop n Coord

variable {n : Nat} {Coord : Type}

/-- The loop before its first turn. -/
def Loop.initial (n : Nat) (origin : Pose Coord) : Loop n Coord where
  node := BridgeNode.initial n origin
  line := []
  rxBuf := []
  unread := []
  simNs := 0
  sends := []
  reports := []

/-- `duration_s_ <= 0 || sim_ns < static_cast<int64_t>(duration_s_ * 1e9)`. -/
def LoopParams.goesOn (params : LoopParams Coord) (simNs : Int) : Prop :=
  params.durationS ≤ 0 ∨ simNs < ⌊params.durationS * 1000000000⌋

instance (params : LoopParams Coord) (simNs : Int) : Decidable (params.goesOn simNs) :=
  inferInstanceAs (Decidable (_ ∨ _))

/-- The message that ends the co-simulation. -/
def bye : Text := "-1 0\r\n".toList

/-- The call `report(sim_ns)`. -/
def Loop.report (loop : Loop n Coord) : Except IndexFault (Loop n Coord) :=
  match Bridge.report loop.simNs loop.node with
  | .error fault => .error fault
  | .ok (node, line) => .ok { loop with node := node, reports := loop.reports ++ [line] }

/-- What follows the loop. -/
def Loop.finish (loop : Loop n Coord) (cause : Cause) (send : SendResult) : Ending n Coord :=
  if send = .killed then ⟨.killed, loop⟩
  else
    let closing := { loop with sends := loop.sends ++ [bye] }
    match closing.report with
    | .error _ => ⟨.indexFault, closing⟩
    | .ok final => ⟨cause, final⟩

/-- What `recvLine` works on in a turn. -/
def Loop.receiver (loop : Loop n Coord) (results : List RecvResult) : Receiver where
  line := loop.line
  rxBuf := loop.rxBuf
  socket := loop.unread ++ results

/-- The loop once `recvLine` has left `receiver`. -/
def Loop.received (loop : Loop n Coord) (receiver : Receiver) : Loop n Coord :=
  { loop with line := receiver.line, rxBuf := receiver.rxBuf, unread := receiver.socket }

/-- One turn of the loop of `BridgeNode::run`. -/
def turn (params : LoopParams Coord) (loop : Loop n Coord) (now : Turn n Coord) :
    Except (Ending n Coord) (Loop n Coord) :=
  if now.ok = true ∧ params.goesOn loop.simNs then
    let (message, asked) :=
      stepMessage params.toParams loop.simNs (callbacks loop.node now.before)
    let asking := { loop with node := asked, sends := loop.sends ++ [message] }
    match now.send with
    | .killed => .error ⟨.killed, { loop with node := asked }⟩
    | .failed => .error (asking.finish .disconnected now.bye)
    | .taken =>
        let waited := { asking with node := callbacks asked now.during }
        match recvLine (loop.receiver now.results) with
        | (none, receiver) => .error ⟨.waiting, waited.received receiver⟩
        | (some false, receiver) =>
            .error ((waited.received receiver).finish .disconnected now.bye)
        | (some true, receiver) =>
            match handleReplyWith params.sentTime params.toParams receiver.line loop.simNs
                waited.node with
            | .error error => .error ⟨.exception error, waited.received receiver⟩
            | .ok node =>
                let next := { waited.received receiver with
                  node := node
                  simNs := loop.simNs + params.stepMs * 1000000 }
                if next.simNs.tmod 5000000000 = 0 then
                  match next.report with
                  | .error _ => .error ⟨.indexFault, next⟩
                  | .ok reported => .ok reported
                else .ok next
  else .error (loop.finish .stopped now.bye)

/-! ## Reports -/

/-- A report never faults; it logs one line with the time of the loop. -/
theorem Loop.report_eq (loop : Loop n Coord) :
    ∃ line, line.time = loop.simNs ∧
      loop.report = .ok { loop with reports := loop.reports ++ [line] } := by
  obtain ⟨line, time, reported⟩ := Bridge.report_total loop.simNs loop.node
  exact ⟨line, time, by rw [Loop.report, reported]⟩

theorem Loop.finish_eq (loop : Loop n Coord) (cause : Cause) {send : SendResult}
    (returns : send ≠ .killed) :
    ∃ line, line.time = loop.simNs ∧
      loop.finish cause send = ⟨cause, { loop with
        sends := loop.sends ++ [bye]
        reports := loop.reports ++ [line] }⟩ := by
  let closing := { loop with sends := loop.sends ++ [bye] }
  obtain ⟨line, time, reported⟩ := closing.report_eq
  refine ⟨line, time, ?_⟩
  simp only [Loop.finish, if_neg returns, closing, reported]

/-! ## What a turn does -/

/-- The message of a turn. -/
def Loop.message (params : LoopParams Coord) (loop : Loop n Coord) (now : Turn n Coord) : Text :=
  (stepMessage params.toParams loop.simNs (callbacks loop.node now.before)).1

/-- The node when `recvLine` returns. -/
def Loop.awaiting (params : LoopParams Coord) (loop : Loop n Coord) (now : Turn n Coord) :
    BridgeNode n Coord :=
  callbacks (stepMessage params.toParams loop.simNs (callbacks loop.node now.before)).2 now.during

/-- The reports that are due when the clock has reached `simNs`. -/
def dueAt (simNs : Int) : List Int := if simNs.tmod 5000000000 = 0 then [simNs] else []

/-- A turn that ends with its reply handled; `receiver` is what `recvLine` leaves. -/
structure Answered (params : LoopParams Coord) (loop : Loop n Coord) (now : Turn n Coord)
    (receiver : Receiver) (next : Loop n Coord) : Prop where
  ok : now.ok = true
  goesOn : params.goesOn loop.simNs
  received : recvLine (loop.receiver now.results) = (some true, receiver)
  handled : handleReplyWith params.sentTime params.toParams receiver.line loop.simNs
    (loop.awaiting params now) = .ok next.node
  line : next.line = receiver.line
  rxBuf : next.rxBuf = receiver.rxBuf
  unread : next.unread = receiver.socket
  simNs : next.simNs = loop.simNs + params.stepMs * 1000000
  sends : next.sends = loop.sends ++ [loop.message params now]
  reports : ∃ lines, next.reports = loop.reports ++ lines ∧
    lines.map ReportLine.time = dueAt next.simNs

theorem turn_ok {params : LoopParams Coord} {loop next : Loop n Coord} {now : Turn n Coord}
    (stepped : turn params loop now = .ok next) :
    ∃ receiver, Answered params loop now receiver next := by
  unfold turn at stepped
  split at stepped
  next condition =>
    dsimp only at stepped
    split at stepped
    next => cases stepped
    next => cases stepped
    next =>
      split at stepped
      next => cases stepped
      next => cases stepped
      next receiver received =>
        split at stepped
        next => cases stepped
        next node handled =>
          split at stepped
          next due =>
            obtain ⟨line, time, reported⟩ := Loop.report_eq _
            rw [reported, Except.ok.injEq] at stepped
            subst stepped
            refine ⟨receiver, condition.1, condition.2, received, handled, rfl, rfl, rfl, rfl, rfl,
              [line], rfl, ?_⟩
            rw [List.map_singleton, time]
            exact (if_pos due).symm
          next notDue =>
            rw [Except.ok.injEq] at stepped
            subst stepped
            exact ⟨receiver, condition.1, condition.2, received, handled, rfl, rfl, rfl, rfl, rfl,
              [], (List.append_nil _).symm, (if_neg notDue).symm⟩
  next => cases stepped

/-- A turn with an open connection and a line: it is the handling of the reply. -/
theorem turn_of_received (params : LoopParams Coord) (loop : Loop n Coord) (now : Turn n Coord)
    (ok : now.ok = true) (goesOn : params.goesOn loop.simNs) (taken : now.send = .taken)
    {receiver : Receiver}
    (received : recvLine (loop.receiver now.results) = (some true, receiver)) :
    (∀ error, handleReplyWith params.sentTime params.toParams receiver.line loop.simNs
        (loop.awaiting params now) = .error error →
      ∃ ending, turn params loop now = .error ending ∧ ending.cause = .exception error) ∧
      ∀ node, handleReplyWith params.sentTime params.toParams receiver.line loop.simNs
          (loop.awaiting params now) = .ok node →
        ∃ next, turn params loop now = .ok next ∧ Answered params loop now receiver next ∧
          next.node = node := by
  have condition : now.ok = true ∧ params.goesOn loop.simNs := ⟨ok, goesOn⟩
  constructor
  · intro error handled
    unfold Loop.awaiting at handled
    simp only [turn, if_pos condition, taken, received, handled]
    exact ⟨_, rfl, rfl⟩
  · intro node handled
    have stepped : ∃ next, turn params loop now = .ok next := by
      unfold Loop.awaiting at handled
      simp only [turn, if_pos condition, taken, received, handled]
      split
      next =>
        obtain ⟨line, -, reported⟩ := Loop.report_eq _
        exact ⟨_, by rw [reported]⟩
      next => exact ⟨_, rfl⟩
    obtain ⟨next, stepped⟩ := stepped
    obtain ⟨other, answered⟩ := turn_ok stepped
    have same : other = receiver := by
      have again := answered.received
      rw [received, Prod.mk.injEq] at again
      exact again.2.symm
    subst same
    have handledAgain := answered.handled
    rw [handled, Except.ok.injEq] at handledAgain
    exact ⟨next, stepped, answered, handledAgain.symm⟩

/-- Two nodes that have published, written and recorded the same. -/
def SameOutputs (first second : BridgeNode n Coord) : Prop :=
  { first with robots := second.robots, sent := second.sent } = second

theorem SameOutputs.csv {first second : BridgeNode n Coord} (same : SameOutputs first second) :
    first.csv = second.csv := by
  rw [← congrArg BridgeNode.csv same]

theorem sameOutputs_afterMessage (params : Params Coord) (simNs : Int) (node : BridgeNode n Coord)
    (before during : List (PoseCall n Coord)) :
    SameOutputs (callbacks (stepMessage params simNs (callbacks node before)).2 during) node ∧
      SameOutputs (stepMessage params simNs (callbacks node before)).2 node := by
  rw [stepMessage_eq]
  dsimp only
  constructor
  · rw [callbacks_eq _ during, callbacks_eq node before]
    rfl
  · rw [callbacks_eq node before]
    rfl

/-- What the end of the loop has added to its last state: the messages `asked`
without a handled reply, and, when the loop was left, the farewell and a report. -/
structure Ended (loop : Loop n Coord) (asked : List Text) (left : Bool) (last : Loop n Coord) :
    Prop where
  outputs : SameOutputs last.node loop.node
  simNs : last.simNs = loop.simNs
  sends : last.sends = loop.sends ++ (asked ++ if left then [bye] else [])
  reports : ∃ lines, last.reports = loop.reports ++ lines ∧
    lines.map ReportLine.time = if left then [loop.simNs] else []

/-- The ways a turn can be the last one, where `begun` says that the condition of the
loop held: why, how many messages went out without a handled reply, and whether the
farewell and a report followed. -/
inductive Leaves (begun : Prop) : Cause → (asked : Nat) → (left : Bool) → Prop where
  | stopped (ended : ¬ begun) : Leaves begun .stopped 0 true
  | killedAtStop (ended : ¬ begun) : Leaves begun .killed 0 false
  | killedAsking (holds : begun) : Leaves begun .killed 0 false
  | disconnected (holds : begun) : Leaves begun .disconnected 1 true
  | killedAtDisconnect (holds : begun) : Leaves begun .killed 1 false
  | waiting (holds : begun) : Leaves begun .waiting 1 false
  | exception (holds : begun) (error : Decimal.ConversionError) :
      Leaves begun (.exception error) 1 false

/-- What follows the loop, when `SIGPIPE` at the farewell is the only other way to end. -/
theorem ended_finish {loop waited : Loop n Coord} {begun : Prop} {count : Nat} {message : Text}
    {cause : Cause} (leaves : Leaves begun cause count true)
    (killedThen : Leaves begun .killed count false)
    (outputs : SameOutputs waited.node loop.node) (simNs : waited.simNs = loop.simNs)
    (sends : waited.sends = loop.sends ++ List.replicate count message)
    (reports : waited.reports = loop.reports) (send : SendResult) :
    ∃ asked left, Leaves begun (waited.finish cause send).cause asked left ∧
      Ended loop (List.replicate asked message) left (waited.finish cause send).loop := by
  by_cases killed : send = .killed
  · rw [Loop.finish, if_pos killed]
    refine ⟨count, false, killedThen, outputs, simNs, ?_, [], ?_, rfl⟩
    · show waited.sends = loop.sends ++ (List.replicate count message ++ [])
      rw [List.append_nil, sends]
    · show waited.reports = loop.reports ++ []
      rw [List.append_nil, reports]
  · obtain ⟨line, time, finished⟩ := waited.finish_eq cause killed
    rw [finished]
    refine ⟨count, true, leaves, outputs, simNs, ?_, [line], ?_, ?_⟩
    · show waited.sends ++ [bye] = loop.sends ++ (List.replicate count message ++ [bye])
      rw [sends, List.append_assoc]
    · show waited.reports ++ [line] = loop.reports ++ [line]
      rw [reports]
    · show [line.time] = [loop.simNs]
      rw [time, simNs]

theorem turn_error {params : LoopParams Coord} {loop : Loop n Coord} {now : Turn n Coord}
    {ending : Ending n Coord} (stepped : turn params loop now = .error ending) :
    ∃ asked left, Leaves (now.ok = true ∧ params.goesOn loop.simNs) ending.cause asked left ∧
      Ended loop (List.replicate asked (loop.message params now)) left ending.loop := by
  obtain ⟨waiting, asking⟩ :=
    sameOutputs_afterMessage params.toParams loop.simNs loop.node now.before now.during
  unfold turn at stepped
  split at stepped
  next condition =>
    dsimp only at stepped
    split at stepped
    next =>
      cases stepped
      refine ⟨0, false, .killedAsking condition, asking, rfl, ?_, [], ?_, rfl⟩
      all_goals exact (List.append_nil _).symm
    next =>
      cases stepped
      apply ended_finish (.disconnected condition) (.killedAtDisconnect condition)
      · exact asking
      all_goals rfl
    next =>
      split at stepped
      next =>
        cases stepped
        exact ⟨1, false, .waiting condition, waiting, rfl, rfl, [], (List.append_nil _).symm, rfl⟩
      next receiver _ =>
        cases stepped
        apply ended_finish (.disconnected condition) (.killedAtDisconnect condition)
        · exact waiting
        all_goals rfl
      next receiver received =>
        split at stepped
        next error _ =>
          cases stepped
          refine ⟨1, false, .exception condition error, waiting, rfl, rfl, [], ?_, rfl⟩
          exact (List.append_nil _).symm
        next node handled =>
          split at stepped
          next =>
            obtain ⟨line, time, reported⟩ := Loop.report_eq _
            rw [reported] at stepped
            cases stepped
          next => cases stepped
  next condition =>
    cases stepped
    exact ended_finish (.stopped condition) (.killedAtStop condition) rfl rfl
      (List.append_nil _).symm rfl now.bye

/-! ## Transcripts -/

/-- The time of message number `k`. -/
def messageTime (params : LoopParams Coord) (k : Nat) : Int := k * (params.stepMs * 1000000)

/-- A step message for `n` robots as it goes out at time `simNs`. -/
def IsStepMessage (n : Nat) (simNs : Int) (message : Text) : Prop :=
  ∃ fields : List Text, fields.length = 4 * n ∧
    message = [' '].intercalate (Decimal.ofInt (simNs / 1000000000) ::
      Decimal.ofInt (simNs % 1000000000) :: fields) ++ terminator

/-- What has gone out and been logged after `answered` handled replies to `asked`
messages: the step messages for the times 0, one step, two steps and so on, the
farewell at most once and last; a report for each multiple of five seconds the
clock has reached, and one more when the loop is left. -/
structure Transcript (params : LoopParams Coord) (answered asked : Nat) (left : Bool)
    (loop : Loop n Coord) : Prop where
  simNs : loop.simNs = messageTime params answered
  sends : ∃ messages : List Text, loop.sends = (messages ++ if left then [bye] else []) ∧
    messages.length = asked ∧
    ∀ k message, messages[k]? = some message → IsStepMessage n (messageTime params k) message
  reports : loop.reports.map ReportLine.time =
    ((List.range answered).flatMap fun k => dueAt (messageTime params (k + 1))) ++
      if left then [loop.simNs] else []

theorem messageTime_succ (params : LoopParams Coord) (k : Nat) :
    messageTime params (k + 1) = messageTime params k + params.stepMs * 1000000 := by
  rw [messageTime, messageTime, Int.natCast_add, Int.add_mul, Int.natCast_one, Int.one_mul]

theorem messageTime_nonneg (params : LoopParams Coord) (k : Nat) : 0 ≤ messageTime params k := by
  apply Int.mul_nonneg (Int.natCast_nonneg k)
  omega

theorem isStepMessage (params : LoopParams Coord) {loop : Loop n Coord} (nonneg : 0 ≤ loop.simNs)
    (now : Turn n Coord) : IsStepMessage n loop.simNs (loop.message params now) := by
  refine ⟨messageFields params.print (callbacks loop.node now.before), ?_, ?_⟩
  · simp [messageFields, List.length_flatMap, Robot.message, Nat.mul_comm]
  · rw [Loop.message, stepMessage_eq, Int.tdiv_eq_ediv_of_nonneg nonneg,
      Int.tmod_eq_emod_of_nonneg nonneg]
    rfl

/-- The next message keeps the numbering. -/
theorem numbered_concat {params : LoopParams Coord} {messages : List Text} {message : Text}
    (numbered : ∀ k message, messages[k]? = some message →
      IsStepMessage n (messageTime params k) message)
    (next : IsStepMessage n (messageTime params messages.length) message) :
    ∀ k other, (messages ++ [message])[k]? = some other →
      IsStepMessage n (messageTime params k) other := by
  intro k other found
  by_cases earlier : k < messages.length
  · rw [List.getElem?_append_left earlier] at found
    exact numbered k other found
  · have last : k = messages.length := by
      have inside := (List.getElem?_eq_some_iff.mp found).1
      rw [List.length_append, List.length_singleton] at inside
      omega
    rw [last, List.getElem?_concat_length, Option.some.injEq] at found
    rw [last, ← found]
    exact next

theorem transcript_initial (params : LoopParams Coord) (origin : Pose Coord) :
    Transcript params 0 0 false (Loop.initial n origin) where
  simNs := by simp [Loop.initial, messageTime]
  sends := ⟨[], rfl, rfl, by simp⟩
  reports := rfl

/-- A turn whose reply is handled: one message and one step of the clock. -/
theorem transcript_answered {params : LoopParams Coord} {count : Nat} {loop next : Loop n Coord}
    {now : Turn n Coord} {receiver : Receiver}
    (transcript : Transcript params count count false loop)
    (answered : Answered params loop now receiver next) :
    Transcript params (count + 1) (count + 1) false next := by
  obtain ⟨messages, sends, length, numbered⟩ := transcript.sends
  have time : next.simNs = messageTime params (count + 1) := by
    rw [answered.simNs, transcript.simNs, messageTime_succ]
  have message :
      IsStepMessage n (messageTime params messages.length) (loop.message params now) := by
    rw [length, ← transcript.simNs]
    apply isStepMessage
    rw [transcript.simNs]
    exact messageTime_nonneg params count
  obtain ⟨lines, reports, due⟩ := answered.reports
  refine ⟨time, ⟨messages ++ [loop.message params now], ?_, ?_, ?_⟩, ?_⟩
  · rw [answered.sends, sends]
    simp
  · rw [List.length_append, length, List.length_singleton]
  · exact numbered_concat numbered message
  · rw [reports, List.map_append, transcript.reports, due, time, List.range_succ,
      List.flatMap_append]
    simp

theorem transcript_run {params : LoopParams Coord} {origin : Pose Coord}
    {turns : List (Turn n Coord)} {loop : Loop n Coord}
    (ran : Run.run (turn params) (Loop.initial n origin) turns = .ok loop) :
    Transcript params turns.length turns.length false loop := by
  refine Run.history_induction
    (fun past loop => Transcript params past.length past.length false loop) ran
    (transcript_initial params origin) ?_
  intro past now rest middle next _ _ transcript stepped
  obtain ⟨receiver, answered⟩ := turn_ok stepped
  rw [List.length_append, List.length_singleton]
  exact transcript_answered transcript answered

/-- The number of steps that fit into the duration, the last one begun within it. -/
def LoopParams.rounds (params : LoopParams Coord) : Nat :=
  ((⌊params.durationS * 1000000000⌋ + params.stepMs * 1000000 - 1) /
    (params.stepMs * 1000000)).toNat

/-- Steps of 10 ms for 20 ms. -/
def briefly : LoopParams Int := { wholeMetres with durationS := 1 / 50, sentTime := .unbounded }

/-- A turn of one robot that publishes nothing and receives nothing. -/
def silent : Turn 1 Int where
  ok := true
  before := []
  send := .taken
  results := [.received ⟨['\r', '\n'], by decide, by decide⟩]
  during := []
  bye := .taken

end Sidewalk.Bridge
