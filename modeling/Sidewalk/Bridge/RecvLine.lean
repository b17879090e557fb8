import Sidewalk.Foundation.Framing
import Sidewalk.Protocol.Delivery

/-!
Owns the model of `BridgeNode::recvLine`: the receive buffer that outlives a
call, the loop that fills it until it holds a terminator, and the line cut off
its front. The lines of a stream are recovered whatever the chunks it arrives in.

Does not own the socket: the results of its `recv` calls are given in advance,
and a call that finds none waits.
-/

set_option autoImplicit false

namespace Sidewalk.Bridge

open Sidewalk.Foundation Sidewalk.Protocol

/-- `"\r\n"`. -/
def terminator : Text := ['\r', '\n']

/-- The size of the array `buf`. -/
def chunkSize : Nat := 65536

/-- The bytes of one successful `recv`: at least one, at most a full buffer. -/
structure Chunk where
  bytes : Text
  nonempty : bytes ≠ []
  fits : bytes.length ≤ chunkSize

/-- The result of one `recv`; `failed` is a count of zero or less. -/
inductive RecvResult where
  | received (chunk : Chunk)
  | failed

/-- The state `recvLine` works on: the caller's `line`, `rx_buf_`, and the results
of the `recv` calls to come. -/
structure Receiver where
  line : Text
  rxBuf : Text
  socket : List RecvResult

/-- The loop `while (rx_buf_.find("\r\n") == npos)`: whether it ends with a
terminator in the buffer (`some true`), with a failed `recv` (`some false`), or
is still waiting (`none`); then the buffer and the results left. -/
def fill (rxBuf : Text) : List RecvResult → Option Bool × Text × List RecvResult
  | [] =>
      if (Framing.find terminator rxBuf).isSome then (some true, rxBuf, []) else (none, rxBuf, [])
  | result :: socket =>
      if (Framing.find terminator rxBuf).isSome then (some true, rxBuf, result :: socket)
      else
        match result with
        | .failed => (some false, rxBuf, socket)
        | .received chunk => fill (rxBuf ++ chunk.bytes) socket

/-- `BridgeNode::recvLine`: what it returns, `none` while it waits, and the state. -/
def recvLine (receiver : Receiver) : Option Bool × Receiver :=
  match fill receiver.rxBuf receiver.socket with
  | (some true, rxBuf, socket) =>
      match Framing.find terminator rxBuf with
      -- does not happen: the loop has ended with a terminator in the buffer
      | none => (some true, ⟨receiver.line, rxBuf, socket⟩)
      | some position =>
          (some true, ⟨rxBuf.take position, rxBuf.drop (position + 2), socket⟩)
  | (outcome, rxBuf, socket) => (outcome, ⟨receiver.line, rxBuf, socket⟩)

/-- Successive calls of `recvLine`, as long as they return true: the lines
returned, the last result, and the state. -/
def recvLines : Nat → Receiver → List Text × Option Bool × Receiver
  | 0, receiver => ([], some true, receiver)
  | count + 1, receiver =>
      match recvLine receiver with
      | (some true, next) =>
          let (lines, outcome, final) := recvLines count next
          (next.line :: lines, outcome, final)
      | (outcome, next) => ([], outcome, next)

/-! ## One call -/

/-- The bytes of a list of chunks. -/
def chunkBytes (chunks : List Chunk) : Text := chunks.flatMap Chunk.bytes

/-- The bytes that a list of `recv` results brings. -/
def bytesOf (results : List RecvResult) : Text :=
  results.flatMap fun
    | .received chunk => chunk.bytes
    | .failed => []

theorem bytesOf_received (chunks : List Chunk) :
    bytesOf (chunks.map RecvResult.received) = chunkBytes chunks := by
  rw [bytesOf, List.flatMap_map]
  rfl

theorem bytesOf_append (before after : List RecvResult) :
    bytesOf (before ++ after) = bytesOf before ++ bytesOf after :=
  List.flatMap_append

/-- The bytes of a list of lines on the wire. -/
def wire (lines : List Text) : Text := lines.flatMap (· ++ terminator)

/-- The loop takes chunks until the buffer holds a terminator, or a `recv` fails,
or there is nothing to take; it never drops a byte. -/
theorem fill_cases (rxBuf : Text) (socket : List RecvResult) :
    ∃ used : List Chunk,
      (∃ left position, socket = used.map .received ++ left ∧
        Framing.find terminator (rxBuf ++ chunkBytes used) = some position ∧
        fill rxBuf socket = (some true, rxBuf ++ chunkBytes used, left)) ∨
      (∃ left, socket = used.map .received ++ .failed :: left ∧
        ¬ terminator <:+: rxBuf ++ chunkBytes used ∧
        fill rxBuf socket = (some false, rxBuf ++ chunkBytes used, left)) ∨
      (socket = used.map .received ∧ ¬ terminator <:+: rxBuf ++ chunkBytes used ∧
        fill rxBuf socket = (none, rxBuf ++ chunkBytes used, [])) := by
  induction socket generalizing rxBuf with
  | nil =>
      refine ⟨[], ?_⟩
      rw [show rxBuf ++ chunkBytes [] = rxBuf from List.append_nil rxBuf]
      cases found : Framing.find terminator rxBuf with
      | none =>
          exact Or.inr (Or.inr
            ⟨rfl, (Framing.find_eq_none_iff _ _).mp found, by simp [fill, found]⟩)
      | some position => exact Or.inl ⟨[], position, rfl, rfl, by simp [fill, found]⟩
  | cons result socket inductionHypothesis =>
      cases found : Framing.find terminator rxBuf with
      | some position =>
          refine ⟨[], Or.inl ⟨result :: socket, position, rfl, ?_, ?_⟩⟩
          · simpa [chunkBytes] using found
          · simp [fill, found, chunkBytes]
      | none =>
          cases result with
          | failed =>
              refine ⟨[], Or.inr (Or.inl ⟨socket, rfl, ?_, ?_⟩)⟩
              · simpa [chunkBytes] using (Framing.find_eq_none_iff _ _).mp found
              · simp [fill, found, chunkBytes]
          | received chunk =>
              obtain ⟨used, spec⟩ := inductionHypothesis (rxBuf ++ chunk.bytes)
              have bytes : rxBuf ++ chunk.bytes ++ chunkBytes used =
                  rxBuf ++ chunkBytes (chunk :: used) := by
                rw [List.append_assoc]
                rfl
              have next : fill rxBuf (.received chunk :: socket) =
                  fill (rxBuf ++ chunk.bytes) socket := by simp [fill, found]
              rw [bytes] at spec
              refine ⟨chunk :: used, ?_⟩
              rw [next]
              rcases spec with ⟨left, position, rfl, spec⟩ | ⟨left, rfl, spec⟩ | ⟨rfl, spec⟩
              · exact Or.inl ⟨left, position, rfl, spec⟩
              · exact Or.inr (Or.inl ⟨left, rfl, spec⟩)
              · exact Or.inr (Or.inr ⟨rfl, spec⟩)

/-- What one call does: it returns a line and cuts it off the bytes, or fails and
keeps them all, or waits and keeps them all. -/
theorem recvLine_cases (receiver : Receiver) :
    ∃ used : List Chunk,
      (∃ line rest left, receiver.socket = used.map .received ++ left ∧
        ¬ terminator <:+: line ∧
        receiver.rxBuf ++ chunkBytes used = line ++ (terminator ++ rest) ∧
        recvLine receiver = (some true, ⟨line, rest, left⟩)) ∨
      (∃ left, receiver.socket = used.map .received ++ .failed :: left ∧
        ¬ terminator <:+: receiver.rxBuf ++ chunkBytes used ∧
        recvLine receiver =
          (some false, ⟨receiver.line, receiver.rxBuf ++ chunkBytes used, left⟩)) ∨
      (receiver.socket = used.map .received ∧
        ¬ terminator <:+: receiver.rxBuf ++ chunkBytes used ∧
        recvLine receiver = (none, ⟨receiver.line, receiver.rxBuf ++ chunkBytes used, []⟩)) := by
  obtain ⟨used, ⟨left, position, socket, found, filled⟩ | ⟨left, socket, none, filled⟩ |
    ⟨socket, none, filled⟩⟩ := fill_cases receiver.rxBuf receiver.socket
  · refine ⟨used, Or.inl ⟨_, _, left, socket, Framing.not_infix_take_find found,
      Framing.find_split found, ?_⟩⟩
    simp only [recvLine, filled, found]
    rfl
  · exact ⟨used, Or.inr (Or.inl ⟨left, socket, none, by simp only [recvLine, filled]⟩)⟩
  · exact ⟨used, Or.inr (Or.inr ⟨socket, none, by simp only [recvLine, filled]⟩)⟩

/-! ## Successive calls -/

/-- Nothing is lost or added: the lines returned with their terminators, then the
buffer, are the bytes received so far, whatever the `recv` calls return. -/
theorem recvLines_conserves (count : Nat) (receiver : Receiver) :
    ∃ used, receiver.socket = used ++ (recvLines count receiver).2.2.socket ∧
      wire (recvLines count receiver).1 ++ (recvLines count receiver).2.2.rxBuf =
        receiver.rxBuf ++ bytesOf used := by
  induction count generalizing receiver with
  | zero => exact ⟨[], rfl, (List.append_nil _).symm⟩
  | succ count inductionHypothesis =>
      unfold recvLines
      obtain ⟨used, ⟨line, rest, left, socket, -, split, called⟩ | ⟨left, socket, -, called⟩ |
        ⟨socket, -, called⟩⟩ := recvLine_cases receiver
      · obtain ⟨later, laterSocket, laterBytes⟩ := inductionHypothesis ⟨line, rest, left⟩
        rw [called]
        refine ⟨used.map .received ++ later, ?_, ?_⟩
        · rw [socket, List.append_assoc]
          exact congrArg (used.map .received ++ ·) laterSocket
        · rw [bytesOf_append, bytesOf_received, ← List.append_assoc, split, wire, List.flatMap_cons,
            List.append_assoc, List.append_assoc, List.append_assoc, List.append_assoc]
          exact congrArg (fun bytes => line ++ (terminator ++ bytes)) laterBytes
      · rw [called]
        refine ⟨used.map .received ++ [.failed], by rw [socket]; simp, ?_⟩
        rw [bytesOf_append, bytesOf_received]
        simp [wire, bytesOf]
      · rw [called]
        exact ⟨used.map .received, by rw [socket]; simp, by rw [bytesOf_received]; rfl⟩

/-- The next line of the stream is returned, however its bytes are chunked. -/
theorem recvLine_next {receiver : Receiver} {chunks : List Chunk} {next rest : Text}
    (socket : receiver.socket = chunks.map .received) (plain : ¬ terminator <:+: next)
    (stream : receiver.rxBuf ++ chunkBytes chunks = next ++ (terminator ++ rest)) :
    ∃ rxBuf left, recvLine receiver = (some true, ⟨next, rxBuf, left.map .received⟩) ∧
      rxBuf ++ chunkBytes left = rest := by
  have different : ('\r' : Char) ≠ '\n' := by decide
  obtain ⟨used, ⟨line, rxBuf, left, split, linePlain, bytes, called⟩ | ⟨left, split, -, -⟩ |
    ⟨split, none, -⟩⟩ := recvLine_cases receiver
  · obtain ⟨taken, remaining, rfl, usedEq, leftEq⟩ :=
      List.map_eq_append_iff.mp (socket.symm.trans split)
    have takenUsed : taken = used :=
      List.map_injective_iff.mpr (fun _ _ equal => RecvResult.received.inj equal) usedEq
    have whole : line ++ '\r' :: '\n' :: (rxBuf ++ chunkBytes remaining) =
        next ++ '\r' :: '\n' :: rest := by
      rw [chunkBytes, List.flatMap_append, ← List.append_assoc, takenUsed] at stream
      have stream' : receiver.rxBuf ++ chunkBytes used ++ chunkBytes remaining =
        next ++ (terminator ++ rest) := stream
      rw [bytes] at stream'
      simpa [terminator] using stream'
    obtain ⟨lineEq, restEq⟩ := Framing.frame_unique different linePlain plain whole
    exact ⟨rxBuf, remaining, by rw [called, lineEq, leftEq], restEq⟩
  · have failed : RecvResult.failed ∈ chunks.map RecvResult.received := by
      rw [← socket, split]
      simp
    simp at failed
  · have all : chunks = used :=
      List.map_injective_iff.mpr (fun _ _ equal => RecvResult.received.inj equal)
        (socket.symm.trans split)
    rw [← all, stream] at none
    exact absurd ⟨next, rest, by simp⟩ none

/-- The lines of a stream are returned one after the other, and what is left is
what follows the last terminator. -/
theorem recvLines_stream {lines : List Text} (plain : ∀ line ∈ lines, ¬ terminator <:+: line)
    {receiver : Receiver} {chunks : List Chunk} {rest : Text}
    (socket : receiver.socket = chunks.map .received)
    (stream : receiver.rxBuf ++ chunkBytes chunks = wire lines ++ rest) :
    ∃ final left, recvLines lines.length receiver = (lines, some true, final) ∧
      final.socket = left.map .received ∧ final.rxBuf ++ chunkBytes left = rest := by
  induction lines generalizing receiver chunks with
  | nil => exact ⟨receiver, chunks, rfl, socket, stream⟩
  | cons line lines inductionHypothesis =>
      have first : receiver.rxBuf ++ chunkBytes chunks =
          line ++ (terminator ++ (wire lines ++ rest)) := by
        rw [stream, wire, List.flatMap_cons, List.append_assoc, List.append_assoc]
        rfl
      obtain ⟨rxBuf, left, called, bytes⟩ := recvLine_next socket (plain line (by simp)) first
      obtain ⟨final, last, later, lastSocket, lastBytes⟩ :=
        inductionHypothesis (fun other member => plain other (by simp [member]))
          (rfl : (⟨line, rxBuf, left.map .received⟩ : Receiver).socket = _) bytes
      refine ⟨final, last, ?_, lastSocket, lastBytes⟩
      rw [List.length_cons, recvLines, called]
      simp only [later]

/-- A failed `recv` before a terminator: the call returns false and keeps the
caller's line and every byte. -/
theorem recvLine_failed {line rxBuf : Text} {before : List Chunk}
    (none : ¬ terminator <:+: rxBuf ++ chunkBytes before) (after : List RecvResult) :
    recvLine ⟨line, rxBuf, before.map .received ++ .failed :: after⟩ =
      (some false, ⟨line, rxBuf ++ chunkBytes before, after⟩) := by
  have filled : fill rxBuf (before.map .received ++ .failed :: after) =
      (some false, rxBuf ++ chunkBytes before, after) := by
    induction before generalizing rxBuf with
    | nil =>
        rw [show rxBuf ++ chunkBytes [] = rxBuf from List.append_nil rxBuf] at none ⊢
        simp [fill, (Framing.find_eq_none_iff _ _).mpr none]
    | cons chunk before inductionHypothesis =>
        have bytes : rxBuf ++ chunkBytes (chunk :: before) =
            rxBuf ++ chunk.bytes ++ chunkBytes before := by
          rw [List.append_assoc]
          rfl
        rw [bytes] at none ⊢
        have begins : rxBuf <+: rxBuf ++ chunk.bytes ++ chunkBytes before := by
          rw [List.append_assoc]
          exact List.prefix_append _ _
        have notYet : ¬ terminator <:+: rxBuf := fun here => none (here.trans begins.isInfix)
        rw [← inductionHypothesis none, List.map_cons, List.cons_append, fill,
          (Framing.find_eq_none_iff _ _).mpr notYet]
        rfl
  simp only [recvLine, filled]

/-- `recvLine` recovers the lines of a stream from any chunking: the calls return
exactly the lines, in order, and at each point the buffer and the bytes to come
are the lines still to be returned. Whatever the socket does, the lines returned
with their terminators and the buffer are the bytes received; a failed `recv`
before a terminator returns false and changes neither. -/
theorem recvLine_recovers_lines (lines : List Text)
    (plain : ∀ line ∈ lines, ¬ terminator <:+: line) (chunks : List Chunk)
    (stream : chunkBytes chunks = wire lines) (line : Text) :
    (∃ final, recvLines lines.length ⟨line, [], chunks.map .received⟩ =
        (lines, some true, final) ∧ final.rxBuf = [] ∧ final.socket = []) ∧
      (∀ returned later, lines = returned ++ later →
        ∃ now left, recvLines returned.length ⟨line, [], chunks.map .received⟩ =
          (returned, some true, now) ∧
          now.socket = left.map .received ∧ now.rxBuf ++ chunkBytes left = wire later) ∧
      (∀ count results, ∃ used,
        let (returned, _, now) := recvLines count ⟨line, [], results⟩
        results = used ++ now.socket ∧ wire returned ++ now.rxBuf = bytesOf used) ∧
      ∀ rxBuf before after, ¬ terminator <:+: rxBuf ++ chunkBytes before →
        recvLine ⟨line, rxBuf, before.map .received ++ .failed :: after⟩ =
          (some false, ⟨line, rxBuf ++ chunkBytes before, after⟩) := by
  have atEach : ∀ returned later, lines = returned ++ later →
      ∃ now left, recvLines returned.length ⟨line, [], chunks.map .received⟩ =
        (returned, some true, now) ∧
        now.socket = left.map .received ∧ now.rxBuf ++ chunkBytes left = wire later := by
    rintro returned later rfl
    rw [wire, List.flatMap_append] at stream
    exact recvLines_stream (fun other member => plain other (by simp [member]))
      (rfl : (⟨line, [], chunks.map .received⟩ : Receiver).socket = _) stream
  refine ⟨?_, atEach, ?_, fun rxBuf before after none => recvLine_failed none after⟩
  · obtain ⟨final, left, called, socket, bytes⟩ := atEach lines [] (List.append_nil lines).symm
    obtain ⟨empty, noBytes⟩ := List.append_eq_nil_iff.mp bytes
    have noChunks : left = [] := by
      cases left with
      | nil => rfl
      | cons chunk left =>
          rw [chunkBytes, List.flatMap_cons] at noBytes
          exact absurd (List.append_eq_nil_iff.mp noBytes).1 chunk.nonempty
    exact ⟨final, called, empty, by rw [socket, noChunks, List.map_nil]⟩
  · intro count results
    exact recvLines_conserves count ⟨line, [], results⟩

/-- A chunk that ends between the two symbols of the terminator. -/
def halfTerminated : Chunk := ⟨['a', '\r', '\r'], by decide, by decide⟩

/-- A chunk that starts with the second symbol of a terminator. -/
def otherHalf : Chunk := ⟨['\n', '\r', '\n'], by decide, by decide⟩

theorem recvLine_recovers_lines_split :
    ∃ final, recvLines 2 ⟨[], [], [.received halfTerminated, .received otherHalf]⟩ =
      ([['a', '\r'], []], some true, final) ∧ final.rxBuf = [] ∧ final.socket = [] :=
  (recvLine_recovers_lines [['a', '\r'], []] (by decide) [halfTerminated, otherHalf] rfl []).1

end Sidewalk.Bridge
