import Sidewalk.Bridge.Message
import Sidewalk.Bridge.Reply
import Sidewalk.Gateway.ExactlyOnce

/-!
Owns the lock-step of the bridge and the gateway: a round builds a step message,
lets ns-3 run to its time with the packets that arrive on the way, updates the
gateway once and handles the reply. Pose callbacks come before the message or
while the bridge waits for the reply; later ones belong to the next round.

Does not own `ns3::Gateway`: how it reads a message and writes a reply are
parameters, with the protocol the comments of both sides state as their laws.
The reply reaches `handleReply` as the line `recvLine` returns.
-/

set_option autoImplicit false

namespace Sidewalk.Cosim

open Sidewalk.Foundation Sidewalk.Protocol Sidewalk.Bridge Sidewalk.Gateway

/-! ## Parameters and their laws -/

/-- `ns3::Gateway`: the time and the data of a message, and the reply to an update. -/
structure Base where
  receive : Text → Option (Int × List Text)
  respond : List Text → Text

/-- A field that separators and terminators cannot cut. -/
def Plain (field : Text) : Prop := field ≠ [] ∧ ' ' ∉ field ∧ '\r' ∉ field ∧ '\n' ∉ field

/-- The protocol: messages are `sec nsec` and the fields, separated by spaces and
ended by `"\r\n"`; a reply is its fields, separated by spaces. -/
structure Base.Lawful (base : Base) : Prop where
  receive_message : ∀ (sec nsec : Int) (fields : List Text), 0 ≤ sec → 0 ≤ nsec →
    (∀ field ∈ fields, Plain field) →
    base.receive ([' '].intercalate (Decimal.ofInt sec :: Decimal.ofInt nsec :: fields) ++
      ['\r', '\n']) = some (sec * 1000000000 + nsec, fields)
  respond_values : ∀ values, base.respond values = [' '].intercalate values

/-- A base class that follows the protocol and does nothing else. -/
def textBase : Base where
  receive message :=
    match message.dropLast.dropLast.splitOn ' ' with
    | sec :: nsec :: fields =>
        match Decimal.strtoll sec, Decimal.strtoll nsec with
        | some sec, some nsec => some (sec * 1000000000 + nsec, fields)
        | _, _ => none
    | _ => none
  respond values := [' '].intercalate values

theorem textBase_lawful : textBase.Lawful where
  receive_message sec nsec fields _ _ plain := by
    have noSpace : ∀ field ∈ Decimal.ofInt sec :: Decimal.ofInt nsec :: fields, ' ' ∉ field := by
      intro field member
      simp only [List.mem_cons] at member
      rcases member with rfl | rfl | member
      · exact Decimal.not_mem_ofInt _ (by decide) (by decide)
      · exact Decimal.not_mem_ofInt _ (by decide) (by decide)
      · exact (plain field member).2.1
    have stripped : (([' '].intercalate (Decimal.ofInt sec :: Decimal.ofInt nsec :: fields) ++
        ['\r', '\n']).dropLast.dropLast).splitOn ' ' =
          Decimal.ofInt sec :: Decimal.ofInt nsec :: fields := by
      rw [List.dropLast_append_of_ne_nil (List.cons_ne_nil _ _), List.dropLast_cons_of_ne_nil
        (List.cons_ne_nil _ _), List.dropLast_singleton, List.dropLast_concat]
      exact List.splitOn_intercalate ' ' noSpace (List.cons_ne_nil _ _)
    simp only [textBase, stripped, Decimal.strtoll_ofInt]
  respond_values _ := rfl

/-- Printing a coordinate gives a plain field that `std::stod` reads as the
printed value. -/
structure Prints {Coord : Type} (print : Coord → Text)
    (stod : Text → Except Decimal.ConversionError Coord) (printed : Coord → Coord) : Prop where
  plain : ∀ value, Plain (print value)
  stod_print : ∀ value, stod (print value) = .ok (printed value)

/-- What the two processes are started with. `origin` is the default pose, and
`printed` the value of a coordinate once printed. -/
structure Setting (n : Nat) (Coord : Type) where
  params : Params Coord
  config : Config n Coord
  base : Base
  origin : Pose Coord
  printed : Coord → Coord

/-- The laws of the parameters, and the widths of `int`. -/
structure Setting.Lawful {n : Nat} {Coord : Type} (setting : Setting n Coord) : Prop where
  base : setting.base.Lawful
  prints : Prints setting.params.print setting.config.stod setting.printed
  mobility : ∀ i, setting.config.hasMobility i = true
  fewRobots : n < 2 ^ 31
  shortStep : setting.params.stepMs < 2 ^ 31

/-! ## Rounds -/

/-- A packet that reaches a robot's sink. -/
structure Arrival (n : Nat) where
  time : Int
  robot : Fin n
  uid : Uid

/-- What happens around one step message: the callbacks before it, the packets
that arrive while ns-3 runs to its time, the packet each `Send(1)` emits, and the
callbacks before its reply is handled. -/
structure Round (n : Nat) (Coord : Type) where
  before : List (PoseCall n Coord)
  arrivals : List (Arrival n)
  packet : Fin n → Option Uid
  during : List (PoseCall n Coord)

/-- The two processes between rounds, and the simulation time of the next step. -/
structure Coupled (n : Nat) (Coord : Type) where
  node : BridgeNode n Coord
  gateway : RobotGateway n Coord
  simNs : Int

/-- How a round ends the co-simulation. -/
inductive Fault where
  | message
  | gateway (fault : Gateway.Fault)
  | reply (error : Decimal.ConversionError)
deriving DecidableEq, Repr

variable {n : Nat} {Coord : Type}

def Coupled.initial (setting : Setting n Coord) : Coupled n Coord where
  node := BridgeNode.initial n setting.origin
  gateway := RobotGateway.initial n Coord
  simNs := 0

/-- The receptions of a round. -/
def Round.receives (round : Round n Coord) : List (Gateway.Event n) :=
  round.arrivals.map fun arrival => ⟨arrival.time, .handleRx arrival.robot arrival.uid⟩

/-- The side of ns-3: it runs to the time of the message, updates the gateway with
the message's data and replies with the values set. -/
def serve (setting : Setting n Coord) (gateway : RobotGateway n Coord) (round : Round n Coord)
    (message : Text) : Except Fault (RobotGateway n Coord × Text) :=
  match setting.base.receive message with
  | none => .error .message
  | some (time, data) =>
      match Run.run (Gateway.step setting.config) gateway
          (round.receives ++ [⟨time, .doUpdate data fun i => (round.packet i).toList⟩]) with
      | .error fault => .error (.gateway fault)
      | .ok served => .ok (served, setting.base.respond ((List.finRange n).map served.values))

/-- One turn of the loop of `BridgeNode::run`. -/
def step (setting : Setting n Coord) (system : Coupled n Coord) (round : Round n Coord) :
    Except Fault (Coupled n Coord) :=
  let (message, asked) :=
    stepMessage setting.params system.simNs (callbacks system.node round.before)
  match serve setting system.gateway round message with
  | .error fault => .error fault
  | .ok (gateway, line) =>
      match handleReply setting.params line system.simNs (callbacks asked round.during) with
      | .error error => .error (.reply error)
      | .ok node => .ok ⟨node, gateway, system.simNs + setting.params.stepMs * 1000000⟩

/-- The time of step number `k`. -/
def timeAt (setting : Setting n Coord) (k : Nat) : Int := k * (setting.params.stepMs * 1000000)

/-! ## The callbacks of a run -/

/-- The callbacks made before the last step message of a run was built. -/
def sentCalls (rounds : List (Round n Coord)) : List (PoseCall n Coord) :=
  (rounds.dropLast.flatMap fun round => round.before ++ round.during) ++
    (rounds.getLast?.elim [] Round.before)

/-- The callbacks made since the last step message of a run was built. -/
def sinceCalls (rounds : List (Round n Coord)) : List (PoseCall n Coord) :=
  rounds.getLast?.elim [] Round.during

/-- The callbacks a step message sees for the first time, after the rounds `past`. -/
def freshCalls (past : List (Round n Coord)) (round : Round n Coord) : List (PoseCall n Coord) :=
  sinceCalls past ++ round.before

/-- All callbacks made before the step message of `round`, after the rounds `past`. -/
def messageCalls (past : List (Round n Coord)) (round : Round n Coord) :
    List (PoseCall n Coord) :=
  sentCalls past ++ freshCalls past round

theorem sentCalls_concat (past : List (Round n Coord)) (round : Round n Coord) :
    sentCalls (past ++ [round]) = messageCalls past round := by
  have all : (past.flatMap fun round => round.before ++ round.during) =
      sentCalls past ++ sinceCalls past := by
    induction past using List.reverseRecOn with
    | nil => rfl
    | append_singleton past last _ => simp [sentCalls, sinceCalls]
  rw [messageCalls, freshCalls, ← List.append_assoc, ← all]
  simp [sentCalls]

@[simp] theorem sinceCalls_concat (past : List (Round n Coord)) (round : Round n Coord) :
    sinceCalls (past ++ [round]) = round.during := by
  simp [sinceCalls]

/-- The callbacks made between the message of `sender` and that of `round`, with
the rounds `between` in between. -/
def callsBetween (sender : Round n Coord) (between : List (Round n Coord))
    (round : Round n Coord) : List (PoseCall n Coord) :=
  sender.during ++ (between.flatMap fun round => round.before ++ round.during) ++ round.before

theorem messageCalls_between (earlier between : List (Round n Coord))
    (sender round : Round n Coord) :
    messageCalls (earlier ++ sender :: between) round =
      messageCalls earlier sender ++ callsBetween sender between round := by
  induction between using List.reverseRecOn generalizing round with
  | nil => simp [messageCalls, freshCalls, callsBetween, sentCalls_concat]
  | append_singleton between last inductionHypothesis =>
      have split : earlier ++ sender :: (between ++ [last]) =
          (earlier ++ sender :: between) ++ [last] := by simp
      have unfolded := inductionHypothesis last
      rw [split, messageCalls, sentCalls_concat, unfolded, freshCalls, sinceCalls_concat]
      simp [callsBetween]

/-- A message is built from at least the callbacks of every earlier message. -/
theorem messageCalls_prefix (earlier later : List (Round n Coord)) (sender : Round n Coord) :
    messageCalls earlier sender <+: sentCalls (earlier ++ sender :: later) := by
  rcases List.eq_nil_or_concat later with rfl | ⟨between, last, rfl⟩
  · rw [sentCalls_concat]
  · rw [List.concat_eq_append, ← List.cons_append, ← List.append_assoc, sentCalls_concat,
      messageCalls_between]
    exact List.prefix_append _ _

end Sidewalk.Cosim
