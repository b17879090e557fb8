import Mathlib.Algebra.Ring.Nat
import Mathlib.Logic.Function.Basic
import Mathlib.Data.List.FinRange
import Sidewalk.Foundation.AssocMap
import Sidewalk.Foundation.Run
import Sidewalk.Protocol.Delivery

/-!
Owns the model of `RobotGateway`: its state, the trace sinks `HandleTx` and
`HandleRx`, `DoUpdate` with its loop over the robots, and the events that drive
it.

Does not own `ns3::Gateway`, `ExternalMobilityModel` nor
`TriggeredSendApplication`: the state records the calls they receive, and the
packets an application emits inside `Send` are part of the event. Does not own
the conversion of coordinates: `std::stod` is a parameter. The log line is left
out. `main` creates the robots from a `uint16_t`, so the index arithmetic does
not wrap.
-/

set_option autoImplicit false

namespace Sidewalk.Gateway

open Sidewalk.Foundation Sidewalk.Protocol

/-- `ns3::Seconds`. An `ns3::Time` is its number of nanoseconds. -/
def seconds (count : Int) : Int := count * 1000000000

/-- `Time::GetMicroSeconds`, which divides with truncation. -/
def getMicroSeconds (time : Int) : Int := time.tdiv 1000

/-- `Packet::GetUid`. -/
abbrev Uid := Nat

/-- `RobotGateway::TxRecord`. -/
structure TxRecord (n : Nat) where
  robot : Fin n
  time : Int
deriving DecidableEq, Repr

/-- What the gateway finds in its environment: the time before which it ignores
send requests, which robot nodes carry an `ExternalMobilityModel`, and
`std::stod`. -/
structure Config (n : Nat) (Coord : Type) where
  txEnable : Int
  hasMobility : Fin n → Bool
  stod : Text → Except Decimal.ConversionError Coord

/-- How an update ends the program. -/
inductive Fault where
  /-- `NS_ABORT_MSG_IF` -/
  | abort (message : Text)
  /-- `data[k]` beyond the end -/
  | noField (index : Nat)
  /-- an exception of `std::stod` or `std::stoi` -/
  | conversion (error : Decimal.ConversionError)
deriving DecidableEq, Repr

/-- `RobotGateway`, together with what its base class and the robots have been
told: the values of the next response, the responses sent, the position of each
robot, and the calls of `Send(1)` with their times. -/
structure RobotGateway (n : Nat) (Coord : Type) where
  tx : AssocMap Uid (TxRecord n)
  deliveries : Fin n → Text
  numTx : Nat
  numRx : Nat
  values : Fin n → Text
  responses : List (Fin n → Text)
  positions : Fin n → Option (Coord × Coord × Coord)
  sends : List (Fin n × Int)

variable {n : Nat} {Coord : Type}

/-- A gateway just constructed. -/
def RobotGateway.initial (n : Nat) (Coord : Type) : RobotGateway n Coord where
  tx := AssocMap.empty
  deliveries := fun _ => []
  numTx := 0
  numRx := 0
  values := fun _ => []
  responses := []
  positions := fun _ => none
  sends := []

/-! ## Trace sinks -/

/-- `RobotGateway::HandleTx`. -/
def handleTx (gateway : RobotGateway n Coord) (robot : Fin n) (uid : Uid) (now : Int) :
    RobotGateway n Coord :=
  { gateway with tx := gateway.tx.assign uid ⟨robot, now⟩, numTx := gateway.numTx + 1 }

/-- The delivery that `HandleRx` reports for a packet with the given record. -/
def deliveryOf (record : TxRecord n) (now : Int) : Delivery :=
  ⟨record.robot, getMicroSeconds (now - record.time)⟩

/-- The append of `HandleRx` to the receiver's string: a `;` unless it is empty,
then the delivery. -/
def appendDelivery (field : Text) (delivery : Delivery) : Text :=
  Delimited.appendItem ';' field delivery.text

/-- `RobotGateway::HandleRx`. -/
def handleRx (gateway : RobotGateway n Coord) (robot : Fin n) (uid : Uid) (now : Int) :
    RobotGateway n Coord :=
  match gateway.tx.find? uid with
  | none => gateway
  | some record =>
      { gateway with
        deliveries := Function.update gateway.deliveries robot
          (appendDelivery (gateway.deliveries robot) (deliveryOf record now))
        numRx := gateway.numRx + 1 }

/-! ## Updates -/

/-- The constant `FIELDS` of `DoUpdate`: x y z send. -/
def fieldsPerRobot : Nat := 4

/-- What one robot's fields ask for. -/
structure Command (Coord : Type) where
  position : Coord × Coord × Coord
  send : Int

/-- `data[k]`. -/
def fieldAt (data : List Text) (index : Nat) : Except Fault Text :=
  match data[index]? with
  | none => .error (.noField index)
  | some text => .ok text

/-- A conversion whose exception nobody catches. -/
def converted {α : Type} : Except Decimal.ConversionError α → Except Fault α
  | .error error => .error (.conversion error)
  | .ok value => .ok value

/-- The part of the loop body that reads robot `i`: its mobility model and its
four fields. -/
def readRobot (config : Config n Coord) (data : List Text) (i : Fin n) :
    Except Fault (Command Coord) := do
  let k := i * fieldsPerRobot
  if config.hasMobility i then
    let x ← converted (config.stod (← fieldAt data k))
    let y ← converted (config.stod (← fieldAt data (k + 1)))
    let z ← converted (config.stod (← fieldAt data (k + 2)))
    let send ← converted (Decimal.stoi (← fieldAt data (k + 3)))
    return ⟨(x, y, z), send⟩
  else
    .error (.abort ("robot ".toList ++ Decimal.ofNat i ++ " has no ExternalMobilityModel".toList))

/-- Whether a command makes its robot transmit: `std::stoi(..) && now >= m_txEnable`. -/
def Command.triggers (command : Command Coord) (config : Config n Coord) (now : Int) : Prop :=
  command.send ≠ 0 ∧ config.txEnable ≤ now

instance (command : Command Coord) (config : Config n Coord) (now : Int) :
    Decidable (command.triggers config now) :=
  inferInstanceAs (Decidable (_ ∧ _))

/-- `Send(1)` on the application of robot `i`, which emits the packets `uids`
before it returns; each reaches `HandleTx`. -/
def triggerSend (gateway : RobotGateway n Coord) (i : Fin n) (uids : List Uid) (now : Int) :
    RobotGateway n Coord :=
  uids.foldl (fun gateway uid => handleTx gateway i uid now)
    { gateway with sends := gateway.sends ++ [(i, now)] }

/-- The part of the loop body that acts on robot `i`. -/
def applyRobot (config : Config n Coord) (now : Int) (emitted : Fin n → List Uid)
    (gateway : RobotGateway n Coord) (i : Fin n) (command : Command Coord) :
    RobotGateway n Coord :=
  let placed :=
    { gateway with positions := Function.update gateway.positions i (some command.position) }
  let sent := if command.triggers config now then triggerSend placed i (emitted i) now else placed
  { sent with
    values := Function.update sent.values i (sent.deliveries i)
    deliveries := Function.update sent.deliveries i [] }

/-- One turn of the loop of `DoUpdate`. -/
def updateRobot (config : Config n Coord) (now : Int) (data : List Text)
    (emitted : Fin n → List Uid) (gateway : RobotGateway n Coord) (i : Fin n) :
    Except Fault (RobotGateway n Coord) :=
  match readRobot config data i with
  | .error fault => .error fault
  | .ok command => .ok (applyRobot config now emitted gateway i command)

/-- `SendResponse`: the current values go out. -/
def sendResponse (gateway : RobotGateway n Coord) : RobotGateway n Coord :=
  { gateway with responses := gateway.responses ++ [gateway.values] }

/-- The condition of the purge: older than a second. -/
def expired (now : Int) (record : TxRecord n) : Bool := now - record.time > seconds 1

/-- The loop that forgets old transmissions. -/
def purge (now : Int) (gateway : RobotGateway n Coord) : RobotGateway n Coord :=
  { gateway with tx := gateway.tx.eraseWhere (expired now) }

/-- `RobotGateway::DoUpdate`. `emitted i` are the packets that robot `i` emits if
its `Send` is called. -/
def doUpdate (config : Config n Coord) (now : Int) (data : List Text)
    (emitted : Fin n → List Uid) (gateway : RobotGateway n Coord) :
    Except Fault (RobotGateway n Coord) :=
  if data.length < fieldsPerRobot * n then
    .error (.abort ("gateway update has ".toList ++ Decimal.ofNat data.length ++
      " fields, expected ".toList ++ Decimal.ofNat (fieldsPerRobot * n)))
  else
    match Run.run (updateRobot config now data emitted) gateway (List.finRange n) with
    | .error fault => .error fault
    | .ok updated => .ok (purge now (sendResponse updated))

/-- `RobotGateway::DoInitialize`. -/
def doInitialize (config : Config n Coord) (now : Int) (data : List Text)
    (emitted : Fin n → List Uid) (gateway : RobotGateway n Coord) :
    Except Fault (RobotGateway n Coord) :=
  doUpdate config now data emitted gateway

/-! ## Events -/

/-- A call into the gateway. -/
inductive Call (n : Nat) where
  | handleTx (robot : Fin n) (uid : Uid)
  | handleRx (robot : Fin n) (uid : Uid)
  | doInitialize (data : List Text) (emitted : Fin n → List Uid)
  | doUpdate (data : List Text) (emitted : Fin n → List Uid)

/-- A call at a simulation time. -/
structure Event (n : Nat) where
  time : Int
  call : Call n

/-- The effect of one event. -/
def step (config : Config n Coord) (gateway : RobotGateway n Coord) (event : Event n) :
    Except Fault (RobotGateway n Coord) :=
  match event.call with
  | .handleTx robot uid => .ok (handleTx gateway robot uid event.time)
  | .handleRx robot uid => .ok (handleRx gateway robot uid event.time)
  | .doInitialize data emitted => doInitialize config event.time data emitted gateway
  | .doUpdate data emitted => doUpdate config event.time data emitted gateway

/-- The data and the emissions of an event that is an update. -/
def Event.update? (event : Event n) : Option (List Text × (Fin n → List Uid)) :=
  match event.call with
  | .handleTx _ _ => none
  | .handleRx _ _ => none
  | .doInitialize data emitted => some (data, emitted)
  | .doUpdate data emitted => some (data, emitted)

/-- Whether an event is an update, the first one included. -/
def Event.isUpdate (event : Event n) : Bool := event.update?.isSome

end Sidewalk.Gateway
