import Mathlib.Logic.Function.Basic
import Nachos.Lib.Runs
import Nachos.Network.Packets

/-! Machines with post offices on one network: `NetworkOutput::Send` puts packets into the socket
of another machine, `NetworkInput::CallBack` polls the socket, and the postal worker moves what
arrived into the mail boxes.
-/

namespace Nachos.Network
open Bytes Outcome Runs

-----------------------------------------------------------------------------------------
-- The network device
-----------------------------------------------------------------------------------------

structure NetworkOutput where
  sendBusy : Bool
  /-- Interrupts that are scheduled. -/
  scheduled : Nat

/-- `NetworkOutput::Send`: the buffer that goes to the socket, or none when the packet is lost on
purpose. What `new` returned for the buffer is a parameter.
-/
def NetworkOutput.send (hostName : Address) (hdr : PacketHeader) (data buffer : Buffer)
    (works : Bool) (output : NetworkOutput)
    : Except Fault (Option Buffer × NetworkOutput) := do
  require
    (output.sendBusy = false ∧ 0 < hdr.length.toNat ∧ hdr.length.toNat ≤ maxPacketSize
      ∧ hdr.fromHost = hostName)
    .assertion
  let scheduled := { output with scheduled := output.scheduled + 1 }
  if works then return (some (concatenate buffer hdr.words data hdr.length.toNat), scheduled)
  else return (none, scheduled)

/-- `NetworkOutput::CallBack`, which signals `messageSent`. -/
def NetworkOutput.callBack (output : NetworkOutput) : NetworkOutput :=
  { sendBusy := false, scheduled := output.scheduled - 1 }

structure NetworkInput where
  /-- The packets in `sock`, each of `MaxWireSize` bytes. -/
  sock : List Buffer
  inHdr : PacketHeader
  inbox : Buffer

/-- `NetworkInput::CallBack`, and whether it calls back the post office. -/
def NetworkInput.callBack (hostName : Address) (input : NetworkInput)
    : Except Fault (Bool × NetworkInput) :=
  if input.inHdr.length ≠ 0#32 then return (false, input)
  else
    match input.sock with
    | [] => return (false, input)
    | buffer :: rest => do
        let inHdr := PacketHeader.read buffer
        require (inHdr.toHost = hostName ∧ inHdr.length.toNat ≤ maxPacketSize) .assertion
        return (true,
          {
            sock := rest
            inHdr
            inbox := blit input.inbox 0 (behind buffer) inHdr.length.toNat
          })

/-- `NetworkInput::Receive` into `data`. -/
def NetworkInput.receive (data : Buffer) (input : NetworkInput)
    : PacketHeader × Buffer × NetworkInput :=
  (input.inHdr,
    if input.inHdr.length ≠ 0#32 then blit data 0 input.inbox input.inHdr.length.toNat else data,
    { input with inHdr := { input.inHdr with length := 0#32 } })

-----------------------------------------------------------------------------------------
-- The post office
-----------------------------------------------------------------------------------------

/-- Where the postal worker is in the loop of `PostalDelivery`. -/
inductive Worker where
  /-- Before or in `messageAvailable->P()`. -/
  | waiting
  /-- Before `network->Receive`. -/
  | receiving
  /-- Behind `network->Receive`, with what it returned. -/
  | delivering (pktHdr : PacketHeader)
  deriving DecidableEq

theorem Worker.delivering_iff (worker : Worker)
    : worker ≠ .waiting ∧ worker ≠ .receiving ↔ ∃ pktHdr, worker = .delivering pktHdr := by
  cases worker with
  | waiting => simp
  | receiving => simp
  | delivering pktHdr => simp

structure PostOfficeInput where
  network : NetworkInput
  boxes : Nat → List Mail
  /-- The value of the semaphore. -/
  messageAvailable : Nat
  worker : Worker
  /-- The `buffer` of the worker. -/
  buffer : Buffer

namespace PostOfficeInput

/-- The interrupt of the network input, and `V` when it calls back. -/
def poll (hostName : Address) (office : PostOfficeInput) : Except Fault PostOfficeInput := do
  let (arrived, network) ← office.network.callBack hostName
  return {
    office with
    network
    messageAvailable :=
      if arrived then office.messageAvailable + 1 else office.messageAvailable
  }

/-- The worker comes through `P`. -/
def awake (office : PostOfficeInput) : PostOfficeInput :=
  { office with messageAvailable := office.messageAvailable - 1, worker := .receiving }

/-- `pktHdr = network->Receive(buffer)`. -/
def fetch (office : PostOfficeInput) : PostOfficeInput :=
  let (pktHdr, buffer, network) := office.network.receive office.buffer
  { office with network, buffer, worker := .delivering pktHdr }

/-- `MailBox::Put`. -/
def put (box : Nat) (mail : Mail) (office : PostOfficeInput) : PostOfficeInput :=
  { office with boxes := Function.update office.boxes box (office.boxes box ++ [mail]) }

/-- The rest of a turn of the loop of `PostalDelivery`. -/
def deliver (numBoxes : Int) (pktHdr : PacketHeader) (office : PostOfficeInput)
    : Except Fault PostOfficeInput := do
  let mailHdr := MailHeader.read office.buffer
  require (0 ≤ mailHdr.toBox.toInt ∧ mailHdr.toBox.toInt < numBoxes) .assertion
  require (mailHdr.length.toNat ≤ maxMailSize) .assertion
  let mail ← Mail.new pktHdr mailHdr (behind office.buffer)
  return { office.put mailHdr.toBox.toInt.toNat mail with worker := .waiting }

/-- `Receive` from a box with the given letter in front, on which it does not wait. -/
def receive (numBoxes box : Int) (mail : Mail) (office : PostOfficeInput)
    : Except Fault PostOfficeInput := do
  require (0 ≤ box ∧ box < numBoxes) .assertion
  require (mail.mailHdr.length.toNat ≤ maxMailSize) .assertion
  return {
    office with
    boxes := Function.update office.boxes box.toNat (office.boxes box.toNat).tail
  }

end PostOfficeInput

-----------------------------------------------------------------------------------------
-- Machines
-----------------------------------------------------------------------------------------

/-- Every machine with its two halves of the post office. -/
structure Machines where
  outputs : Address → NetworkOutput
  inputs : Address → PostOfficeInput

inductive Action where
  /-- A thread sends a letter with the given contents. The packet is kept unless the device loses
  it, or the socket of the other machine does not take it.
  -/
  | send (hostName : Address) (pktHdr : PacketHeader) (mailHdr : MailHeader)
      (data fresh wire : Buffer) (kept : Bool)
  /-- The interrupt of the network output. -/
  | sent (hostName : Address)
  | poll (hostName : Address)
  | awake (hostName : Address)
  | fetch (hostName : Address)
  | deliver (hostName : Address)
  /-- A thread gets a letter out of a box. -/
  | receive (hostName : Address) (box : Int) (mail : Mail)

namespace Machines

def setInput (hostName : Address) (office : PostOfficeInput) (machines : Machines) : Machines :=
  { machines with inputs := Function.update machines.inputs hostName office }

def setOutput (hostName : Address) (output : NetworkOutput) (machines : Machines) : Machines :=
  { machines with outputs := Function.update machines.outputs hostName output }

/-- A packet into the socket of another machine. -/
def toSocket (hostName : Address) (packet : Buffer) (machines : Machines) : Machines :=
  let office := machines.inputs hostName
  machines.setInput hostName
    { office with network := { office.network with sock := office.network.sock ++ [packet] } }

/-- `PostOfficeOutput::Send` between its lock and `messageSent->P()`. -/
def send (hostName : Address) (pktHdr : PacketHeader) (mailHdr : MailHeader)
    (data fresh wire : Buffer) (kept : Bool) (machines : Machines)
    : Except Fault Machines := do
  let (header, contents) ← letter hostName pktHdr mailHdr data fresh
  let (packet, output) ← (machines.outputs hostName).send hostName header contents wire kept
  let sent := machines.setOutput hostName output
  match packet with
  | none => return sent
  | some packet => return sent.toSocket header.toHost packet

/-- Actions that are under way: interrupts that are scheduled, and threads that need not wait. -/
def Ready (numBoxes : Address → Int) (machines : Machines) : Action → Prop
  | .send .. => True
  | .sent hostName => 0 < (machines.outputs hostName).scheduled
  | .poll _ => True
  | .awake hostName =>
      (machines.inputs hostName).worker = .waiting
      ∧ 0 < (machines.inputs hostName).messageAvailable
  | .fetch hostName => (machines.inputs hostName).worker = .receiving
  | .deliver hostName => ∃ pktHdr, (machines.inputs hostName).worker = .delivering pktHdr
  | .receive hostName box mail =>
      0 ≤ box ∧ box < numBoxes hostName
      → ((machines.inputs hostName).boxes box.toNat).head? = some mail

instance (numBoxes : Address → Int) (machines : Machines)
    : DecidablePred (machines.Ready numBoxes)
  | .send .. => isTrue trivial
  | .sent hostName => inferInstanceAs (Decidable (0 < (machines.outputs hostName).scheduled))
  | .poll _ => isTrue trivial
  | .awake hostName =>
      inferInstanceAs (Decidable ((machines.inputs hostName).worker = .waiting ∧ _))
  | .fetch hostName => inferInstanceAs (Decidable ((machines.inputs hostName).worker = .receiving))
  | .deliver hostName =>
      decidable_of_iff ((machines.inputs hostName).worker ≠ .waiting
          ∧ (machines.inputs hostName).worker ≠ .receiving)
        (Worker.delivering_iff _)
  | .receive hostName box mail =>
      inferInstanceAs (Decidable (0 ≤ box ∧ box < numBoxes hostName
        → ((machines.inputs hostName).boxes box.toNat).head? = some mail))

def perform (numBoxes : Address → Int) (machines : Machines) : Action → Except Fault Machines
  | .send hostName pktHdr mailHdr data fresh wire kept =>
      machines.send hostName pktHdr mailHdr data fresh wire kept
  | .sent hostName =>
      return machines.setOutput hostName (machines.outputs hostName).callBack
  | .poll hostName => do
      return machines.setInput hostName (← (machines.inputs hostName).poll hostName)
  | .awake hostName => return machines.setInput hostName (machines.inputs hostName).awake
  | .fetch hostName => return machines.setInput hostName (machines.inputs hostName).fetch
  | .deliver hostName =>
      match (machines.inputs hostName).worker with
      | .delivering pktHdr => do
          return machines.setInput hostName
            (← (machines.inputs hostName).deliver (numBoxes hostName) pktHdr)
      | _ => return machines
  | .receive hostName box mail => do
      return machines.setInput hostName
        (← (machines.inputs hostName).receive (numBoxes hostName) box mail)

/-- One action that is under way and stops no machine. -/
def Step (numBoxes : Address → Int) (machines : Machines) (action : Action) (after : Machines)
    : Prop :=
  machines.Ready numBoxes action ∧ machines.perform numBoxes action = .ok after

/-- The state after an action that is under way and stops no machine. -/
def attempt (numBoxes : Address → Int) (machines : Machines) (action : Action) : Option Machines :=
  if machines.Ready numBoxes action then (machines.perform numBoxes action).toOption else none

theorem step_of_attempt {numBoxes : Address → Int} {machines after : Machines} {action : Action}
    (computed : machines.attempt numBoxes action = some after)
    : machines.Step numBoxes action after :=
  of_attempt computed

/-- Every machine as its constructors leave it: sockets and boxes are empty, and what memory held
is unknown.
-/
structure Initial (machines : Machines) : Prop where
  output : ∀ hostName, machines.outputs hostName = { sendBusy := false, scheduled := 0 }
  sock : ∀ hostName, (machines.inputs hostName).network.sock = []
  inHdr : ∀ hostName, (machines.inputs hostName).network.inHdr.length = 0#32
  boxes : ∀ hostName box, (machines.inputs hostName).boxes box = []
  messageAvailable : ∀ hostName, (machines.inputs hostName).messageAvailable = 0
  worker : ∀ hostName, (machines.inputs hostName).worker = .waiting

end Machines

end Nachos.Network
