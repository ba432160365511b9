import Nachos.KernelLib.DeviceLog
import Nachos.Network.MailDelivery

/-! Threads that send letters at the same time: `PostOfficeOutput::Send` keeps the lock from its
call of the device until the interrupt that tells that the next packet can go.
-/

namespace Nachos.Network
open Bytes Outcome SynchDevice

/-- A call of `Send`, with what `new` returns for the buffers, and whether the packet is kept. -/
structure SendCall where
  pktHdr : PacketHeader
  mailHdr : MailHeader
  data : Buffer
  fresh : Buffer
  wire : Buffer
  kept : Bool

/-- A call of `NetworkOutput::Send`. -/
structure Packet where
  hdr : PacketHeader
  data : Buffer
  wire : Buffer
  kept : Bool

namespace PostOfficeOutput

/-- What a packet adds to the sockets: the machine it goes to and the bytes, unless it is lost. -/
def wired (packet : Packet) : List (Address × Buffer) :=
  if packet.kept then
    [(packet.hdr.toHost,
      concatenate packet.wire packet.hdr.words packet.data packet.hdr.length.toNat)]
  else []

/-- What the device asserts about a packet. -/
def Accepts (hostName : Address) (packet : Packet) : Prop :=
  0 < packet.hdr.length.toNat ∧ packet.hdr.length.toNat ≤ maxPacketSize
    ∧ packet.hdr.fromHost = hostName

instance (hostName : Address) : DecidablePred (Accepts hostName) :=
  fun _ => inferInstanceAs (Decidable (_ ∧ _ ∧ _))

/-- `NetworkOutput::Send`. `sendBusy`, which no function sets, is not what keeps threads apart:
`busy` records that an interrupt is scheduled, and is not tested.
-/
def send (hostName : Address) (packet : Packet) (device : BusyDevice (List (Address × Buffer)))
    : Except Fault (Unit × BusyDevice (List (Address × Buffer))) := do
  require (Accepts hostName packet) .assertion
  return ((),
    {
      busy := true
      medium := device.medium ++ wired packet
      scheduled := device.scheduled + 1
      requested := device.requested + 1
      completed := device.completed
    })

/-- The assertions of `Send` before the lock hold. -/
def proper (call : SendCall) : Prop :=
  call.mailHdr.length.toNat ≤ maxMailSize ∧ 0 ≤ call.mailHdr.toBox.toInt

/-- What `Send` does under the lock. -/
def script (hostName : Address) (call : SendCall) : List (Instruction Packet) :=
  match letter hostName call.pktHdr call.mailHdr call.data call.fresh with
  | .ok (hdr, data) => [.request { hdr, data, wire := call.wire, kept := call.kept }, .p]
  | .error _ => []

/-- `Send` on one machine, and `PostOfficeOutput::CallBack`, which signals. -/
def driver (hostName : Address)
    : Driver SendCall Packet Unit (BusyDevice (List (Address × Buffer))) Unit where
  valid := proper
  script := script hostName
  request := send hostName
  pending device := 0 < device.scheduled
  callBack _ device := .ok device.callBack

instance (hostName : Address) : DecidablePred (driver hostName).valid :=
  fun call => inferInstanceAs (Decidable (call.mailHdr.length.toNat ≤ maxMailSize ∧ _))

instance (hostName : Address) : DecidablePred (driver hostName).pending :=
  fun device => inferInstanceAs (Decidable (0 < device.scheduled))

def effect (packet : Packet) (sockets : List (Address × Buffer))
    : Unit × List (Address × Buffer) :=
  ((), sockets ++ wired packet)

/-- The packet of a call, whole and with the letter in it. -/
theorem script_of_proper {call : SendCall} (valid : proper call) (hostName : Address)
    : ∃ packet, script hostName call = [.request packet, .p]
      ∧ Accepts hostName packet
      ∧ packet.kept = call.kept
      ∧ packet.wire = call.wire
      ∧ Addressed call.pktHdr.toHost packet.hdr packet.data
      ∧ Mail.read packet.hdr packet.data
        = Mail.sent hostName call.pktHdr call.mailHdr call.data := by
  obtain ⟨hdr, data, made, addressed, fromHost, read⟩ :=
    addressed_of_letter valid.1 valid.2 hostName call.pktHdr call.data call.fresh
  have positive : 0 < hdr.length.toNat := by
    have length := addressed.length
    unfold headerSize at length
    omega
  refine ⟨⟨hdr, data, call.wire, call.kept⟩, ?_, ⟨positive, addressed.length_le, fromHost⟩, rfl,
    rfl, addressed, read⟩
  rw [script, made]

/-- A call of `Send` is one request, which the network serves when it is idle. -/
theorem drives (hostName : Address) : Drives (driver hostName) (Accepts hostName) effect where
  script valid := by
    obtain ⟨packet, same, accepts, -⟩ := script_of_proper valid hostName
    change Alternates _ (script hostName _)
    rw [same]
    exact .cons accepts .nil
  request := by
    intro packet device accepts idle
    rw [BusyDevice.serve_of idle trivial]
    exact bind_ok (require_of accepts _) _
  pending := id
  callBack := rfl

theorem appends : Appends effect wired := fun _ _ => rfl

/-- What a call adds to the sockets is one packet with its letter, or nothing. -/
theorem entries_of_proper {call : SendCall} (valid : proper call) (hostName : Address)
    : ∃ packet, entries (driver hostName) wired call
        = (if call.kept then [(call.pktHdr.toHost, packet)] else [])
      ∧ Mail.ofWire packet = Mail.sent hostName call.pktHdr call.mailHdr call.data := by
  obtain ⟨packet, made, -, kept, -, addressed, read⟩ := script_of_proper valid hostName
  refine ⟨concatenate packet.wire packet.hdr.words packet.data packet.hdr.length.toNat, ?_, ?_⟩
  · have requested : requests ((driver hostName).script call) = [packet] := congrArg requests made
    rw [entries, requested, List.flatMap_singleton, wired, kept, addressed.toHost]
  · have copied := @Addressed.copy _
      (behind (concatenate packet.wire packet.hdr.words packet.data packet.hdr.length.toNat)) _ _
      addressed (fun offset small => behind_concatenate small)
    rw [Mail.ofWire, PacketHeader.read_concatenate, copied.2, read]

/-- Calls of `Send` by any threads of a machine: no assertion fails, every packet goes out whole,
in the order in which the calls acquired the lock, and a call returns after the interrupt for its
packet.
-/
theorem send_atomic {ι : Type} [DecidableEq ι] (hostName : Address)
    (state : State ι SendCall Packet Unit (BusyDevice (List (Address × Buffer))))
    (reachable : Runs.Reachable (driver hostName).Step (initial (BusyDevice.new [])) state)
    : (∀ action, (driver hostName).Legal state action
        → ∃ after, (driver hostName).perform state action = .ok after)
      ∧ (∃ added,
          state.device.medium
            = (state.returned.map Prod.fst).flatMap (entries (driver hostName) wired) ++ added
          ∧ (state.acquired = state.returned.map Prod.fst ∧ added = []
              ∨ ∃ call, state.acquired = state.returned.map Prod.fst ++ [call]
                ∧ added <+: entries (driver hostName) wired call)
          ∧ ∀ t call outputs, state.threads t = .releasing call outputs
            → state.acquired = state.returned.map Prod.fst ++ [call]
              ∧ added = entries (driver hostName) wired call)
      ∧ (∀ t call outputs, state.threads t = .releasing call outputs
        → state.device.completed = state.device.requested)
      ∧ ∀ call, proper call
        → ∃ packet, entries (driver hostName) wired call
            = (if call.kept then [(call.pktHdr.toHost, packet)] else [])
          ∧ Mail.ofWire packet = Mail.sent hostName call.pktHdr call.mailHdr call.data := by
  obtain ⟨current, holds⟩ :=
    (drives hostName).protocol.holds_of_reachable (InStep.idle Alternates.nil) reachable
  refine ⟨?_, appends.log_of_holds holds, fun _ _ _ releasing =>
    completed_of_releasing holds releasing, fun _ valid => entries_of_proper valid hostName⟩
  intro action legal
  obtain ⟨after, performed, -⟩ := holds.perform (drives hostName).protocol legal
  exact ⟨after, performed⟩

/-- One thread sends, and another waits for the lock meanwhile. -/
theorem send_atomic_two_threads
    : ∃ state : State Bool SendCall Packet Unit (BusyDevice (List (Address × Buffer))),
        state.lock.queue = [true]
        ∧ state.device.medium.map Prod.fst = [1#32]
        ∧ state.device.completed = state.device.requested := by
  let call : SendCall :=
    {
      pktHdr := ⟨1#32, 0#32, 0#32⟩
      mailHdr := ⟨0#32, 0#32, 1#32⟩
      data := fun _ => 65
      fresh := fun _ => 0
      wire := fun _ => 0
      kept := true
    }
  let actions : List (SynchDevice.Action Bool SendCall Unit) :=
    [.begin false call, .begin true call, .advance false, .advance true, .advance false,
      .advance false, .advance false, .interrupt (), .advance false, .advance false]
  have reachable :=
    @Runs.Reachable.of_follow _ _ _ _ _ _ (driver 0#32).next
      (fun _ _ _ => (driver 0#32).step_of_next) actions (.refl (initial (BusyDevice.new []))) rfl
  exact ⟨_, rfl, rfl, (send_atomic 0#32 _ reachable).2.2.1 false _ _ rfl⟩

end PostOfficeOutput

end Nachos.Network
