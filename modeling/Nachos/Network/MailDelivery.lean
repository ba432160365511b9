import Nachos.Lib.OrderedDelivery
import Nachos.Network.PostOffice

/-! The post offices deliver letters as their interface promises: a letter may be dropped when it
is sent, and otherwise arrives once, uncorrupted and in order. The device holds one packet, and
the semaphore and the worker always agree on whether one is there.
-/

namespace Nachos.Network
open Bytes Outcome Runs OrderedDelivery

-----------------------------------------------------------------------------------------
-- Letters inside a machine
-----------------------------------------------------------------------------------------

/-- The letter in a packet as it is on the wire. -/
def Mail.ofWire (packet : Buffer) : Mail := Mail.read (PacketHeader.read packet) (behind packet)

/-- The letter in the hands of the worker. -/
def Worker.carried (buffer : Buffer) : Worker → List Mail
  | .delivering pktHdr => [Mail.read pktHdr buffer]
  | _ => []

/-- Turns of `P` that the worker has come through and not made use of. -/
def Worker.woken : Worker → Nat
  | .receiving => 1
  | _ => 0

/-- The letter in the inbox of the device. -/
def NetworkInput.buffered (input : NetworkInput) : List Mail :=
  if input.inHdr.length = 0#32 then [] else [Mail.read input.inHdr input.inbox]

/-- The letters that have reached a machine and are in none of its boxes, the oldest first. -/
def PostOfficeInput.inFlight (office : PostOfficeInput) : List Mail :=
  office.worker.carried office.buffer ++ office.network.buffered
    ++ office.network.sock.map Mail.ofWire

/-- What holds of the receiving half of a machine between actions. -/
structure PostOfficeInput.Sound (hostName : Address) (office : PostOfficeInput) : Prop where
  sock
    : ∀ packet ∈ office.network.sock,
        Addressed hostName (PacketHeader.read packet) (behind packet)
  inbox
    : office.network.inHdr.length ≠ 0#32
      → Addressed hostName office.network.inHdr office.network.inbox
  carried
    : ∀ pktHdr, office.worker = .delivering pktHdr → Addressed hostName pktHdr office.buffer
  boxes : ∀ box, ∀ mail ∈ office.boxes box, mail.mailHdr.length.toNat ≤ maxMailSize
  /-- There is one signal or one woken worker for a packet in the inbox. -/
  signals
    : office.messageAvailable + office.worker.woken
      = if office.network.inHdr.length = 0#32 then 0 else 1

/-- Steps until the worker is done with what it holds. -/
def Worker.work : Worker → Nat
  | .waiting => 0
  | .receiving => 2
  | .delivering _ => 1

/-- Interrupts and steps of the worker until every letter is in its box. -/
def PostOfficeInput.work (office : PostOfficeInput) : Nat :=
  4 * office.network.sock.length + 3 * office.messageAvailable + office.worker.work

namespace PostOfficeInput

variable {hostName : Address} {office after : PostOfficeInput} {pktHdr : PacketHeader}

/-- The interrupt takes a packet into an empty inbox only, and fails no assertion. -/
theorem Sound.poll (sound : Sound hostName office)
    : ∃ after, office.poll hostName = .ok after ∧ Sound hostName after
      ∧ after.inFlight = office.inFlight ∧ after.boxes = office.boxes
      ∧ (office.network.inHdr.length = 0#32 → office.network.sock ≠ []
        → after.work + 1 = office.work) := by
  by_cases empty : office.network.inHdr.length = 0#32
  · cases sock : office.network.sock with
    | nil =>
        refine ⟨office, ?_, sound, rfl, rfl, fun _ full => absurd rfl full⟩
        rw [PostOfficeInput.poll, NetworkInput.callBack, if_neg (not_not.mpr empty), sock]
        rfl
    | cons packet rest =>
        have addressed := sound.sock packet (sock ▸ List.mem_cons_self)
        have copied := addressed.copy (fun offset small =>
          blit_inside office.network.inbox (behind packet) (Nat.zero_le offset)
            (Nat.lt_of_lt_of_eq small (Nat.zero_add _).symm))
        refine ⟨
          {
            office with
            network :=
              {
                sock := rest
                inHdr := PacketHeader.read packet
                inbox := blit office.network.inbox 0 (behind packet)
                  (PacketHeader.read packet).length.toNat
              }
            messageAvailable := office.messageAvailable + 1
          }, ?_, ⟨?_, ?_, sound.carried, sound.boxes, ?_⟩, ?_, rfl, ?_⟩
        · rw [PostOfficeInput.poll, NetworkInput.callBack, if_neg (not_not.mpr empty), sock]
          dsimp only
          rw [bind_ok (require_of ⟨addressed.toHost, addressed.length_le⟩ _)]
          rfl
        · intro other member
          exact sound.sock other (sock ▸ List.mem_cons_of_mem _ member)
        · intro _
          exact copied.1
        · have signals := sound.signals
          rw [if_pos empty] at signals
          rw [if_neg addressed.length_ne]
          change office.messageAvailable + 1 + office.worker.woken = 1
          omega
        · unfold PostOfficeInput.inFlight NetworkInput.buffered
          rw [if_pos empty, if_neg addressed.length_ne, copied.2, sock, List.map_cons,
            List.append_nil, List.append_assoc]
          rfl
        · intro _ _
          simp only [PostOfficeInput.work, sock, List.length_cons]
          omega
  · refine ⟨office, ?_, sound, rfl, rfl, fun zero => absurd zero empty⟩
    rw [PostOfficeInput.poll, NetworkInput.callBack, if_pos empty]
    rfl

/-- A worker that is woken takes one signal, and one unit of work is done. -/
theorem Sound.awake (sound : Sound hostName office) (waiting : office.worker = .waiting)
    (signalled : 0 < office.messageAvailable)
    : Sound hostName office.awake ∧ office.awake.inFlight = office.inFlight
      ∧ office.awake.work + 1 = office.work := by
  refine ⟨⟨sound.sock, sound.inbox, fun _ same => Worker.noConfusion same, sound.boxes, ?_⟩, ?_,
    ?_⟩
  · have signals := sound.signals
    rw [waiting] at signals
    change office.messageAvailable + 0 = _ at signals
    change office.messageAvailable - 1 + 1 = _
    rw [Nat.sub_add_cancel signalled]
    exact signals
  · unfold PostOfficeInput.inFlight
    rw [waiting]
    rfl
  · simp only [PostOfficeInput.work, PostOfficeInput.awake, waiting, Worker.work]
    omega

/-- A woken worker finds a packet in the inbox. -/
theorem Sound.inbox_of_receiving (sound : Sound hostName office)
    (receiving : office.worker = .receiving)
    : office.network.inHdr.length ≠ 0#32 ∧ office.messageAvailable = 0 := by
  have signals := sound.signals
  rw [receiving] at signals
  change office.messageAvailable + 1 = _ at signals
  split at signals
  · omega
  · exact ⟨‹_›, by omega⟩

/-- The worker takes the packet, whole, out of the inbox. -/
theorem Sound.fetch (sound : Sound hostName office) (receiving : office.worker = .receiving)
    : Sound hostName office.fetch ∧ office.fetch.inFlight = office.inFlight
      ∧ office.fetch.work + 1 = office.work := by
  obtain ⟨full, unsignalled⟩ := sound.inbox_of_receiving receiving
  have addressed := sound.inbox full
  have buffer : office.fetch.buffer
      = blit office.buffer 0 office.network.inbox office.network.inHdr.length.toNat :=
    if_pos full
  have copied := @Addressed.copy _ office.fetch.buffer _ _ addressed (fun offset small => by
    rw [buffer]
    exact blit_inside _ _ (Nat.zero_le offset) (Nat.lt_of_lt_of_eq small (Nat.zero_add _).symm))
  have emptied : office.fetch.network.inHdr.length = 0#32 := rfl
  refine ⟨⟨sound.sock, fun nonempty => absurd rfl nonempty, ?_, sound.boxes, ?_⟩, ?_, ?_⟩
  · intro pktHdr same
    injection same with same
    exact same ▸ copied.1
  · rw [if_pos emptied]
    exact unsignalled
  · have before : office.worker.carried office.buffer = [] := by
      rw [receiving]
      rfl
    have carried : office.fetch.worker.carried office.fetch.buffer
        = [Mail.read office.network.inHdr office.network.inbox] :=
      congrArg (fun mail => [mail]) copied.2
    unfold PostOfficeInput.inFlight
    rw [carried, before, NetworkInput.buffered, if_pos emptied, NetworkInput.buffered, if_neg full,
      List.append_nil, List.nil_append]
    rfl
  · have stage : office.fetch.worker = .delivering office.network.inHdr := rfl
    simp only [PostOfficeInput.work, stage, receiving, Worker.work]
    rfl

/-- The worker puts the letter into its box when there is one, and fails an assertion otherwise. -/
theorem Sound.deliver (sound : Sound hostName office)
    (delivering : office.worker = .delivering pktHdr) (numBoxes : Int)
    : let mail := Mail.read pktHdr office.buffer
      (mail.mailHdr.toBox.toInt < numBoxes
        → ∃ after, office.deliver numBoxes pktHdr = .ok after ∧ Sound hostName after
          ∧ office.inFlight = mail :: after.inFlight
          ∧ after.boxes
            = Function.update office.boxes mail.mailHdr.toBox.toInt.toNat
                (office.boxes mail.mailHdr.toBox.toInt.toNat ++ [mail])
          ∧ after.work + 1 = office.work)
      ∧ (¬ mail.mailHdr.toBox.toInt < numBoxes
        → office.deliver numBoxes pktHdr = .error .assertion) := by
  intro mail
  have addressed := sound.carried pktHdr delivering
  constructor
  · intro inRange
    refine ⟨
      {
        office.put mail.mailHdr.toBox.toInt.toNat mail with
        worker := .waiting
      }, ?_, ⟨sound.sock, sound.inbox, fun _ same => Worker.noConfusion same, ?_, ?_⟩, ?_, rfl,
      ?_⟩
    · rw [PostOfficeInput.deliver]
      dsimp only
      rw [bind_ok (require_of ⟨addressed.toBox, inRange⟩ _), bind_ok (require_of addressed.short _),
        Mail.new, bind_ok (require_of addressed.short _)]
      rfl
    · intro box other member
      change other ∈ Function.update office.boxes _ _ box at member
      by_cases here : box = mail.mailHdr.toBox.toInt.toNat
      · rw [here, Function.update_self] at member
        rcases List.mem_append.mp member with old | new
        · exact sound.boxes _ other old
        · rw [List.mem_singleton.mp new]
          exact addressed.short
      · rw [Function.update_of_ne here] at member
        exact sound.boxes box other member
    · have signals := sound.signals
      rwa [delivering] at signals
    · unfold PostOfficeInput.inFlight
      rw [delivering]
      rfl
    · unfold PostOfficeInput.work
      rw [delivering]
      rfl
  · intro outside
    rw [PostOfficeInput.deliver]
    dsimp only
    rw [require, if_neg (fun inRange => outside inRange.2)]
    rfl

/-- A thread that finds a letter gets it, when its box exists. -/
theorem Sound.receive (sound : Sound hostName office) {numBoxes box : Int} {mail : Mail}
    (inRange : 0 ≤ box ∧ box < numBoxes) (front : (office.boxes box.toNat).head? = some mail)
    : ∃ after, office.receive numBoxes box mail = .ok after ∧ Sound hostName after
      ∧ after.inFlight = office.inFlight
      ∧ after.boxes = Function.update office.boxes box.toNat (office.boxes box.toNat).tail := by
  have short := sound.boxes box.toNat mail (List.mem_of_mem_head? front)
  refine ⟨
    {
      office with
      boxes := Function.update office.boxes box.toNat (office.boxes box.toNat).tail
    }, ?_, ⟨sound.sock, sound.inbox, sound.carried, ?_, sound.signals⟩, rfl, rfl⟩
  · rw [PostOfficeInput.receive, bind_ok (require_of inRange _), bind_ok (require_of short _)]
    rfl
  · intro place other member
    change other ∈ Function.update office.boxes _ _ place at member
    by_cases here : place = box.toNat
    · rw [here, Function.update_self] at member
      exact sound.boxes _ other (List.mem_of_mem_tail member)
    · rw [Function.update_of_ne here] at member
      exact sound.boxes place other member

/-- A packet that reaches the socket is behind all others. -/
theorem Sound.toSocket (sound : Sound hostName office) {packet : Buffer}
    (addressed : Addressed hostName (PacketHeader.read packet) (behind packet))
    : let after : PostOfficeInput :=
        { office with network := { office.network with sock := office.network.sock ++ [packet] } }
      Sound hostName after ∧ after.inFlight = office.inFlight ++ [Mail.ofWire packet] := by
  refine ⟨⟨?_, sound.inbox, sound.carried, sound.boxes, sound.signals⟩, ?_⟩
  · intro other member
    rcases List.mem_append.mp member with old | new
    · exact sound.sock other old
    · rw [List.mem_singleton.mp new]
      exact addressed
  · unfold PostOfficeInput.inFlight
    rw [List.map_append, ← List.append_assoc]
    rfl

end PostOfficeInput

-----------------------------------------------------------------------------------------
-- Actions
-----------------------------------------------------------------------------------------

/-- The number of the box that a letter is for. -/
def Mail.box (mail : Mail) : Nat := mail.mailHdr.toBox.toInt.toNat

/-- What an action does to the letters on their way and in boxes. -/
def Action.event : Action → Option (Event Address Nat Mail)
  | .send hostName pktHdr mailHdr data _ _ kept =>
      some (.send pktHdr.toHost (Mail.sent hostName pktHdr mailHdr data) kept)
  | .deliver hostName => some (.arrive hostName)
  | .receive hostName box mail => some (.take hostName box.toNat mail)
  | _ => none

namespace Machines

/-- The letters on their way to each machine and in its boxes. -/
def service (machines : Machines) : Service Address Nat Mail where
  transit hostName := (machines.inputs hostName).inFlight
  boxes hostName := (machines.inputs hostName).boxes

/-- The device of no machine is busy, and every receiving half is in order. -/
structure Sound (machines : Machines) : Prop where
  idle : ∀ hostName, (machines.outputs hostName).sendBusy = false
  input : ∀ hostName, (machines.inputs hostName).Sound hostName

/-- Where an assertion of the sending or the receiving machine is false. -/
def Fails (numBoxes : Address → Int) (machines : Machines) : Action → Prop
  | .send _ _ mailHdr _ _ _ _ =>
      ¬ (mailHdr.length.toNat ≤ maxMailSize ∧ 0 ≤ mailHdr.toBox.toInt)
  | .deliver hostName =>
      ∃ mail, (machines.inputs hostName).inFlight.head? = some mail
        ∧ ¬ mail.mailHdr.toBox.toInt < numBoxes hostName
  | .receive hostName box _ => ¬ (0 ≤ box ∧ box < numBoxes hostName)
  | _ => False

variable {machines after final : Machines} {hostName : Address} {office : PostOfficeInput}
  {numBoxes : Address → Int} {action : Action} {trace : List Action}

/-- Before any packet the machines are sound. -/
theorem Initial.sound (initial : machines.Initial) : machines.Sound where
  idle hostName := congrArg NetworkOutput.sendBusy (initial.output hostName)
  input hostName := by
    have waiting := initial.worker hostName
    refine ⟨fun packet member => ?_, fun full => absurd (initial.inHdr hostName) full,
      fun pktHdr same => ?_, fun box mail member => ?_, ?_⟩
    · rw [initial.sock] at member
      exact absurd member List.not_mem_nil
    · rw [waiting] at same
      exact Worker.noConfusion same
    · rw [initial.boxes] at member
      exact absurd member List.not_mem_nil
    · rw [initial.messageAvailable, waiting, if_pos (initial.inHdr hostName)]
      rfl

/-- Before any packet the abstract service is empty. -/
theorem Initial.service_eq (initial : machines.Initial) : machines.service = .empty := by
  have transit : ∀ hostName, (machines.inputs hostName).inFlight = [] := by
    intro hostName
    unfold PostOfficeInput.inFlight NetworkInput.buffered
    rw [initial.worker, initial.sock, if_pos (initial.inHdr hostName)]
    rfl
  exact congrArg₂ Service.mk (funext transit)
    (funext (fun hostName => funext (fun box => initial.boxes hostName box)))

/-- A sound post office on one machine keeps all sound, by cases on the machine. -/
theorem Sound.setInput (sound : machines.Sound) (input : office.Sound hostName)
    : (machines.setInput hostName office).Sound := by
  refine ⟨sound.idle, fun other => ?_⟩
  change (Function.update machines.inputs hostName office other).Sound other
  by_cases here : other = hostName
  · rw [here, Function.update_self]
    exact input
  · rw [Function.update_of_ne here]
    exact sound.input other

/-- A network that is not busy keeps all sound, by cases on the machine. -/
theorem Sound.setOutput (sound : machines.Sound) {output : NetworkOutput}
    (idle : output.sendBusy = false)
    : (machines.setOutput hostName output).Sound := by
  refine ⟨fun other => ?_, sound.input⟩
  change (Function.update machines.outputs hostName output other).sendBusy = false
  by_cases here : other = hostName
  · rw [here, Function.update_self]
    exact idle
  · rw [Function.update_of_ne here]
    exact sound.idle other

/-- A change of one post office changes the letters of one machine. -/
theorem service_setInput (hostName : Address) (office : PostOfficeInput) (machines : Machines)
    : (machines.setInput hostName office).service
      = {
          transit := Function.update machines.service.transit hostName office.inFlight
          boxes := Function.update machines.service.boxes hostName office.boxes
        } :=
  congrArg₂ Service.mk
    (funext (fun other => Function.apply_update (fun _ => PostOfficeInput.inFlight) _ _ _ other))
    (funext (fun other => Function.apply_update (fun _ => PostOfficeInput.boxes) _ _ _ other))

/-- An action inside a machine that moves no letter into or out of a box. -/
theorem service_setInput_of_eq (transit : office.inFlight = (machines.inputs hostName).inFlight)
    (boxes : office.boxes = (machines.inputs hostName).boxes)
    : (machines.setInput hostName office).service = machines.service := by
  rw [service_setInput, transit, boxes]
  exact congrArg₂ Service.mk (Function.update_eq_self ..) (Function.update_eq_self ..)

/-- A proper letter is sent or lost. -/
theorem Sound.send (sound : machines.Sound) {mailHdr : MailHeader}
    (short : mailHdr.length.toNat ≤ maxMailSize) (proper : 0 ≤ mailHdr.toBox.toInt)
    (hostName : Address) (pktHdr : PacketHeader) (data fresh wire : Buffer) (kept : Bool)
    : ∃ after, machines.send hostName pktHdr mailHdr data fresh wire kept = .ok after
      ∧ after.Sound
      ∧ next Mail.box machines.service
          (.send pktHdr.toHost (Mail.sent hostName pktHdr mailHdr data) kept)
        = some after.service := by
  obtain ⟨header, contents, made, addressed, fromHost, read⟩ :=
    addressed_of_letter short proper hostName pktHdr data fresh
  have accepted : (machines.outputs hostName).sendBusy = false ∧ 0 < header.length.toNat
      ∧ header.length.toNat ≤ maxPacketSize ∧ header.fromHost = hostName := by
    refine ⟨sound.idle hostName, ?_, addressed.length_le, fromHost⟩
    have length := addressed.length
    unfold headerSize at length
    omega
  have idle := @Sound.setOutput _ hostName sound
    { machines.outputs hostName with scheduled := (machines.outputs hostName).scheduled + 1 }
    (sound.idle hostName)
  cases kept with
  | false =>
      refine ⟨_, ?_, idle, rfl⟩
      rw [Machines.send, bind_ok made]
      dsimp only
      rw [NetworkOutput.send, bind_ok (require_of accepted _)]
      rfl
  | true =>
      have wired := @PacketHeader.read_concatenate wire contents header.length.toNat header
      have copied := @Addressed.copy _
        (behind (concatenate wire header.words contents header.length.toNat)) _ _ addressed
        (fun offset small => behind_concatenate small)
      have arrived := @PostOfficeInput.Sound.toSocket _ _ (sound.input pktHdr.toHost)
        (concatenate wire header.words contents header.length.toNat)
        (wired.symm ▸ copied.1)
      refine ⟨_, ?_, idle.setInput arrived.1, ?_⟩
      · rw [Machines.send, bind_ok made]
        dsimp only
        rw [NetworkOutput.send, bind_ok (require_of accepted _), ← addressed.toHost]
        rfl
      · rw [service_setInput, arrived.2, Mail.ofWire, wired, copied.2, read]
        exact congrArg some (congrArg (Service.mk _) (Function.update_eq_self ..).symm)

/-- A ready action stops a machine exactly where it fails. Elsewhere everything stays in order,
and letters move as the event of the action says, by cases on the action.
-/
theorem Sound.outcome (sound : machines.Sound) (ready : machines.Ready numBoxes action)
    : (machines.Fails numBoxes action → machines.perform numBoxes action = .error .assertion)
      ∧ (¬ machines.Fails numBoxes action
        → ∃ after, machines.perform numBoxes action = .ok after ∧ after.Sound
          ∧ (∀ event, action.event = some event
            → next Mail.box machines.service event = some after.service)
          ∧ (action.event = none → after.service = machines.service)) := by
  cases action with
  | send hostName pktHdr mailHdr data fresh wire kept =>
      constructor
      · intro fails
        by_cases short : mailHdr.length.toNat ≤ maxMailSize
        · have improper : ¬ 0 ≤ mailHdr.toBox.toInt := fun proper => fails ⟨short, proper⟩
          rw [perform, Machines.send, letter, bind_ok (require_of short _), require,
            if_neg improper]
          rfl
        · rw [perform, Machines.send, letter, require, if_neg short]
          rfl
      · intro fine
        obtain ⟨short, proper⟩ := not_not.mp fine
        obtain ⟨after, sent, afterSound, moved⟩ :=
          sound.send short proper hostName pktHdr data fresh wire kept
        exact ⟨after, sent, afterSound, fun event same => Option.some.inj same ▸ moved,
          fun none => absurd none (Option.some_ne_none _)⟩
  | sent hostName =>
      refine ⟨False.elim, fun _ => ⟨_, rfl, sound.setOutput rfl, ?_, fun _ => rfl⟩⟩
      intro event same
      exact absurd same.symm (Option.some_ne_none event)
  | poll hostName =>
      refine ⟨False.elim, fun _ => ?_⟩
      obtain ⟨office, polled, afterSound, transit, boxes, -⟩ := (sound.input hostName).poll
      refine ⟨_, ?_, sound.setInput afterSound,
        fun event same => absurd same.symm (Option.some_ne_none event),
        fun _ => service_setInput_of_eq transit boxes⟩
      rw [perform, bind_ok polled]
      rfl
  | awake hostName =>
      obtain ⟨afterSound, transit, -⟩ := (sound.input hostName).awake ready.1 ready.2
      exact ⟨False.elim, fun _ => ⟨_, rfl, sound.setInput afterSound,
        fun event same => absurd same.symm (Option.some_ne_none event),
        fun _ => service_setInput_of_eq transit rfl⟩⟩
  | fetch hostName =>
      obtain ⟨afterSound, transit, -⟩ := (sound.input hostName).fetch ready
      exact ⟨False.elim, fun _ => ⟨_, rfl, sound.setInput afterSound,
        fun event same => absurd same.symm (Option.some_ne_none event),
        fun _ => service_setInput_of_eq transit rfl⟩⟩
  | deliver hostName =>
      obtain ⟨pktHdr, delivering⟩ := ready
      obtain ⟨delivers, stops⟩ :=
        (sound.input hostName).deliver delivering (numBoxes hostName)
      have oldest : (machines.inputs hostName).inFlight.head?
          = some (Mail.read pktHdr (machines.inputs hostName).buffer) := by
        unfold PostOfficeInput.inFlight
        rw [delivering]
        rfl
      constructor
      · rintro ⟨mail, front, outside⟩
        cases Option.some.inj (oldest.symm.trans front)
        rw [perform, delivering]
        dsimp only
        rw [stops outside]
        rfl
      · intro fine
        have inRange := not_not.mp (fun outside => fine ⟨_, oldest, outside⟩)
        obtain ⟨office, delivered, afterSound, transit, boxes, -⟩ := delivers inRange
        refine ⟨_, ?_, sound.setInput afterSound, ?_, fun none => absurd none (Option.some_ne_none _)⟩
        · rw [perform, delivering]
          dsimp only
          rw [bind_ok delivered]
          rfl
        · intro event same
          cases Option.some.inj same
          rw [service_setInput, boxes]
          exact next_arrive transit
  | receive hostName box mail =>
      constructor
      · intro outside
        rw [perform, PostOfficeInput.receive, require, if_neg outside]
        rfl
      · intro fine
        have inRange := not_not.mp fine
        have front := ready inRange
        obtain ⟨office, received, afterSound, transit, boxes⟩ :=
          (sound.input hostName).receive inRange front
        refine ⟨_, ?_, sound.setInput afterSound, ?_, fun none => absurd none (Option.some_ne_none _)⟩
        · rw [perform, bind_ok received]
          rfl
        · intro event same
          cases Option.some.inj same
          rw [service_setInput, boxes, transit]
          refine (if_pos front).trans (congrArg some (congrArg₂ Service.mk ?_ rfl))
          exact (Function.update_eq_self ..).symm

/-- A step keeps the machines sound and is a step of the abstract service, or none. Witness: the
outcome of its action.
-/
theorem Sound.step (sound : machines.Sound) (step : machines.Step numBoxes action after)
    : after.Sound
      ∧ (∀ event, action.event = some event
        → next Mail.box machines.service event = some after.service)
      ∧ (action.event = none → after.service = machines.service) := by
  obtain ⟨ready, performed⟩ := step
  obtain ⟨fails, goes⟩ := sound.outcome ready
  by_cases failing : machines.Fails numBoxes action
  · cases (fails failing).symm.trans performed
  · obtain ⟨next, went, rest⟩ := goes failing
    cases went.symm.trans performed
    exact rest

theorem Sound.of_run (sound : machines.Sound) (run : Run (Step numBoxes) machines trace final)
    : final.Sound :=
  run.invariant sound (fun _ _ _ before step => (before.step step).1)

/-- Machines in order, with the letters of a service. -/
def Matches (machines : Machines) (service : Service Address Nat Mail) : Prop :=
  machines.Sound ∧ machines.service = service

/-- The machines refine the service: the events of a run lead it to the letters that are on their
way and in boxes.
-/
theorem Initial.refines (initial : machines.Initial)
    (run : Run (Step numBoxes) machines trace final)
    : follow (next Mail.box) (trace.filterMap Action.event) .empty = some final.service := by
  have related : Matches machines .empty := ⟨initial.sound, initial.service_eq⟩
  obtain ⟨service, followed, -, same⟩ := run.project related
    (fun state label after image event related step own => by
      obtain ⟨sound, rfl⟩ := related
      obtain ⟨afterSound, moves, -⟩ := sound.step step
      exact ⟨after.service, moves event own, afterSound, rfl⟩)
    (fun state label after image related step own => by
      obtain ⟨sound, rfl⟩ := related
      obtain ⟨afterSound, -, stays⟩ := sound.step step
      exact ⟨afterSound, stays own⟩)
  rw [same]
  exact followed

end Machines

end Nachos.Network
