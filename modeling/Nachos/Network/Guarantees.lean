import Nachos.Network.MailDelivery

/-! What threads that use the post offices can rely on: which letters they get, when a machine
stops, and that no letter is stuck.
-/

namespace Nachos.Network
open Bytes Outcome Runs OrderedDelivery

-----------------------------------------------------------------------------------------
-- Order of delivery
-----------------------------------------------------------------------------------------

/-- The letters that calls of `Send` were about, to a box of a machine, in order. -/
def lettersSent (hostName : Address) (box : Nat) (trace : List Action) : List Mail :=
  (trace.filterMap Action.event).filterMap (Event.sends Mail.box hostName box)

/-- Those of them that were not dropped. -/
def lettersKept (hostName : Address) (box : Nat) (trace : List Action) : List Mail :=
  (trace.filterMap Action.event).filterMap (Event.keeps Mail.box hostName box)

/-- The letters that `Receive` gave to threads out of a box of a machine, in order. -/
def lettersReceived (hostName : Address) (box : Nat) (trace : List Action) : List Mail :=
  (trace.filterMap Action.event).filterMap (Event.takes hostName box)

namespace Machines

variable {machines middle final : Machines} {numBoxes : Address → Int} {trace : List Action}
  {hostName : Address} {action : Action}

/-- The post office is ordered and unreliable: what was received from a box, what waits in it and
what is on its way to it are, in this order, the letters sent to it that were not dropped, with
their bytes.
-/
theorem delivered_in_order (initial : machines.Initial)
    (run : Run (Step numBoxes) machines trace final) (hostName : Address) (box : Nat)
    : lettersKept hostName box trace
        = lettersReceived hostName box trace
          ++ ((final.inputs hostName).boxes box
            ++ (final.inputs hostName).inFlight.filter (fun mail => mail.box = box))
      ∧ (lettersKept hostName box trace).Sublist (lettersSent hostName box trace) :=
  ⟨takes_of_follow (initial.refines run) hostName box, keeps_sublist_sends _ _ _⟩

/-- Machines in whose memory there were zeros. -/
def idle : Machines where
  outputs _ := { sendBusy := false, scheduled := 0 }
  inputs _ := {
    network := { sock := [], inHdr := PacketHeader.read (fun _ => 0), inbox := fun _ => 0 }
    boxes := fun _ => []
    messageAvailable := 0
    worker := .waiting
    buffer := fun _ => 0
  }

/-- The machines of the witnesses before any packet. -/
theorem idle_initial : idle.Initial where
  output _ := rfl
  sock _ := rfl
  inHdr _ := rfl
  boxes _ _ := rfl
  messageAvailable _ := rfl
  worker _ := rfl

/-- A letter of one character from machine 0 to box `box` of machine 1. -/
def postcard (box : BitVec 32) : Mail :=
  Mail.sent 0#32 ⟨1#32, 0#32, 0#32⟩ ⟨box, 0#32, 1#32⟩ (fun _ => 65)

/-- The steps that bring the letter into the hands of the worker. -/
def posting (box : BitVec 32) : List Action :=
  [.send 0#32 ⟨1#32, 0#32, 0#32⟩ ⟨box, 0#32, 1#32⟩ (fun _ => 65) (fun _ => 0) (fun _ => 0) true,
    .poll 1#32, .awake 1#32, .fetch 1#32]

/-- Witness: one postcard from machine 0 to machine 1, posted, delivered and received. -/
theorem delivered_in_order_postcard
    : ∃ final,
        Run (Step (fun _ => 10)) idle
          (posting 0#32 ++ [.deliver 1#32, .receive 1#32 0 (postcard 0#32)]) final
        ∧ lettersReceived 1#32 0
            (posting 0#32 ++ [.deliver 1#32, .receive 1#32 0 (postcard 0#32)])
          = [postcard 0#32]
        ∧ lettersKept 1#32 0
            (posting 0#32 ++ [.deliver 1#32, .receive 1#32 0 (postcard 0#32)])
          = [postcard 0#32]
            ++ ((final.inputs 1#32).boxes 0
              ++ (final.inputs 1#32).inFlight.filter (fun mail => mail.box = 0)) := by
  have computed : (follow (attempt (fun _ => 10))
      (posting 0#32 ++ [.deliver 1#32, .receive 1#32 0 (postcard 0#32)]) idle).isSome := by
    rfl
  obtain ⟨final, followed⟩ := Option.isSome_iff_exists.mp computed
  have run := @Run.of_follow _ _ (Step (fun _ => 10)) _ _ _ (fun _ _ _ => step_of_attempt) _ followed
  exact ⟨final, run, rfl, (delivered_in_order idle_initial run 1#32 0).1⟩

-----------------------------------------------------------------------------------------
-- Assertions
-----------------------------------------------------------------------------------------

/-- An action stops a machine only where a letter is too long, or a box number out of range: that
of the sender is checked for its sign only, so a letter for a box that does not exist stops the
machine that it is sent to.
-/
theorem stops_iff (initial : machines.Initial) (run : Run (Step numBoxes) machines trace middle)
    (ready : middle.Ready numBoxes action)
    : (∃ fault, middle.perform numBoxes action = .error fault) ↔ middle.Fails numBoxes action := by
  obtain ⟨fails, goes⟩ := (initial.sound.of_run run).outcome ready
  constructor
  · rintro ⟨fault, stopped⟩
    by_contra fine
    obtain ⟨after, performed, -⟩ := goes fine
    cases performed.symm.trans stopped
  · exact fun failing => ⟨_, fails failing⟩

/-- Machines have ten boxes, and a letter for box 12 stops the one that it reaches. -/
theorem stops_iff_postcard
    : ∃ middle, Run (Step (fun _ => 10)) idle (posting 12#32) middle
        ∧ ∃ fault, middle.perform (fun _ => 10) (.deliver 1#32) = .error fault := by
  have computed : (follow (attempt (fun _ => 10)) (posting 12#32) idle).map
      (fun middle =>
        (decide (middle.Ready (fun _ => 10) (.deliver 1#32)), (middle.inputs 1#32).inFlight.head?))
      = some (true, some (postcard 12#32)) := by
    rfl
  obtain ⟨middle, followed, found⟩ := Option.map_eq_some_iff.mp computed
  obtain ⟨ready, front⟩ := Prod.mk.inj found
  have run := @Run.of_follow _ _ (Step (fun _ => 10)) _ _ _ (fun _ _ _ => step_of_attempt) _ followed
  exact ⟨middle, run, (stops_iff idle_initial run (of_decide_eq_true ready)).mpr
    ⟨postcard 12#32, front, by decide⟩⟩

end Machines

-----------------------------------------------------------------------------------------
-- Progress
-----------------------------------------------------------------------------------------

/-- Interrupts of the network input of a machine, and steps of its worker. -/
inductive Action.Inside (hostName : Address) : Action → Prop
  | poll : Inside hostName (.poll hostName)
  | awake : Inside hostName (.awake hostName)
  | fetch : Inside hostName (.fetch hostName)
  | deliver : Inside hostName (.deliver hostName)

namespace Machines

variable {machines middle final : Machines} {numBoxes : Address → Int} {trace : List Action}
  {hostName : Address} {action : Action}

theorem input_setInput (hostName : Address) (office : PostOfficeInput) (machines : Machines)
    : (machines.setInput hostName office).inputs hostName = office :=
  Function.update_self ..

/-- When no work is left nothing is in flight, since packets and the poll are part of the work. -/
theorem Sound.idle_of_work (sound : machines.Sound)
    (done : (machines.inputs hostName).work = 0)
    : (machines.inputs hostName).inFlight = [] := by
  have signals := (sound.input hostName).signals
  unfold PostOfficeInput.work at done
  unfold PostOfficeInput.inFlight NetworkInput.buffered
  have sock : (machines.inputs hostName).network.sock = [] :=
    List.length_eq_zero_iff.mp (by omega)
  cases stage : (machines.inputs hostName).worker with
  | waiting =>
      rw [stage] at signals
      change (machines.inputs hostName).messageAvailable + 0 = _ at signals
      have empty : (machines.inputs hostName).network.inHdr.length = 0#32 := by
        by_contra full
        rw [if_neg full] at signals
        omega
      rw [sock, if_pos empty]
      rfl
  | receiving =>
      rw [stage, Worker.work] at done
      omega
  | delivering pktHdr =>
      rw [stage, Worker.work] at done
      omega

/-- While a letter is on its way, an interrupt or the worker brings it further, by cases on where
the worker is.
-/
theorem Sound.progress (sound : machines.Sound)
    (fits
      : ∀ mail ∈ (machines.inputs hostName).inFlight,
          mail.mailHdr.toBox.toInt < numBoxes hostName)
    {count : Nat} (busy : (machines.inputs hostName).work = count + 1)
    : ∃ action after, action.Inside hostName ∧ machines.Step numBoxes action after
      ∧ (after.inputs hostName).work = count := by
  have signals := (sound.input hostName).signals
  cases stage : (machines.inputs hostName).worker with
  | waiting =>
      rw [stage] at signals
      change (machines.inputs hostName).messageAvailable + 0 = _ at signals
      by_cases signalled : 0 < (machines.inputs hostName).messageAvailable
      · obtain ⟨-, -, less⟩ := (sound.input hostName).awake stage signalled
        refine ⟨.awake hostName, _, .awake, ⟨⟨stage, signalled⟩, rfl⟩, ?_⟩
        rw [input_setInput]
        omega
      · have empty : (machines.inputs hostName).network.inHdr.length = 0#32 := by
          by_contra full
          rw [if_neg full] at signals
          omega
        have nonempty : (machines.inputs hostName).network.sock ≠ [] := by
          intro sock
          rw [PostOfficeInput.work, stage, sock, Worker.work, List.length_nil] at busy
          omega
        obtain ⟨office, polled, -, -, -, less⟩ := (sound.input hostName).poll
        refine ⟨.poll hostName, machines.setInput hostName office, .poll, ⟨trivial, ?_⟩, ?_⟩
        · rw [perform, bind_ok polled]
          rfl
        · have fewer := less empty nonempty
          rw [input_setInput]
          omega
  | receiving =>
      obtain ⟨-, -, less⟩ := (sound.input hostName).fetch stage
      refine ⟨.fetch hostName, _, .fetch, ⟨stage, rfl⟩, ?_⟩
      rw [input_setInput]
      omega
  | delivering pktHdr =>
      have oldest : Mail.read pktHdr (machines.inputs hostName).buffer
          ∈ (machines.inputs hostName).inFlight := by
        unfold PostOfficeInput.inFlight
        rw [stage]
        exact List.mem_cons_self
      obtain ⟨office, delivered, -, -, -, less⟩ :=
        ((sound.input hostName).deliver stage (numBoxes hostName)).1 (fits _ oldest)
      refine ⟨.deliver hostName, machines.setInput hostName office, .deliver,
        ⟨⟨pktHdr, stage⟩, ?_⟩, ?_⟩
      · rw [perform, stage]
        dsimp only
        rw [bind_ok delivered]
        rfl
      · rw [input_setInput]
        omega

/-- Actions inside a machine put letters that were on their way into their boxes, and neither add
nor take any.
-/
theorem Sound.inside (sound : machines.Sound) (inside : action.Inside hostName)
    (step : machines.Step numBoxes action final)
    : (∀ mail ∈ (final.inputs hostName).inFlight, mail ∈ (machines.inputs hostName).inFlight)
      ∧ ∀ box, final.service.remaining Mail.box hostName box
          = machines.service.remaining Mail.box hostName box := by
  obtain ⟨-, moves, stays⟩ := sound.step step
  cases inside with
  | poll | awake | fetch =>
      have same := stays rfl
      have transit : (final.inputs hostName).inFlight = (machines.inputs hostName).inFlight :=
        congrArg (fun service => service.transit hostName) same
      rw [transit, same]
      exact ⟨fun _ member => member, fun _ => rfl⟩
  | deliver =>
      have moved := moves _ rfl
      have transit : (final.inputs hostName).inFlight
          = (machines.inputs hostName).inFlight.tail :=
        transit_of_arrive moved
      constructor
      · intro mail member
        rw [transit] at member
        exact List.mem_of_mem_tail member
      · intro box
        have step := @remaining_of_next _ _ _ _ _ _ _ _ _ hostName box _ moved
        exact (List.append_nil _).symm.trans step |>.symm

/-- A machine alone brings every letter that has reached it to its box, by induction on the steps
that it needs.
-/
theorem Sound.drains (sound : machines.Sound)
    (fits
      : ∀ mail ∈ (machines.inputs hostName).inFlight,
          mail.mailHdr.toBox.toInt < numBoxes hostName)
    {count : Nat} (work : (machines.inputs hostName).work = count)
    : ∃ trace final, Run (Step numBoxes) machines trace final
      ∧ (∀ action ∈ trace, action.Inside hostName)
      ∧ trace.length = count
      ∧ (final.inputs hostName).inFlight = []
      ∧ ∀ box, final.service.remaining Mail.box hostName box
          = machines.service.remaining Mail.box hostName box := by
  induction count generalizing machines with
  | zero =>
      exact ⟨[], machines, .nil machines, fun _ member => absurd member List.not_mem_nil, rfl,
        sound.idle_of_work work, fun _ => rfl⟩
  | succ count ih =>
      obtain ⟨action, after, inside, step, less⟩ := sound.progress fits work
      obtain ⟨fewer, same⟩ := sound.inside inside step
      obtain ⟨trace, final, run, allInside, length, empty, remaining⟩ :=
        ih (sound.step step).1 (fun mail member => fits mail (fewer mail member)) less
      refine ⟨action :: trace, final, run.cons step, ?_, congrArg (· + 1) length, empty,
        fun box => (remaining box).trans (same box)⟩
      intro other member
      rcases List.mem_cons.mp member with rfl | later
      · exact inside
      · exact allInside other later

/-- Nothing that was sent and not dropped is stuck: from every state of every run, unless some letter
is for a box that does not exist, the interrupts and the worker of a machine alone bring all letters
that have reached it to their boxes, in order and behind those already there.
-/
theorem letters_arrive (initial : machines.Initial)
    (run : Run (Step numBoxes) machines trace middle)
    (fits
      : ∀ mail ∈ (middle.inputs hostName).inFlight, mail.mailHdr.toBox.toInt < numBoxes hostName)
    : ∃ later final, Run (Step numBoxes) middle later final
      ∧ (∀ action ∈ later, action.Inside hostName)
      ∧ later.length = (middle.inputs hostName).work
      ∧ (final.inputs hostName).inFlight = []
      ∧ ∀ box, (final.inputs hostName).boxes box
          = (middle.inputs hostName).boxes box
            ++ (middle.inputs hostName).inFlight.filter (fun mail => mail.box = box) := by
  obtain ⟨later, final, run', inside, length, empty, remaining⟩ :=
    (initial.sound.of_run run).drains fits rfl
  refine ⟨later, final, run', inside, length, empty, fun box => ?_⟩
  have same := remaining box
  unfold Service.remaining at same
  change (final.inputs hostName).boxes box
    ++ (final.inputs hostName).inFlight.filter (fun mail => decide (mail.box = box)) = _ at same
  rw [empty, List.filter_nil, List.append_nil] at same
  exact same

/-- Witness: the postcard that was posted arrives. -/
theorem letters_arrive_postcard
    : ∃ middle, Run (Step (fun _ => 10)) idle (posting 0#32) middle
        ∧ ∃ later final, Run (Step (fun _ => 10)) middle later final
          ∧ (∀ action ∈ later, action.Inside 1#32)
          ∧ later.length = (middle.inputs 1#32).work
          ∧ (final.inputs 1#32).inFlight = []
          ∧ ∀ box, (final.inputs 1#32).boxes box
              = (middle.inputs 1#32).boxes box
                ++ (middle.inputs 1#32).inFlight.filter (fun mail => mail.box = box) := by
  have computed : (follow (attempt (fun _ => 10)) (posting 0#32) idle).map
      (fun middle => (middle.inputs 1#32).inFlight)
      = some [postcard 0#32] := by
    rfl
  obtain ⟨middle, followed, found⟩ := Option.map_eq_some_iff.mp computed
  have run := @Run.of_follow _ _ (Step (fun _ => 10)) _ _ _ (fun _ _ _ => step_of_attempt) _ followed
  refine ⟨middle, run, letters_arrive idle_initial run (fun mail member => ?_)⟩
  rw [found] at member
  rw [List.mem_singleton.mp member]
  decide

end Machines

end Nachos.Network
