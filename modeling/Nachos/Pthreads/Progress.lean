import Nachos.Pthreads.Rounds
import Nachos.Pthreads.Staffing

/-! When the pipeline can get stuck. The controller adds no consumer before more items wait in
the worker queue than its high threshold, so with fewer lines there is never one.
-/

namespace Nachos.Pthreads.Pipeline

namespace State

variable (state : State)

/-- The reader has finished, or waits at a full queue. -/
def ReaderRests : Prop :=
  match state.reader with
  | .returned => True
  | .enqueuing item => state.inputQueue.enqueue item = none
  | _ => False

/-- The producer waits at an empty or at a full queue. -/
def ProducerWaits : ProducerPc → Prop
  | .dequeuing => state.inputQueue.dequeue = none
  | .enqueuing _ item => state.workerQueue.enqueue item = none
  | _ => False

/-- The consumer waits at an empty or at a full queue, or its thread does not exist any more. -/
def ConsumerWaits : ConsumerPc → Prop
  | .dequeuing => state.workerQueue.dequeue = none
  | .enqueuing _ made => state.outputQueue.enqueue made = none
  | .ended => True
  | _ => False

/-- However often the controller wakes while no other thread steps, its consumers stay. -/
def ControllerIdles (input : Nat → Fields) : Prop :=
  ∀ after,
    Runs.Reachable (fun before (_ : Unit) => Step input before .controller) state after
    → after.consumers = state.consumers

end State

/-- The lines are not written, and no thread will ever do anything about it. -/
structure State.Stuck (input : Nat → Fields) (expectedLines : Nat) (state : State) : Prop where
  running : state.isOver = false
  unwritten : state.output.length < expectedLines
  reader : state.ReaderRests
  producers : ∀ pc ∈ state.producers, state.ProducerWaits pc
  consumers : ∀ consumer ∈ state.created, state.ConsumerWaits consumer.pc
  writer : state.writer = .dequeuing ∧ state.outputQueue.dequeue = none
  controller : state.ControllerIdles input

-----------------------------------------------------------------------------------------
-- Where nothing waits
-----------------------------------------------------------------------------------------

namespace State

variable {input : Nat → Fields} {expectedLines : Nat} {state after : State}

/-- Once the worker queue has room, the producers wait only for lines. -/
theorem producers_pending_of_waits (waits : ∀ pc ∈ state.producers, state.ProducerWaits pc)
    (room : state.workerQueue.items.length < workerQueueSize)
    : state.producers.flatMap ProducerPc.pending = []
      ∧ (state.producers ≠ [] → state.inputQueue.items = []) := by
  have each (pc : ProducerPc) (member : pc ∈ state.producers)
      : pc.pending = [] ∧ state.inputQueue.items = [] := by
    have waiting := waits pc member
    cases pc with
    | dequeuing => exact ⟨rfl, BoundedQueue.dequeue_eq_none.mp waiting⟩
    | enqueuing _ item =>
        exact absurd (BoundedQueue.enqueue_eq_none.mp waiting) (Nat.not_le_of_lt room)
    | _ => cases waiting
  refine ⟨List.flatMap_eq_nil_iff.mpr (fun pc member => (each pc member).1), fun some => ?_⟩
  obtain ⟨pc, member⟩ := List.exists_mem_of_ne_nil _ some
  exact (each pc member).2

/-- Once the input queue is empty, the reader has read all lines. -/
theorem read_eq_of_rests (counted : state.Counted expectedLines) (rests : state.ReaderRests)
    (empty : state.inputQueue.items = [])
    : state.read = expectedLines ∧ state.reader.pending = [] := by
  unfold ReaderRests at rests
  split at rests
  · rename_i returned
    have read := counted.read
    rw [counted.returned returned, returned] at read
    exact ⟨read, returned ▸ rfl⟩
  · have full := BoundedQueue.enqueue_eq_none.mp rests
    rw [empty] at full
    exact absurd full (by decide)
  · cases rests

/-- Where no item is on its way, all lines reached the output. -/
theorem toWrite_eq_zero (counted : state.Counted expectedLines)
    (conserved : state.Conserved input) (read : state.read = expectedLines)
    (nothing : state.unwritten = state.refused.map (Prod.mk .consumed))
    : state.toWrite = 0 := by
  have total := conserved.lines.length_eq
  have written := counted.written
  rw [pending, nothing, List.length_map, List.length_append, List.length_map, List.length_map,
    List.length_range, read] at total
  omega

-----------------------------------------------------------------------------------------
-- The idle controller
-----------------------------------------------------------------------------------------

theorem ControllerIdles.step (idles : state.ControllerIdles input)
    (step : Step input state .controller after)
    : after.ControllerIdles input ∧ after.consumers = state.consumers := by
  have first : Runs.Reachable (fun before (_ : Unit) => Step input before .controller) state after :=
    @Runs.Reachable.snoc _ _ _ _ _ _ () (.refl state) step
  have same := idles after first
  exact ⟨fun later reached => (idles later (first.trans reached)).trans same.symm, same⟩

/-- The next step of the controller, where it computes one. -/
theorem ControllerIdles.controllerStep (idles : state.ControllerIdles input)
    (running : state.isOver = false) (step : state.controllerStep = some after)
    : after.ControllerIdles input ∧ after.consumers = state.consumers :=
  idles.step (step_iff.mpr ⟨running, step⟩)

/-- An idle controller does not add a consumer. -/
theorem ControllerIdles.not_adding (idles : state.ControllerIdles input)
    (running : state.isOver = false)
    : state.controller ≠ .adding := by
  intro adding
  have same := (idles.controllerStep running (by rw [State.controllerStep, adding])).2
  have longer := congrArg List.length same
  rw [List.length_append] at longer
  exact absurd longer (Nat.succ_ne_self _)

/-- An idle controller without consumers compares only sizes below its threshold. -/
theorem ControllerIdles.comparing (idles : state.ControllerIdles input)
    (running : state.isOver = false) (consumers : state.consumers = []) {currentSize : Nat}
    (stands : state.controller = .comparing currentSize)
    : currentSize ≤ highThreshold
      ∧ ({ state with controller := .sleeping } : State).ControllerIdles input := by
  have next := (idles.controllerStep running (by rw [State.controllerStep, stands])).1
  have low : ¬highThreshold < currentSize := fun high => by
    have adds : scale state.consumers currentSize = .adding := if_pos high
    rw [adds] at next
    exact next.not_adding running rfl
  have sleeps : scale state.consumers currentSize = .sleeping := by
    rw [consumers, scale, if_neg low]
    exact if_neg (fun both => Nat.not_lt_zero _ both.2)
  rw [sleeps] at next
  exact ⟨Nat.le_of_not_lt low, next⟩

/-- If the controller adds no consumer, however often it wakes, the worker queue is short. -/
theorem ControllerIdles.getSize_le (idles : state.ControllerIdles input)
    (running : state.isOver = false) (unstaffed : state.Unstaffed)
    : state.workerQueue.getSize ≤ highThreshold := by
  have ofChecking {before : State} (same : before = { state with controller := .checking })
      (idles : before.ControllerIdles input)
      : state.workerQueue.getSize ≤ highThreshold := by
    subst same
    have next := (idles.controllerStep running rfl).1
    exact (next.comparing running unstaffed.consumers rfl).1
  have ofSleeping {before : State} (same : before = { state with controller := .sleeping })
      (idles : before.ControllerIdles input)
      : state.workerQueue.getSize ≤ highThreshold := by
    subst same
    exact ofChecking rfl (idles.controllerStep running rfl).1
  have alone := unstaffed.controller
  cases stands : state.controller with
  | sleeping => exact ofSleeping (by rw [← stands]) idles
  | checking => exact ofChecking (by rw [← stands]) idles
  | comparing currentSize =>
      exact ofSleeping rfl (idles.comparing running unstaffed.consumers stands).2
  | adding => exact absurd stands (idles.not_adding running)
  | _ =>
      rw [stands] at alone
      cases alone

end State

-----------------------------------------------------------------------------------------
-- Many lines
-----------------------------------------------------------------------------------------

/-- As many producers as `main` started never end. -/
theorem Step.producers_length {input : Nat → Fields} {state after : State} {action : Action}
    (step : Step input state action after)
    : after.producers.length = state.producers.length := by
  have runs := (step_iff.mp step).2
  cases action with
  | reader =>
      obtain ⟨_, _, _, _, rfl⟩ := State.readerStep_frame runs
      rfl
  | producer index =>
      obtain ⟨_, _, _, _, rfl, same⟩ := State.producerStep_frame runs
      exact same
  | consumer id =>
      obtain ⟨_, _, _, _, rfl⟩ := State.consumerStep_frame runs
      rfl
  | cancellation id =>
      obtain ⟨_, rfl⟩ := State.cancellationStep_frame runs
      rfl
  | controller =>
      obtain ⟨_, _, _, _, rfl⟩ := State.controllerStep_frame runs
      rfl
  | writer accepted =>
      obtain ⟨_, _, _, _, _, _, rfl⟩ := State.writerStep_frame runs
      rfl
  | main =>
      obtain ⟨_, _, rfl⟩ := State.mainStep_frame runs
      rfl

theorem Reachable.producers_length {input : Nat → Fields} {expectedLines : Nat} {isOpen : Bool}
    {state : State} (reachable : Reachable input expectedLines isOpen state)
    : state.producers.length = 4 :=
  @Runs.Reachable.invariant _ _ _ _ _ (fun state => state.producers.length = 4) reachable rfl
    (fun _ _ _ same step => step.producers_length.trans same)

/-- With more lines than the high threshold no interleaving gets stuck. Where all threads wait,
the first consumer leaves nothing in the queues; without it, all lines wait in the worker
queue, and the controller adds it.
-/
theorem Reachable.not_stuck {input : Nat → Fields} {expectedLines : Nat} {isOpen : Bool}
    {state : State} (reachable : Reachable input expectedLines isOpen state)
    (many : highThreshold < expectedLines)
    : ¬state.Stuck input expectedLines := by
  intro stuck
  have conserved := reachable.conserved
  have counted := reachable.counted
  have started : state.producers ≠ [] :=
    List.ne_nil_of_length_eq_add_one reachable.producers_length
  rcases reachable.staffing with unstaffed | staffed
  · have short := stuck.controller.getSize_le stuck.running unstaffed
    have room : state.workerQueue.items.length < workerQueueSize :=
      Nat.lt_of_le_of_lt short (by decide)
    obtain ⟨hands, empty⟩ := State.producers_pending_of_waits stuck.producers room
    obtain ⟨read, noHand⟩ := State.read_eq_of_rests counted stuck.reader (empty started)
    have total := conserved.lines.length_eq
    rw [State.pending, State.unwritten, noHand, empty started, hands, unstaffed.created,
      unstaffed.outputQueue, stuck.writer.1, unstaffed.refused, unstaffed.output] at total
    simp only [WriterPc.pending, List.map_nil, List.nil_append, List.append_nil,
      List.flatMap_nil, List.length_map, List.length_range] at total
    have size : state.workerQueue.getSize = expectedLines := total.trans read
    omega
  · obtain @⟨first, others, rest, created, consumers, later, kept, removes⟩ := staffed
    have outputEmpty := BoundedQueue.dequeue_eq_none.mp stuck.writer.2
    have noneFull (made : Item) : state.outputQueue.enqueue made ≠ none := fun full => by
      have filled := BoundedQueue.enqueue_eq_none.mp full
      rw [outputEmpty] at filled
      exact absurd filled (by decide)
    have waits (consumer : Consumer) (member : consumer ∈ state.created)
        : consumer.pending = []
          ∧ (consumer.pc = .ended ∨ state.workerQueue.items = []) := by
      have waiting := stuck.consumers consumer member
      unfold Consumer.pending
      cases stands : consumer.pc with
      | dequeuing =>
          rw [stands] at waiting
          exact ⟨rfl, .inr (BoundedQueue.dequeue_eq_none.mp waiting)⟩
      | enqueuing item made =>
          rw [stands] at waiting
          exact absurd waiting (noneFull made)
      | ended => exact ⟨rfl, .inl rfl⟩
      | _ =>
          rw [stands] at waiting
          cases waiting
    have workerEmpty : state.workerQueue.items = [] :=
      (waits first (created ▸ List.mem_cons_self ..)).2.resolve_left kept.running
    have idle : state.created.flatMap Consumer.pending = [] :=
      List.flatMap_eq_nil_iff.mpr (fun consumer member => (waits consumer member).1)
    have room : state.workerQueue.items.length < workerQueueSize := by
      rw [workerEmpty]
      decide
    obtain ⟨hands, empty⟩ := State.producers_pending_of_waits stuck.producers room
    obtain ⟨read, noHand⟩ := State.read_eq_of_rests counted stuck.reader (empty started)
    have nothing : state.unwritten = state.refused.map (Prod.mk .consumed) := by
      rw [State.unwritten, noHand, empty started, hands, workerEmpty, idle, outputEmpty,
        stuck.writer.1]
      rfl
    have done := State.toWrite_eq_zero counted conserved read nothing
    exact absurd done (Nat.ne_of_gt (counted.writing (stuck.writer.1 ▸ rfl)))

-----------------------------------------------------------------------------------------
-- Few lines
-----------------------------------------------------------------------------------------

/-- What the controller is at while it finds nothing to do. -/
def ControllerPc.IsLooking : ControllerPc → Prop
  | .sleeping | .checking => True
  | .comparing currentSize => currentSize ≤ highThreshold
  | _ => False

theorem ControllerPc.IsLooking.concerns {pc : ControllerPc} (looking : pc.IsLooking)
    : pc.concerns = none := by
  cases pc <;> first | rfl | cases looking

/-- Without consumers the controller does nothing while the worker queue is short. -/
theorem State.controllerStep_looking {state after : State} (looking : state.controller.IsLooking)
    (consumers : state.consumers = []) (short : state.workerQueue.getSize ≤ highThreshold)
    (step : state.controllerStep = some after)
    : ∃ pc, after = { state with controller := pc } ∧ pc.IsLooking := by
  unfold State.controllerStep at step
  split at step
  · cases step
    exact ⟨_, rfl, trivial⟩
  · cases step
    exact ⟨_, rfl, short⟩
  · rename_i currentSize stands
    cases step
    rw [stands] at looking
    have low : ¬highThreshold < currentSize := Nat.not_lt_of_le looking
    refine ⟨_, rfl, ?_⟩
    rw [consumers, State.scale, if_neg low, if_neg (fun both => Nat.not_lt_zero _ both.2)]
    trivial
  all_goals
    rename_i stands
    rw [stands] at looking
    cases looking

/-- A controller that finds nothing to do stays idle, by induction on its steps. -/
theorem State.controllerIdles_of_short {input : Nat → Fields} {state : State}
    (looking : state.controller.IsLooking) (consumers : state.consumers = [])
    (short : state.workerQueue.getSize ≤ highThreshold)
    : state.ControllerIdles input := by
  intro after reached
  have kept := @Runs.Reachable.invariant _ _ _ _ _
    (fun after : State => ∃ pc, after = { state with controller := pc } ∧ pc.IsLooking) reached
    ⟨_, rfl, looking⟩
    (fun before _ after looks step => by
      obtain ⟨pc, rfl, looking⟩ := looks
      exact @State.controllerStep_looking { state with controller := pc } after looking consumers
        short (step_iff.mp step).2)
  obtain ⟨pc, rfl, _⟩ := kept
  rfl

/-- With at most as many lines as the high threshold, all of them can wait for a consumer that
the controller does not add.
-/
theorem exists_stuck {input : Nat → Fields} {expectedLines : Nat}
    (produced : ∀ line, ∃ made, (input line).produce = some made) (some : 0 < expectedLines)
    (few : expectedLines ≤ highThreshold)
    : ∃ state, Reachable input expectedLines true state ∧ state.Stuck input expectedLines := by
  have fit : highThreshold ≤ workerQueueSize := by decide
  obtain ⟨workerQueue, length, _, reachable⟩ :=
    reachable_filled true produced expectedLines le_rfl (few.trans fit)
  have followed : Runs.follow (next input)
      [.reader, .producer 0, .producer 1, .producer 2, .producer 3, .writer true, .writer true]
      (filled expectedLines true expectedLines workerQueue)
      = Option.some
        {
          filled expectedLines true expectedLines workerQueue with
          reader := .returned
          producers := [.dequeuing, .dequeuing, .dequeuing, .dequeuing]
          writer := .dequeuing
        } := by
    simp [Runs.follow, next, State.isOver, State.threadStep, State.readerStep, filled, initial,
      State.producerStep, State.setProducer, State.writerStep, some]
  refine ⟨_, Runs.Reachable.of_follow (fun _ _ _ step => step) reachable followed, ?_⟩
  refine ⟨rfl, some, trivial, fun pc member => ?_, fun _ member => absurd member List.not_mem_nil,
    ⟨rfl, rfl⟩, State.controllerIdles_of_short trivial rfl (length.trans_le few)⟩
  have waits : pc = .dequeuing := by simpa using member
  rw [waits]
  exact rfl

-----------------------------------------------------------------------------------------
-- Main results
-----------------------------------------------------------------------------------------

/-- No interleaving gets stuck exactly when there are more lines than the high threshold of the
controller, or none.
-/
theorem never_stuck_iff (expectedLines : Nat)
    : (∀ input isOpen state,
        Reachable input expectedLines isOpen state → ¬state.Stuck input expectedLines)
      ↔ expectedLines = 0 ∨ highThreshold < expectedLines := by
  constructor
  · intro never
    by_contra few
    rw [not_or, Nat.not_lt] at few
    obtain ⟨state, reachable, stuck⟩ :=
      @exists_stuck (fun _ => ⟨1, 5, 'A'⟩) expectedLines (fun _ => ⟨_, rfl⟩)
        (Nat.pos_of_ne_zero few.1) few.2
    exact never _ true state reachable stuck
  · rintro (rfl | many) input isOpen state reachable stuck
    · exact Nat.not_lt_zero _ stuck.unwritten
    · exact reachable.not_stuck many stuck

/-- A single line is never written. -/
theorem stuck_of_one_line
    : ¬∀ expectedLines, 0 < expectedLines
        → ∀ input isOpen state,
            Reachable input expectedLines isOpen state → ¬state.Stuck input expectedLines := by
  intro never
  obtain ⟨state, reachable, stuck⟩ :=
    @exists_stuck (fun _ => ⟨1, 5, 'A'⟩) 1 (fun _ => ⟨_, rfl⟩) Nat.one_pos (by decide)
  exact never 1 Nat.one_pos _ true state reachable stuck

end Nachos.Pthreads.Pipeline
