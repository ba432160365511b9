import Nachos.Pthreads.Progress

/-! Which steps use an object that was deleted. The controller deletes a consumer that it asked
to end without waiting for its thread, and `main` deletes what producers, consumers and the
controller use for ever.
-/

namespace Nachos.Pthreads.Pipeline

-----------------------------------------------------------------------------------------
-- The objects that a step uses
-----------------------------------------------------------------------------------------

namespace State

variable (state : State)

def readerUses : List Object :=
  match state.reader with
  | .testing | .reading => [.reader]
  | .enqueuing _ => [.reader, .inputQueue]
  | .returned => []

/-- A producer reads its field `worker_queue` together with its field `transformer`. -/
def producerUses (index : Nat) : List Object :=
  match state.producers[index]? with
  | some .loading => [.producer index]
  | some .dequeuing => [.inputQueue]
  | some (.transforming _) => [.producer index, .transformer]
  | some (.enqueuing _ _) => [.workerQueue]
  | some (.deleting _) | none => []

/-- A consumer reads its field `output_queue` together with its field `transformer`. -/
def consumerUses (id : Nat) : List Object :=
  match state.created[id]?.map Consumer.pc with
  | some .testing | some .disabling => [.consumer id]
  | some .dequeuing => [.workerQueue]
  | some (.transforming _) => [.consumer id, .transformer]
  | some (.enqueuing _ _) => [.outputQueue]
  | some .created | some (.deleting _) | some .ended | none => []

def controllerUses : List Object :=
  match state.controller with
  | .sleeping | .comparing _ | .adding => [.controller]
  | .checking => [.controller, .workerQueue]
  | .starting id | .requesting id => [.consumer id]
  | .cancelling id | .removing id => [.controller, .consumer id]

def writerUses : List Object :=
  match state.writer with
  | .opening | .testing | .writing _ => [.writer]
  | .dequeuing => [.writer, .outputQueue]
  | .deleting _ | .returned | .gaveUp _ => []

def mainUses : List Object :=
  match state.main with
  | .joiningReader => [.reader]
  | .joiningWriter => [.writer]
  | .deleting (object :: _) => [object]
  | .deleting [] | .returned => []

/-- The objects of which the step of a thread reads or writes a field, or which it deletes. -/
def uses : Action → List Object
  | .reader => state.readerUses
  | .producer index => state.producerUses index
  | .consumer id => state.consumerUses id
  | .cancellation _ => []
  | .controller => state.controllerUses
  | .writer _ => state.writerUses
  | .main => state.mainUses

end State

/-- However the threads interleave, no step uses an object that was deleted before. -/
def UsesNothingDeleted (expectedLines : Nat) (isOpen : Bool) : Prop :=
  ∀ input state action after,
    Reachable input expectedLines isOpen state
    → Step input state action after
    → ∀ object ∈ state.uses action, object ∉ state.deleted

-----------------------------------------------------------------------------------------
-- Few lines
-----------------------------------------------------------------------------------------

/-- Nobody deleted anything: there is no consumer, and the writer waits for the first item. -/
structure State.Calm (state : State) : Prop where
  unstaffed : state.Unstaffed
  looking : state.controller.IsLooking
  isOpen : state.isOpen = true
  toWrite : 0 < state.toWrite
  writer : state.writer.isEnded = false
  main : state.main = .joiningReader ∨ state.main = .joiningWriter
  deleted : state.deleted = []

namespace State

variable {input : Nat → Fields} {state after : State}

/-- A step of the writer keeps the pipeline calm, by cases on its place. -/
theorem Calm.writerStep {accepted : Bool} (calm : state.Calm)
    (step : state.writerStep accepted = some after)
    : after.Calm := by
  have unstaffed := calm.unstaffed.writerStep step
  obtain ⟨before, looking, isOpen, toWrite, writer, main, deleted⟩ := calm
  unfold State.writerStep at step
  split at step
  · cases step
    exact ⟨unstaffed, looking, isOpen, toWrite, by simp [isOpen, WriterPc.isEnded], main, deleted⟩
  · cases step
    exact ⟨unstaffed, looking, isOpen, toWrite, by simp [toWrite, WriterPc.isEnded], main, deleted⟩
  · rw [BoundedQueue.dequeue_eq_none.mpr before.outputQueue] at step
    cases step
  · rename_i item writes
    exact absurd writes (before.writer item)
  · cases step
    exact ⟨unstaffed, looking, isOpen, toWrite, rfl, main, deleted⟩
  · cases step
  · cases step

/-- The controller only looks, as long as the worker queue stays below the threshold. -/
theorem Calm.controllerStep (calm : state.Calm)
    (short : state.workerQueue.getSize ≤ highThreshold)
    (step : state.controllerStep = some after)
    : after.Calm := by
  obtain ⟨unstaffed, looking, isOpen, toWrite, writer, main, deleted⟩ := calm
  obtain ⟨created, consumers, controller, outputQueue, writes, output, refused⟩ := unstaffed
  obtain ⟨pc, rfl, looks⟩ := controllerStep_looking looking consumers short step
  exact ⟨⟨created, consumers, looks.concerns, outputQueue, writes, output, refused⟩, looks, isOpen,
    toWrite, writer, main, deleted⟩

/-- The main thread waits for the reader and the writer, by cases on its place. -/
theorem Calm.mainStep (calm : state.Calm) (step : state.mainStep = some after) : after.Calm := by
  obtain ⟨unstaffed, looking, isOpen, toWrite, writer, main, deleted⟩ := calm
  obtain ⟨created, consumers, controller, outputQueue, writes, output, refused⟩ := unstaffed
  unfold State.mainStep at step
  rcases main with stands | stands
  · rw [stands] at step
    dsimp only at step
    split at step <;> cases step
    exact ⟨⟨created, consumers, controller, outputQueue, writes, output, refused⟩, looking, isOpen,
      toWrite, writer, .inr rfl, deleted⟩
  · rw [stands] at step
    dsimp only at step
    rw [if_neg (Bool.eq_false_iff.mp writer)] at step
    cases step

end State

/-- As long as the worker queue is short, no thread disturbs the calm. -/
theorem Step.calm {input : Nat → Fields} {state after : State} {action : Action}
    (step : Step input state action after) (calm : state.Calm)
    (short : state.workerQueue.getSize ≤ highThreshold)
    : after.Calm := by
  have runs := (step_iff.mp step).2
  have ⟨unstaffed, looking, isOpen, toWrite, writer, main, deleted⟩ := calm
  have ⟨created, consumers, controller, outputQueue, writes, output, refused⟩ := unstaffed
  cases action with
  | reader =>
      obtain ⟨_, _, _, _, rfl⟩ := State.readerStep_frame runs
      exact ⟨⟨created, consumers, controller, outputQueue, writes, output, refused⟩, looking,
        isOpen, toWrite, writer, main, deleted⟩
  | producer index =>
      obtain ⟨_, _, _, _, rfl, _⟩ := State.producerStep_frame runs
      exact ⟨⟨created, consumers, controller, outputQueue, writes, output, refused⟩, looking,
        isOpen, toWrite, writer, main, deleted⟩
  | consumer id => cases unstaffed.consumerStep.symm.trans runs
  | cancellation id => cases unstaffed.cancellationStep.symm.trans runs
  | controller => exact calm.controllerStep short runs
  | writer accepted => exact calm.writerStep runs
  | main => exact calm.mainStep runs

/-- The worker queue holds no more lines than were read. -/
theorem Reachable.getSize_le {input : Nat → Fields} {expectedLines : Nat} {isOpen : Bool}
    {state : State} (reachable : Reachable input expectedLines isOpen state)
    : state.workerQueue.getSize ≤ expectedLines := by
  have total := reachable.conserved.lines.length_eq
  have bounded := reachable.read_le
  simp only [State.pending, State.unwritten, List.map_append, List.length_append,
    List.length_map, List.length_range] at total
  unfold BoundedQueue.getSize
  omega

/-- With few lines, all of which there are to write, nothing is ever deleted. -/
theorem Reachable.calm {input : Nat → Fields} {expectedLines : Nat} {state : State}
    (reachable : Reachable input expectedLines true state) (some : 0 < expectedLines)
    (few : expectedLines ≤ highThreshold)
    : state.Calm :=
  (@Runs.Reachable.invariant _ _ _ _ _
    (fun state => Reachable input expectedLines true state ∧ state.Calm) reachable
    ⟨.refl _, unstaffed_initial _ _, trivial, rfl, some, rfl, .inl rfl, rfl⟩
    (fun _ _ _ kept step =>
      ⟨kept.1.snoc step, step.calm kept.2 (kept.1.getSize_le.trans few)⟩)).2

-----------------------------------------------------------------------------------------
-- Deleted too early
-----------------------------------------------------------------------------------------

variable {input : Nat → Fields} {expectedLines : Nat}

/-- Once `main` has deleted the controller, the next wake of its thread uses it. -/
theorem uses_deleted_controller {isOpen : Bool}
    (produced : ∀ line, ∃ made, (input line).produce = some made)
    (few : expectedLines ≤ highThreshold) (ended : expectedLines = 0 ∨ isOpen = false)
    : ¬UsesNothingDeleted expectedLines isOpen := by
  intro safe
  have fit : highThreshold ≤ workerQueueSize := by decide
  obtain ⟨workerQueue, _, _, reachable⟩ :=
    reachable_filled isOpen produced expectedLines le_rfl (few.trans fit)
  have reached := Runs.Reachable.of_follow (fun _ _ _ step => step) reachable
    (follow_teardown workerQueue ended)
  refine safe input _ .controller _ reached (step_iff.mpr ⟨rfl, rfl⟩) .controller ?_ ?_
  · exact List.mem_singleton_self _
  · exact List.mem_cons_self ..

/-- The thread of a consumer tests a flag of the object that the controller deleted. -/
theorem uses_deleted_consumer {isOpen : Bool}
    (produced : ∀ line, ∃ made, (input line).produce = some made)
    (many : highThreshold < expectedLines)
    : ¬UsesNothingDeleted expectedLines isOpen := by
  intro safe
  obtain ⟨workerQueue, length, consumed, filling⟩ :=
    reachable_filled isOpen produced (highThreshold + 1) many (by decide)
  obtain ⟨rest, outputQueue, left, _, _, consuming⟩ :=
    @reachable_consumed input expectedLines isOpen (highThreshold + 1) workerQueue consumed
      (highThreshold + 2 - lowThreshold) (length ▸ by decide) (by decide)
  have high : highThreshold < workerQueue.getSize := (Nat.lt_succ_self _).trans_eq length.symm
  have few : rest.getSize < lowThreshold := by
    rw [length] at left
    unfold BoundedQueue.getSize
    omega
  have adding := Runs.Reachable.of_follow (fun _ _ _ step => step) filling
    (follow_staffed expectedLines isOpen (highThreshold + 1) high)
  have reached := Runs.Reachable.of_follow (fun _ _ _ step => step) (adding.trans consuming)
    (follow_removed expectedLines isOpen (highThreshold + 1) few)
  refine safe input _ (.consumer 1) _ reached (step_iff.mpr ⟨rfl, rfl⟩) (.consumer 1) ?_ ?_
  · exact List.mem_singleton_self _
  · exact List.mem_singleton_self _

-----------------------------------------------------------------------------------------
-- Main results
-----------------------------------------------------------------------------------------

/-- No step uses a deleted object exactly when the output file opens and there are some lines,
but not enough for the controller to add a consumer: then nothing is ever deleted. With more
lines a consumer can be deleted before its thread ends, and where the writer returns the
controller is deleted, whose thread never ends.
-/
theorem usesNothingDeleted_iff (expectedLines : Nat) (isOpen : Bool)
    : UsesNothingDeleted expectedLines isOpen
      ↔ 0 < expectedLines ∧ expectedLines ≤ highThreshold ∧ isOpen = true := by
  have produced (line : Nat) : ∃ made, (⟨1, 5, 'A'⟩ : Fields).produce = some made := ⟨_, rfl⟩
  constructor
  · intro safe
    have few : expectedLines ≤ highThreshold := by
      by_contra many
      exact uses_deleted_consumer produced (Nat.lt_of_not_le many) safe
    refine ⟨Nat.pos_of_ne_zero (fun none => ?_), few, ?_⟩
    · exact uses_deleted_controller produced few (.inl none) safe
    · by_contra closed
      exact uses_deleted_controller produced few (.inr (Bool.eq_false_of_not_eq_true closed)) safe
  · rintro ⟨some, few, rfl⟩ input state action after reachable _ object _
    rw [(reachable.calm some few).deleted]
    exact List.not_mem_nil

/-- A consumer that is to help with the lines of a small test is used after it was deleted. -/
theorem uses_deleted_of_200_lines : ¬UsesNothingDeleted 200 true := fun safe =>
  @uses_deleted_consumer (fun _ => ⟨1, 5, 'A'⟩) 200 true (fun _ => ⟨_, rfl⟩) (by decide) safe

end Nachos.Pthreads.Pipeline
