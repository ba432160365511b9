import Nachos.Lib.Runs
import Nachos.Pthreads.BoundedQueue
import Nachos.Pthreads.Transformer

/-! The threads that `main` starts, over three bounded queues. A step of a thread is one call
on a queue, or the code between two calls that works on one object.
-/

namespace Nachos.Pthreads.Pipeline

-- The values that `main` defines.
def readerQueueSize : Nat := 200
def workerQueueSize : Nat := 200
def writerQueueSize : Nat := 4000
def lowThreshold : Nat := workerQueueSize * 20 / 100
def highThreshold : Nat := workerQueueSize * 80 / 100

/-- The objects that `main` and the controller delete. -/
inductive Object where
  | reader
  | writer
  | controller
  | transformer
  | producer (index : Nat)
  | consumer (id : Nat)
  | inputQueue
  | workerQueue
  | outputQueue
  deriving DecidableEq

/-- Where the reader is. -/
inductive ReaderPc where
  | testing
  | reading
  | enqueuing (item : Item)
  | returned
  deriving DecidableEq

/-- Where a producer is. -/
inductive ProducerPc where
  /-- Before it reads the field `input_queue`. -/
  | loading
  | dequeuing
  | transforming (rawItem : Item)
  | enqueuing (rawItem item : Item)
  | deleting (rawItem : Item)
  deriving DecidableEq

/-- Where the thread of a consumer is. -/
inductive ConsumerPc where
  /-- Constructed, but not started. -/
  | created
  | testing
  /-- Before it disables cancellation and reads the field `worker_queue`. -/
  | disabling
  | dequeuing
  | transforming (item : Item)
  | enqueuing (item made : Item)
  /-- Before it deletes the item and enables cancellation. -/
  | deleting (item : Item)
  | ended
  deriving DecidableEq

/-- A `Consumer` with its thread. -/
structure Consumer where
  isCancel : Bool
  /-- The cancel state of the thread. -/
  enabled : Bool
  /-- `pthread_cancel` was called for the thread. -/
  requested : Bool
  pc : ConsumerPc
  deriving DecidableEq

/-- Where the controller is. -/
inductive ControllerPc where
  | sleeping
  | checking
  | comparing (currentSize : Nat)
  | adding
  | starting (id : Nat)
  | cancelling (id : Nat)
  | requesting (id : Nat)
  | removing (id : Nat)
  deriving DecidableEq

/-- Where the writer is. -/
inductive WriterPc where
  | opening
  | testing
  | dequeuing
  | writing (item : Item)
  | deleting (item : Item)
  | returned
  /-- It left the loop with an item that it neither wrote nor deleted. -/
  | gaveUp (item : Item)
  deriving DecidableEq

def WriterPc.isEnded : WriterPc → Bool
  | .returned | .gaveUp _ => true
  | _ => false

/-- Where `main` is, once it started the threads. -/
inductive MainPc where
  | joiningReader
  | joiningWriter
  | deleting (objects : List Object)
  | returned
  deriving DecidableEq

structure State where
  inputQueue : BoundedQueue readerQueueSize Item
  workerQueue : BoundedQueue workerQueueSize Item
  outputQueue : BoundedQueue writerQueueSize Item
  reader : ReaderPc
  /-- `Reader::expected_lines`, without the last decrement from zero. -/
  toRead : Nat
  /-- How many lines the reader took from its file. -/
  read : Nat
  producers : List ProducerPc
  /-- All consumers that were ever constructed. -/
  created : List Consumer
  controller : ControllerPc
  /-- `ConsumerController::consumers`. -/
  consumers : List Nat
  writer : WriterPc
  /-- `Writer::expected_lines`. -/
  toWrite : Nat
  isOpen : Bool
  /-- `ofs.fail()`. -/
  failed : Bool
  /-- What the output file holds. -/
  output : List Item
  /-- The items whose writes failed. -/
  refused : List Item
  main : MainPc
  deleted : List Object
  /-- An assertion failed. -/
  aborted : Bool

/-- The state after `main` started the threads. -/
def initial (expectedLines : Nat) (isOpen : Bool) : State :=
  {
    inputQueue := .empty
    workerQueue := .empty
    outputQueue := .empty
    reader := .testing
    toRead := expectedLines
    read := 0
    producers := [.loading, .loading, .loading, .loading]
    created := []
    controller := .sleeping
    consumers := []
    writer := .opening
    toWrite := expectedLines
    isOpen
    failed := !isOpen
    output := []
    refused := []
    main := .joiningReader
    deleted := []
    aborted := false
  }

namespace State

/-- No thread steps any more once the process ended. -/
def isOver (state : State) : Bool := state.aborted || decide (state.main = .returned)

-----------------------------------------------------------------------------------------
-- Reader::process
-----------------------------------------------------------------------------------------

/-- The reader takes whatever its file holds on the next line. -/
def readerStep (input : Nat → Fields) (state : State) : Option State :=
  match state.reader with
  | .testing =>
      if state.toRead = 0 then some { state with reader := .returned }
      else some { state with reader := .reading, toRead := state.toRead - 1 }
  | .reading =>
      some
        {
          state with
          reader := .enqueuing ⟨input state.read, state.read⟩
          read := state.read + 1
        }
  | .enqueuing item =>
      (state.inputQueue.enqueue item).map fun inputQueue =>
        { state with reader := .testing, inputQueue }
  | .returned => none

-----------------------------------------------------------------------------------------
-- Producer::process
-----------------------------------------------------------------------------------------

def setProducer (state : State) (index : Nat) (pc : ProducerPc) : State :=
  { state with producers := state.producers.set index pc }

def producerStep (index : Nat) (state : State) : Option State :=
  match state.producers[index]? with
  | none => none
  | some .loading => some (state.setProducer index .dequeuing)
  | some .dequeuing =>
      state.inputQueue.dequeue.map fun (rawItem, inputQueue) =>
        { state.setProducer index (.transforming rawItem) with inputQueue }
  | some (.transforming rawItem) =>
      match rawItem.produce with
      | none => some { state with aborted := true }
      | some fields =>
          some (state.setProducer index (.enqueuing rawItem ⟨fields, rawItem.line⟩))
  | some (.enqueuing rawItem item) =>
      (state.workerQueue.enqueue item).map fun workerQueue =>
        { state.setProducer index (.deleting rawItem) with workerQueue }
  | some (.deleting _) => some (state.setProducer index .loading)

-----------------------------------------------------------------------------------------
-- Consumer::process
-----------------------------------------------------------------------------------------

def setConsumer (state : State) (id : Nat) (consumer : Consumer) : State :=
  { state with created := state.created.set id consumer }

def consumerStep (id : Nat) (state : State) : Option State :=
  match state.created[id]? with
  | none => none
  | some consumer =>
      match consumer.pc with
      | .created | .ended => none
      | .testing =>
          let pc := if consumer.isCancel then .ended else .disabling
          some (state.setConsumer id { consumer with pc })
      | .disabling =>
          some (state.setConsumer id { consumer with pc := .dequeuing, enabled := false })
      | .dequeuing =>
          state.workerQueue.dequeue.map fun (item, workerQueue) =>
            {
              state.setConsumer id { consumer with pc := .transforming item } with
              workerQueue
            }
      | .transforming item =>
          match item.consume with
          | none => some { state with aborted := true }
          | some fields =>
              let pc := .enqueuing item ⟨fields, item.line⟩
              some (state.setConsumer id { consumer with pc })
      | .enqueuing item made =>
          (state.outputQueue.enqueue made).map fun outputQueue =>
            {
              state.setConsumer id { consumer with pc := .deleting item } with
              outputQueue
            }
      | .deleting _ =>
          some (state.setConsumer id { consumer with pc := .testing, enabled := true })

/-- The thread of a consumer acts on a request to cancel it. The type of its cancellation is
deferred, but no step here asks for a cancellation point: it may act wherever it did not
disable cancellation.
-/
def cancellationStep (id : Nat) (state : State) : Option State :=
  match state.created[id]? with
  | none => none
  | some consumer =>
      if consumer.requested && consumer.enabled && decide (consumer.pc ≠ .created) then
        some (state.setConsumer id { consumer with pc := .ended })
      else none

-----------------------------------------------------------------------------------------
-- ConsumerController::process
-----------------------------------------------------------------------------------------

/-- What the controller does about the size that it read. -/
def scale (consumers : List Nat) (currentSize : Nat) : ControllerPc :=
  if highThreshold < currentSize then .adding
  else if currentSize < lowThreshold ∧ 1 < consumers.length then
    match consumers.getLast? with
    | none => .sleeping
    | some id => .cancelling id
  else .sleeping

def controllerStep (state : State) : Option State :=
  match state.controller with
  | .sleeping => some { state with controller := .checking }
  | .checking => some { state with controller := .comparing state.workerQueue.getSize }
  | .comparing currentSize =>
      some { state with controller := scale state.consumers currentSize }
  | .adding =>
      let id := state.created.length
      some
        {
          state with
          controller := .starting id
          created := state.created ++ [⟨false, true, false, .created⟩]
          consumers := state.consumers ++ [id]
        }
  | .starting id =>
      state.created[id]?.map fun consumer =>
        { state.setConsumer id { consumer with pc := .testing } with controller := .sleeping }
  | .cancelling id =>
      state.created[id]?.map fun consumer =>
        {
          state.setConsumer id { consumer with isCancel := true } with
          controller := .requesting id
        }
  | .requesting id =>
      state.created[id]?.map fun consumer =>
        {
          state.setConsumer id { consumer with requested := true } with
          controller := .removing id
        }
  | .removing id =>
      some
        {
          state with
          controller := .sleeping
          consumers := state.consumers.dropLast
          deleted := .consumer id :: state.deleted
        }

-----------------------------------------------------------------------------------------
-- Writer::process
-----------------------------------------------------------------------------------------

/-- The writer; the stream accepts a write unless it failed. -/
def writerStep (accepted : Bool) (state : State) : Option State :=
  match state.writer with
  | .opening =>
      some { state with writer := if state.isOpen then .testing else .returned }
  | .testing =>
      some { state with writer := if 0 < state.toWrite then .dequeuing else .returned }
  | .dequeuing =>
      state.outputQueue.dequeue.map fun (item, outputQueue) =>
        { state with writer := .writing item, outputQueue }
  | .writing item =>
      if state.failed then some { state with writer := .gaveUp item }
      else if accepted then
        some
          {
            state with
            writer := .deleting item
            output := state.output ++ [item]
            toWrite := state.toWrite - 1
          }
      else
        some
          {
            state with
            writer := .deleting item
            failed := true
            refused := state.refused ++ [item]
            toWrite := state.toWrite - 1
          }
  | .deleting _ => some { state with writer := .testing }
  | .returned | .gaveUp _ => none

-----------------------------------------------------------------------------------------
-- main
-----------------------------------------------------------------------------------------

/-- What `main` deletes after it joined the reader and the writer, in this order. -/
def teardown (producers : Nat) : List Object :=
  [.reader, .writer, .controller, .transformer]
    ++ (List.range producers).map .producer
    ++ [.inputQueue, .workerQueue, .outputQueue]

def mainStep (state : State) : Option State :=
  match state.main with
  | .joiningReader =>
      if state.reader = .returned then some { state with main := .joiningWriter } else none
  | .joiningWriter =>
      if state.writer.isEnded then
        some { state with main := .deleting (teardown state.producers.length) }
      else none
  | .deleting [] => some { state with main := .returned }
  | .deleting (object :: objects) =>
      some { state with main := .deleting objects, deleted := object :: state.deleted }
  | .returned => none

end State

-----------------------------------------------------------------------------------------
-- Steps
-----------------------------------------------------------------------------------------

inductive Action where
  | reader
  | producer (index : Nat)
  | consumer (id : Nat)
  | cancellation (id : Nat)
  | controller
  | writer (accepted : Bool)
  | main
  deriving DecidableEq

def State.threadStep (input : Nat → Fields) (state : State) : Action → Option State
  | .reader => state.readerStep input
  | .producer index => state.producerStep index
  | .consumer id => state.consumerStep id
  | .cancellation id => state.cancellationStep id
  | .controller => state.controllerStep
  | .writer accepted => state.writerStep accepted
  | .main => state.mainStep

/-- The step of a thread, unless the process ended. -/
def next (input : Nat → Fields) (state : State) (action : Action) : Option State :=
  if state.isOver then none else state.threadStep input action

def Step (input : Nat → Fields) (state : State) (action : Action) (after : State) : Prop :=
  next input state action = some after

/-- The states of the runs over an input, for a number of lines. -/
def Reachable (input : Nat → Fields) (expectedLines : Nat) (isOpen : Bool) (state : State)
    : Prop :=
  Runs.Reachable (Step input) (initial expectedLines isOpen) state

/-- A step of the system is a step of one of its threads, unless the program is over. -/
theorem step_iff {input : Nat → Fields} {state after : State} {action : Action}
    : Step input state action after
      ↔ state.isOver = false ∧ state.threadStep input action = some after := by
  unfold Step next
  split
  · rename_i ended
    exact iff_of_false nofun (fun runs => Bool.noConfusion (runs.1.symm.trans ended))
  · rename_i running
    exact (and_iff_right (Bool.eq_false_of_not_eq_true running)).symm

-----------------------------------------------------------------------------------------
-- What the threads leave alone
-----------------------------------------------------------------------------------------

namespace State

variable {input : Nat → Fields} {state after : State}

/-- The reader changes its place, its input and the input queue, by cases on its place. -/
theorem readerStep_frame (step : state.readerStep input = some after)
    : ∃ reader toRead read inputQueue,
        after = { state with reader, toRead, read, inputQueue } := by
  unfold readerStep at step
  split at step
  · split at step <;> cases step <;> exact ⟨_, _, _, _, rfl⟩
  · cases step
    exact ⟨_, _, _, _, rfl⟩
  · obtain ⟨_, _, rfl⟩ := Option.map_eq_some_iff.mp step
    exact ⟨_, _, _, _, rfl⟩
  · cases step

/-- A producer changes its place and the two queues beside it, by cases on its place; no producer
comes or goes.
-/
theorem producerStep_frame {index : Nat} (step : state.producerStep index = some after)
    : ∃ producers inputQueue workerQueue aborted,
        after = { state with producers, inputQueue, workerQueue, aborted }
        ∧ producers.length = state.producers.length := by
  unfold producerStep at step
  split at step
  · cases step
  · cases step
    exact ⟨_, _, _, _, rfl, List.length_set⟩
  · obtain ⟨_, _, rfl⟩ := Option.map_eq_some_iff.mp step
    exact ⟨_, _, _, _, rfl, List.length_set⟩
  · split at step <;> cases step
    · exact ⟨_, _, _, _, rfl, rfl⟩
    · exact ⟨_, _, _, _, rfl, List.length_set⟩
  · obtain ⟨_, _, rfl⟩ := Option.map_eq_some_iff.mp step
    exact ⟨_, _, _, _, rfl, List.length_set⟩
  · cases step
    exact ⟨_, _, _, _, rfl, List.length_set⟩

/-- A consumer changes its record and the two queues beside it, by cases on its place. -/
theorem consumerStep_frame {id : Nat} (step : state.consumerStep id = some after)
    : ∃ created workerQueue outputQueue aborted,
        after = { state with created, workerQueue, outputQueue, aborted } := by
  unfold consumerStep at step
  split at step
  · cases step
  · split at step
    · cases step
    · cases step
    · cases step
      exact ⟨_, _, _, _, rfl⟩
    · cases step
      exact ⟨_, _, _, _, rfl⟩
    · obtain ⟨_, _, rfl⟩ := Option.map_eq_some_iff.mp step
      exact ⟨_, _, _, _, rfl⟩
    · split at step <;> cases step <;> exact ⟨_, _, _, _, rfl⟩
    · obtain ⟨_, _, rfl⟩ := Option.map_eq_some_iff.mp step
      exact ⟨_, _, _, _, rfl⟩
    · cases step
      exact ⟨_, _, _, _, rfl⟩

/-- A cancellation that is honoured changes the record of its consumer. -/
theorem cancellationStep_frame {id : Nat} (step : state.cancellationStep id = some after)
    : ∃ created, after = { state with created } := by
  unfold cancellationStep at step
  split at step
  · cases step
  · split at step <;> cases step
    exact ⟨_, rfl⟩

/-- The controller changes its place and the consumers, by cases on its place. -/
theorem controllerStep_frame (step : state.controllerStep = some after)
    : ∃ controller created consumers deleted,
        after = { state with controller, created, consumers, deleted } := by
  unfold controllerStep at step
  split at step
  all_goals
    first
    | cases step
      exact ⟨_, _, _, _, rfl⟩
    | obtain ⟨_, _, rfl⟩ := Option.map_eq_some_iff.mp step
      exact ⟨_, _, _, _, rfl⟩

/-- The writer changes its place, the output queue and the output, by cases on its place. -/
theorem writerStep_frame {accepted : Bool} (step : state.writerStep accepted = some after)
    : ∃ writer outputQueue output refused toWrite failed,
        after = { state with writer, outputQueue, output, refused, toWrite, failed } := by
  unfold writerStep at step
  split at step
  · cases step
    exact ⟨_, _, _, _, _, _, rfl⟩
  · cases step
    exact ⟨_, _, _, _, _, _, rfl⟩
  · obtain ⟨_, _, rfl⟩ := Option.map_eq_some_iff.mp step
    exact ⟨_, _, _, _, _, _, rfl⟩
  · split at step
    · cases step
      exact ⟨_, _, _, _, _, _, rfl⟩
    · split at step <;> cases step <;> exact ⟨_, _, _, _, _, _, rfl⟩
  · cases step
    exact ⟨_, _, _, _, _, _, rfl⟩
  · cases step
  · cases step

/-- The main thread changes its place and what is deleted, by cases on its place. -/
theorem mainStep_frame (step : state.mainStep = some after)
    : ∃ main deleted, after = { state with main, deleted } := by
  unfold mainStep at step
  split at step
  · split at step <;> cases step
    exact ⟨_, _, rfl⟩
  · split at step <;> cases step
    exact ⟨_, _, rfl⟩
  · cases step
    exact ⟨_, _, rfl⟩
  · cases step
    exact ⟨_, _, rfl⟩
  · cases step

end State

end Nachos.Pthreads.Pipeline
