import Nachos.Pthreads.Pipeline

/-! Runs in which the threads pass the lines on one by one. -/

namespace Nachos.Pthreads.Pipeline

/-- The first lines passed a producer, and only the reader and that producer stepped so far. -/
def filled (expectedLines : Nat) (isOpen : Bool) (lines : Nat)
    (workerQueue : BoundedQueue workerQueueSize Item)
    : State :=
  {
    initial expectedLines isOpen with
    toRead := expectedLines - lines
    read := lines
    workerQueue
  }

/-- The reader reads a line, and the first producer takes it to the worker queue. -/
theorem follow_filled {input : Nat → Fields} {expectedLines lines : Nat} (isOpen : Bool)
    {workerQueue after : BoundedQueue workerQueueSize Item} {fields : Fields}
    (more : lines < expectedLines) (produced : (input lines).produce = some fields)
    (enqueued : workerQueue.enqueue ⟨fields, lines⟩ = some after)
    : Runs.follow (next input)
        [.reader, .reader, .reader, .producer 0, .producer 0, .producer 0, .producer 0, .producer 0]
        (filled expectedLines isOpen lines workerQueue)
      = some (filled expectedLines isOpen (lines + 1) after) := by
  have left : expectedLines - lines ≠ 0 := Nat.sub_ne_zero_of_lt more
  obtain ⟨one, entered, taken⟩ :=
    BoundedQueue.enqueue_empty (show 0 < readerQueueSize by decide)
      (⟨input lines, lines⟩ : Item)
  simp [Runs.follow, next, State.isOver, State.threadStep, State.readerStep, filled, initial, left,
    State.producerStep, State.setProducer, produced, enqueued, entered, taken, Nat.sub_sub]

/-- As many lines as the worker queue holds can wait there, each produced, before any consumer
is added, by induction on the lines.
-/
theorem reachable_filled {input : Nat → Fields} {expectedLines : Nat} (isOpen : Bool)
    (produced : ∀ line, ∃ made, (input line).produce = some made) (lines : Nat)
    (within : lines ≤ expectedLines) (fit : lines ≤ workerQueueSize)
    : ∃ workerQueue : BoundedQueue workerQueueSize Item,
        workerQueue.items.length = lines
        ∧ (∀ item ∈ workerQueue.items, ∃ made, item.consume = some made)
        ∧ Reachable input expectedLines isOpen
            (filled expectedLines isOpen lines workerQueue) := by
  induction lines with
  | zero => exact ⟨.empty, rfl, fun _ member => absurd member List.not_mem_nil, .refl _⟩
  | succ lines ih =>
      obtain ⟨workerQueue, length, consumed, reachable⟩ :=
        ih (Nat.le_of_succ_le within) (Nat.le_of_succ_le fit)
      obtain ⟨fields, made⟩ := produced lines
      have room : workerQueue.items.length < workerQueueSize := length.trans_lt fit
      obtain ⟨after, enqueued⟩ := Option.ne_none_iff_exists'.mp
        (fun full => Nat.not_le_of_lt room (BoundedQueue.enqueue_eq_none.mp full)
          : workerQueue.enqueue ⟨fields, lines⟩ ≠ none)
      have items := (BoundedQueue.enqueue_eq_some.mp enqueued).2
      refine ⟨after, ?_, fun item member => ?_, ?_⟩
      · rw [items, List.length_append, length, List.length_singleton]
      · rw [items] at member
        rcases List.mem_append.mp member with old | fresh
        · exact consumed item old
        · rw [List.mem_singleton.mp fresh]
          exact Fields.exists_consume made
      · exact Runs.Reachable.of_follow (fun _ _ _ step => step) reachable
          (follow_filled isOpen within made enqueued)

/-- Once the reader and the writer returned, `main` joins them and deletes the two threads and
the controller. The writer returns at once if there is nothing to write or no file to write to.
-/
theorem follow_teardown {input : Nat → Fields} {expectedLines : Nat} {isOpen : Bool}
    (workerQueue : BoundedQueue workerQueueSize Item)
    (ended : expectedLines = 0 ∨ isOpen = false)
    : Runs.follow (next input)
        (.reader :: List.replicate (if isOpen then 2 else 1) (.writer true)
          ++ List.replicate 5 .main)
        (filled expectedLines isOpen expectedLines workerQueue)
      = some
        {
          filled expectedLines isOpen expectedLines workerQueue with
          reader := .returned
          writer := .returned
          main := .deleting ((State.teardown 4).drop 3)
          deleted := [.controller, .writer, .reader]
        } := by
  cases isOpen with
  | false =>
      simp [Runs.follow, next, State.isOver, State.threadStep, State.readerStep, State.writerStep,
        State.mainStep, State.teardown, WriterPc.isEnded, filled, initial, List.replicate]
  | true =>
      have none : expectedLines = 0 := ended.resolve_right Bool.noConfusion
      subst none
      simp [Runs.follow, next, State.isOver, State.threadStep, State.readerStep, State.writerStep,
        State.mainStep, State.teardown, WriterPc.isEnded, filled, initial, List.replicate]

-----------------------------------------------------------------------------------------
-- Two consumers
-----------------------------------------------------------------------------------------

/-- A consumer whose thread was started and has not stepped. -/
def startedConsumer : Consumer := ⟨false, true, false, .testing⟩

/-- The controller added two consumers, and the first of them passed lines on. -/
def staffed (expectedLines : Nat) (isOpen : Bool) (lines : Nat)
    (workerQueue : BoundedQueue workerQueueSize Item)
    (outputQueue : BoundedQueue writerQueueSize Item)
    : State :=
  {
    filled expectedLines isOpen lines workerQueue with
    created := [startedConsumer, startedConsumer]
    consumers := [0, 1]
    outputQueue
  }

/-- Waking twice while many lines wait, the controller adds two consumers. -/
theorem follow_staffed {input : Nat → Fields} (expectedLines : Nat) (isOpen : Bool)
    (lines : Nat) {workerQueue : BoundedQueue workerQueueSize Item}
    (many : highThreshold < workerQueue.getSize)
    : Runs.follow (next input) (List.replicate 10 .controller)
        (filled expectedLines isOpen lines workerQueue)
      = some (staffed expectedLines isOpen lines workerQueue .empty) := by
  simp [Runs.follow, next, State.isOver, State.threadStep, State.controllerStep, State.scale,
    State.setConsumer, filled, initial, staffed, startedConsumer, many, List.replicate]

/-- The first consumer takes a line from the worker queue to the output queue. -/
theorem follow_consumer {input : Nat → Fields} (expectedLines : Nat) (isOpen : Bool)
    (lines : Nat) {workerQueue rest : BoundedQueue workerQueueSize Item}
    {outputQueue after : BoundedQueue writerQueueSize Item} {item : Item} {fields : Fields}
    (taken : workerQueue.dequeue = some (item, rest)) (consumed : item.consume = some fields)
    (entered : outputQueue.enqueue ⟨fields, item.line⟩ = some after)
    : Runs.follow (next input) (List.replicate 6 (.consumer 0))
        (staffed expectedLines isOpen lines workerQueue outputQueue)
      = some (staffed expectedLines isOpen lines rest after) := by
  simp [Runs.follow, next, State.isOver, State.threadStep, State.consumerStep, State.setConsumer,
    filled, initial, staffed, startedConsumer, taken, consumed, entered, List.replicate]

/-- The first consumer can take as many lines as it likes while the second one has not stepped,
by induction on these lines.
-/
theorem reachable_consumed {input : Nat → Fields} (expectedLines : Nat) (isOpen : Bool)
    (lines : Nat) {workerQueue : BoundedQueue workerQueueSize Item}
    (consumed : ∀ item ∈ workerQueue.items, ∃ made, item.consume = some made) (rounds : Nat)
    (enough : rounds ≤ workerQueue.items.length) (fit : rounds ≤ writerQueueSize)
    : ∃ rest outputQueue,
        rest.items.length + rounds = workerQueue.items.length
        ∧ outputQueue.items.length = rounds
        ∧ (∀ item ∈ rest.items, ∃ made, item.consume = some made)
        ∧ Runs.Reachable (Step input)
            (staffed expectedLines isOpen lines workerQueue .empty)
            (staffed expectedLines isOpen lines rest outputQueue) := by
  induction rounds with
  | zero => exact ⟨workerQueue, .empty, rfl, rfl, consumed, .refl _⟩
  | succ rounds ih =>
      obtain ⟨rest, outputQueue, left, length, consumable, reachable⟩ :=
        ih (Nat.le_of_succ_le enough) (Nat.le_of_succ_le fit)
      have some : rest.items ≠ [] := List.ne_nil_of_length_pos (by omega)
      obtain ⟨⟨item, others⟩, taken⟩ := Option.ne_none_iff_exists'.mp
        (fun empty => some (BoundedQueue.dequeue_eq_none.mp empty) : rest.dequeue ≠ none)
      have items := BoundedQueue.dequeue_eq_some.mp taken
      obtain ⟨fields, made⟩ := consumable item (items ▸ List.mem_cons_self ..)
      have room : outputQueue.items.length < writerQueueSize := length.trans_lt fit
      obtain ⟨after, entered⟩ := Option.ne_none_iff_exists'.mp
        (fun full => Nat.not_le_of_lt room (BoundedQueue.enqueue_eq_none.mp full)
          : outputQueue.enqueue ⟨fields, item.line⟩ ≠ none)
      refine ⟨others, after, ?_, ?_, fun other member => ?_, ?_⟩
      · rw [items, List.length_cons] at left
        omega
      · rw [(BoundedQueue.enqueue_eq_some.mp entered).2, List.length_append, length,
          List.length_singleton]
      · exact consumable other (items ▸ List.mem_cons_of_mem _ member)
      · exact Runs.Reachable.of_follow (fun _ _ _ step => step) reachable
          (follow_consumer expectedLines isOpen lines taken made entered)

/-- Waking while few lines wait, the controller asks the second consumer to end and deletes it,
whether its thread stepped or not.
-/
theorem follow_removed {input : Nat → Fields} (expectedLines : Nat) (isOpen : Bool)
    (lines : Nat) {workerQueue : BoundedQueue workerQueueSize Item}
    {outputQueue : BoundedQueue writerQueueSize Item}
    (few : workerQueue.getSize < lowThreshold)
    : Runs.follow (next input) (List.replicate 6 .controller)
        (staffed expectedLines isOpen lines workerQueue outputQueue)
      = some
        {
          staffed expectedLines isOpen lines workerQueue outputQueue with
          created := [startedConsumer, ⟨true, true, true, .testing⟩]
          consumers := [0]
          deleted := [.consumer 1]
        } := by
  have low : ¬highThreshold < workerQueue.getSize :=
    Nat.not_lt_of_lt (few.trans (by decide))
  simp [Runs.follow, next, State.isOver, State.threadStep, State.controllerStep, State.scale,
    State.setConsumer, filled, initial, staffed, startedConsumer, few, low, List.replicate]

end Nachos.Pthreads.Pipeline
