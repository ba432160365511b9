import Mathlib.Data.List.Count
import Nachos.Pthreads.Cancellation

/-! Every line that was read has one item still to be passed on. A step moves such an item,
or makes the next one of it; what a thread hands on, it only deletes afterwards.
-/

namespace Nachos.Pthreads.Pipeline

-----------------------------------------------------------------------------------------
-- The items in the hands of the threads
-----------------------------------------------------------------------------------------

/-- The items that the thread has in its hand. -/
def ReaderPc.held : ReaderPc → List Item
  | .enqueuing item => [item]
  | _ => []

def ProducerPc.held : ProducerPc → List Item
  | .transforming rawItem | .deleting rawItem => [rawItem]
  | .enqueuing rawItem item => [rawItem, item]
  | _ => []

def ConsumerPc.held : ConsumerPc → List Item
  | .transforming item | .deleting item => [item]
  | .enqueuing item made => [item, made]
  | _ => []

def WriterPc.held : WriterPc → List Item
  | .writing item | .deleting item | .gaveUp item => [item]
  | _ => []

/-- The item that the thread has yet to pass on, with its stage. -/
def ReaderPc.pending : ReaderPc → List (Stage × Item)
  | .enqueuing item => [(.read, item)]
  | _ => []

def ProducerPc.pending : ProducerPc → List (Stage × Item)
  | .transforming rawItem => [(.read, rawItem)]
  | .enqueuing _ item => [(.produced, item)]
  | _ => []

def ConsumerPc.pending : ConsumerPc → List (Stage × Item)
  | .transforming item => [(.produced, item)]
  | .enqueuing _ made => [(.consumed, made)]
  | _ => []

def Consumer.pending (consumer : Consumer) : List (Stage × Item) := consumer.pc.pending

def WriterPc.pending : WriterPc → List (Stage × Item)
  | .writing item | .gaveUp item => [(.consumed, item)]
  | _ => []

/-- The item of which the thread made or wrote the next one, and which it has yet to delete. -/
def ProducerPc.spent : ProducerPc → List Item
  | .enqueuing rawItem _ | .deleting rawItem => [rawItem]
  | _ => []

def ConsumerPc.spent : ConsumerPc → List Item
  | .enqueuing item _ | .deleting item => [item]
  | _ => []

def WriterPc.spent : WriterPc → List Item
  | .deleting item => [item]
  | _ => []

namespace State

/-- The items still to be passed on to the output file, place by place. -/
def unwritten (state : State) : List (Stage × Item) :=
  state.reader.pending
    ++ state.inputQueue.items.map (Prod.mk .read)
    ++ state.producers.flatMap ProducerPc.pending
    ++ state.workerQueue.items.map (Prod.mk .produced)
    ++ state.created.flatMap Consumer.pending
    ++ state.outputQueue.items.map (Prod.mk .consumed)
    ++ state.writer.pending
    ++ state.refused.map (Prod.mk .consumed)

/-- The items still to be passed on, and those that reached the output file. -/
def pending (state : State) : List (Stage × Item) :=
  state.unwritten ++ state.output.map (Prod.mk .consumed)

/-- The items that their threads only delete. -/
def spent (state : State) : List Item :=
  state.producers.flatMap ProducerPc.spent
    ++ state.created.flatMap (fun consumer => consumer.pc.spent)
    ++ state.writer.spent

/-- The items in all places. -/
def items (state : State) : List Item :=
  state.reader.held
    ++ state.inputQueue.items
    ++ state.producers.flatMap ProducerPc.held
    ++ state.workerQueue.items
    ++ state.created.flatMap (fun consumer => consumer.pc.held)
    ++ state.outputQueue.items
    ++ state.writer.held
    ++ state.refused
    ++ state.output

end State

theorem ConsumerPc.pending_of_isIdle {pc : ConsumerPc} (idle : pc.isIdle = true)
    : pc.pending = [] := by
  cases pc <;> first | rfl | cases idle

-----------------------------------------------------------------------------------------
-- What one step does to the pending items
-----------------------------------------------------------------------------------------

/-- A step moves a pending item, takes a line from the input, or makes the next item of one. -/
inductive Advance (input : Nat → Fields) (state after : State) : Prop where
  | move (same : after.read = state.read) (moved : after.pending.Perm state.pending)
  | read (more : after.read = state.read + 1)
      (taken
        : after.pending.Perm
            ((.read, ⟨input state.read, state.read⟩) :: state.pending))
  | make {stage next : Stage} {item made : Item} (same : after.read = state.read)
      (makes : stage.Makes item.toFields next made.toFields) (line : made.line = item.line)
      (replaced : ([(stage, item)] ++ after.pending).Perm ([(next, made)] ++ state.pending))

/-- Replacing one element replaces what comes of it, by induction on the list. -/
theorem count_flatMap_set {α β : Type} [BEq β] (hand : α → List β) (item : β) {places : List α}
    {index : Nat} {old : α} (place : places[index]? = some old) (new : α)
    : ((places.set index new).flatMap hand).count item + (hand old).count item
      = (places.flatMap hand).count item + (hand new).count item := by
  induction places generalizing index with
  | nil => cases place
  | cons first rest ih =>
      cases index with
      | zero =>
          cases place
          simp only [List.set_cons_zero, List.flatMap_cons, List.count_append]
          omega
      | succ index =>
          have moved := ih place
          simp only [List.set_cons_succ, List.flatMap_cons, List.count_append]
          omega

/-- The first item of a queue, apart from the others. -/
theorem count_map_cons (stage : Stage) (item : Item) (rest : List Item) (entry : Stage × Item)
    : ((item :: rest).map (Prod.mk stage)).count entry
      = [(stage, item)].count entry + (rest.map (Prod.mk stage)).count entry := by
  rw [List.map_cons, ← List.singleton_append, List.count_append]

namespace State

variable {input : Nat → Fields} {state after : State}

/-- A producer that goes on with the same pending item moves nothing. -/
theorem pending_setProducer {index : Nat} {old pc : ProducerPc}
    (place : state.producers[index]? = some old) (same : pc.pending = old.pending)
    : (state.setProducer index pc).pending.Perm state.pending := by
  refine List.perm_iff_count.mpr (fun entry => ?_)
  have moved := count_flatMap_set ProducerPc.pending entry place pc
  rw [same] at moved
  simp only [pending, unwritten, setProducer, List.count_append]
  omega

/-- A consumer that goes on with the same pending item moves nothing. -/
theorem pending_setConsumer {id : Nat} {old : Consumer} (place : state.created[id]? = some old)
    (new : Consumer) (same : new.pending = old.pending)
    : (state.setConsumer id new).pending.Perm state.pending := by
  refine List.perm_iff_count.mpr (fun entry => ?_)
  have moved := count_flatMap_set Consumer.pending entry place new
  rw [same] at moved
  simp only [pending, unwritten, setConsumer, List.count_append]
  omega

/-- The reader advances an item or stays, by cases on its place: a line that it reads becomes an
item that is pending.
-/
theorem readerStep_advance (step : state.readerStep input = some after)
    : Advance input state after := by
  unfold readerStep at step
  split at step
  · rename_i place
    split at step <;> cases step
    all_goals exact .move rfl (by simp [pending, unwritten, place, ReaderPc.pending])
  · rename_i place
    cases step
    exact .read rfl (by simp [pending, unwritten, place, ReaderPc.pending])
  · rename_i item place
    obtain ⟨next, enqueued, rfl⟩ := Option.map_eq_some_iff.mp step
    refine .move rfl (List.perm_iff_count.mpr (fun entry => ?_))
    simp only [pending, unwritten, place, (BoundedQueue.enqueue_eq_some.mp enqueued).2, ReaderPc.pending,
      List.count_append, List.map_append, List.map_cons, List.map_nil, List.count_nil]
    omega
  · cases step

/-- A producer advances its item, by cases on its place. -/
theorem producerStep_advance {index : Nat} (step : state.producerStep index = some after)
    : Advance input state after := by
  unfold producerStep at step
  split at step
  · cases step
  · rename_i place
    cases step
    exact .move rfl (pending_setProducer place rfl)
  · rename_i place
    obtain ⟨⟨item, rest⟩, dequeued, rfl⟩ := Option.map_eq_some_iff.mp step
    refine .move rfl (List.perm_iff_count.mpr (fun entry => ?_))
    have moved := count_flatMap_set ProducerPc.pending entry place (.transforming item)
    simp only [ProducerPc.pending, List.count_nil] at moved
    simp only [pending, unwritten, setProducer, BoundedQueue.dequeue_eq_some.mp dequeued, count_map_cons,
      List.count_append]
    omega
  · rename_i rawItem place
    split at step <;> cases step
    · exact .move rfl .rfl
    · rename_i fields produced
      have makes : Stage.Makes .read rawItem.toFields .produced
          (Item.mk fields rawItem.line).toFields := .produce produced
      refine .make rfl makes rfl (List.perm_iff_count.mpr (fun entry => ?_))
      have moved := count_flatMap_set ProducerPc.pending entry place
        (.enqueuing rawItem ⟨fields, rawItem.line⟩)
      simp only [ProducerPc.pending] at moved
      simp only [pending, unwritten, setProducer, List.count_append]
      omega
  · rename_i rawItem item place
    obtain ⟨next, enqueued, rfl⟩ := Option.map_eq_some_iff.mp step
    refine .move rfl (List.perm_iff_count.mpr (fun entry => ?_))
    have moved := count_flatMap_set ProducerPc.pending entry place (.deleting rawItem)
    simp only [ProducerPc.pending, List.count_nil] at moved
    simp only [pending, unwritten, setProducer, (BoundedQueue.enqueue_eq_some.mp enqueued).2,
      List.map_append, List.map_cons, List.map_nil, List.count_append]
    omega
  · rename_i rawItem place
    cases step
    exact .move rfl (pending_setProducer place rfl)

/-- A consumer advances its item, by cases on its place. Witness: in each of them only its own item
moves.
-/
theorem consumerStep_advance {id : Nat} (step : state.consumerStep id = some after)
    : Advance input state after := by
  unfold consumerStep at step
  split at step
  · cases step
  rename_i consumer place
  have replace (new : Consumer) (entry : Stage × Item) :=
    count_flatMap_set Consumer.pending entry place new
  split at step
  · cases step
  · cases step
  · rename_i stands
    cases step
    refine .move rfl (pending_setConsumer place _ ?_)
    simp only [Consumer.pending, stands]
    split <;> rfl
  · rename_i stands
    cases step
    refine .move rfl (pending_setConsumer place _ ?_)
    rw [Consumer.pending, Consumer.pending, stands]
    rfl
  · rename_i stands
    obtain ⟨⟨item, rest⟩, dequeued, rfl⟩ := Option.map_eq_some_iff.mp step
    refine .move rfl (List.perm_iff_count.mpr (fun entry => ?_))
    have moved := replace { consumer with pc := .transforming item } entry
    simp only [Consumer.pending, stands, ConsumerPc.pending, List.count_nil] at moved
    simp only [pending, unwritten, setConsumer, BoundedQueue.dequeue_eq_some.mp dequeued, count_map_cons,
      List.count_append]
    omega
  · rename_i item stands
    split at step <;> cases step
    · exact .move rfl .rfl
    · rename_i fields consumed
      have makes : Stage.Makes .produced item.toFields .consumed
          (Item.mk fields item.line).toFields := .consume consumed
      refine .make rfl makes rfl (List.perm_iff_count.mpr (fun entry => ?_))
      have moved := replace
        { consumer with pc := .enqueuing item ⟨fields, item.line⟩ } entry
      simp only [Consumer.pending, stands, ConsumerPc.pending] at moved
      simp only [pending, unwritten, setConsumer, List.count_append]
      omega
  · rename_i item made stands
    obtain ⟨next, enqueued, rfl⟩ := Option.map_eq_some_iff.mp step
    refine .move rfl (List.perm_iff_count.mpr (fun entry => ?_))
    have moved := replace { consumer with pc := .deleting item } entry
    simp only [Consumer.pending, stands, ConsumerPc.pending, List.count_nil] at moved
    simp only [pending, unwritten, setConsumer, (BoundedQueue.enqueue_eq_some.mp enqueued).2,
      List.map_append, List.map_cons, List.map_nil, List.count_append]
    omega
  · rename_i item stands
    cases step
    refine .move rfl (pending_setConsumer place _ ?_)
    rw [Consumer.pending, Consumer.pending, stands]
    rfl

/-- The thread that a request ends has no item in its hand. -/
theorem cancellationStep_advance {id : Nat} (guarded : state.Guarded)
    (step : state.cancellationStep id = some after)
    : Advance input state after := by
  unfold cancellationStep at step
  split at step
  · cases step
  · rename_i consumer place
    split at step <;> cases step
    rename_i honoured
    simp only [Bool.and_eq_true] at honoured
    have idle := guarded.idle consumer (List.mem_of_getElem? place) honoured.1.2
    exact .move rfl (pending_setConsumer place _ (ConsumerPc.pending_of_isIdle idle).symm)

/-- The controller works on the flags of consumers, and on threads that have not begun. -/
theorem controllerStep_advance (guarded : state.Guarded)
    (step : state.controllerStep = some after)
    : Advance input state after := by
  unfold controllerStep at step
  split at step
  · cases step
    exact .move rfl .rfl
  · cases step
    exact .move rfl .rfl
  · cases step
    exact .move rfl .rfl
  · cases step
    exact .move rfl (by simp [pending, unwritten, Consumer.pending, ConsumerPc.pending])
  · rename_i id starts
    obtain ⟨consumer, place, rfl⟩ := Option.map_eq_some_iff.mp step
    have created := guarded.fresh id consumer starts place
    refine .move rfl (pending_setConsumer place { consumer with pc := .testing } ?_)
    rw [Consumer.pending, Consumer.pending, created]
    rfl
  · obtain ⟨consumer, place, rfl⟩ := Option.map_eq_some_iff.mp step
    exact .move rfl (pending_setConsumer place { consumer with isCancel := true } rfl)
  · obtain ⟨consumer, place, rfl⟩ := Option.map_eq_some_iff.mp step
    exact .move rfl (pending_setConsumer place { consumer with requested := true } rfl)
  · cases step
    exact .move rfl .rfl

/-- The writer advances its item, by cases on its place: an item that is written stops being
pending.
-/
theorem writerStep_advance {accepted : Bool} (step : state.writerStep accepted = some after)
    : Advance input state after := by
  unfold writerStep at step
  split at step
  · rename_i stands
    cases step
    refine .move rfl (List.Perm.of_eq ?_)
    simp only [pending, unwritten, stands]
    split <;> rfl
  · rename_i stands
    cases step
    refine .move rfl (List.Perm.of_eq ?_)
    simp only [pending, unwritten, stands]
    split <;> rfl
  · rename_i stands
    obtain ⟨⟨item, rest⟩, dequeued, rfl⟩ := Option.map_eq_some_iff.mp step
    refine .move rfl (List.perm_iff_count.mpr (fun entry => ?_))
    simp only [pending, unwritten, stands, BoundedQueue.dequeue_eq_some.mp dequeued, count_map_cons,
      WriterPc.pending, List.count_append, List.count_nil]
    omega
  · rename_i item stands
    split at step
    · cases step
      refine .move rfl (List.Perm.of_eq ?_)
      simp only [pending, unwritten, stands]
      rfl
    · split at step <;> cases step
      all_goals
        refine .move rfl (List.perm_iff_count.mpr (fun entry => ?_))
        simp only [pending, unwritten, stands, WriterPc.pending, List.map_append, List.map_cons,
          List.map_nil, List.count_append, List.count_nil]
        omega
  · rename_i stands
    cases step
    refine .move rfl (List.Perm.of_eq ?_)
    simp only [pending, unwritten, stands]
    rfl
  · cases step
  · cases step

end State

/-- Every step advances at most one item, by cases on the thread. -/
theorem Step.advance {input : Nat → Fields} {state after : State} {action : Action}
    (step : Step input state action after) (guarded : state.Guarded)
    : Advance input state after := by
  have runs := (step_iff.mp step).2
  cases action with
  | reader => exact State.readerStep_advance runs
  | producer index => exact State.producerStep_advance runs
  | consumer id => exact State.consumerStep_advance runs
  | cancellation id => exact State.cancellationStep_advance guarded runs
  | controller => exact State.controllerStep_advance guarded runs
  | writer accepted => exact State.writerStep_advance runs
  | main =>
      obtain ⟨_, _, rfl⟩ := State.mainStep_frame runs
      exact .move rfl .rfl

-----------------------------------------------------------------------------------------
-- Runs
-----------------------------------------------------------------------------------------

/-- The pending items stand for the lines read so far, each for one of its own, and say what
their stages make of it.
-/
structure State.Conserved (input : Nat → Fields) (state : State) : Prop where
  lines : (state.pending.map (fun entry => entry.2.line)).Perm (List.range state.read)
  fields : ∀ entry ∈ state.pending, entry.1.fields (input entry.2.line) = some entry.2.toFields

/-- An advance conserves lines and fields, by cases on it: items move, or one line is read. -/
theorem Advance.conserved {input : Nat → Fields} {state after : State}
    (advance : Advance input state after) (conserved : state.Conserved input)
    : after.Conserved input := by
  obtain ⟨lines, fields⟩ := conserved
  cases advance with
  | move same moved =>
      refine ⟨same ▸ (moved.map _).trans lines, fun entry member => ?_⟩
      exact fields entry (moved.mem_iff.mp member)
  | read more taken =>
      constructor
      · rw [more, List.range_succ]
        refine (taken.map _).trans ((lines.cons state.read).trans ?_)
        exact (List.perm_append_singleton _ _).symm
      · intro entry member
        rcases List.mem_cons.mp (taken.mem_iff.mp member) with rfl | old
        · rfl
        · exact fields entry old
  | @make stage next item made same makes line replaced =>
      have before : (stage, item) ∈ state.pending := by
        have member := replaced.mem_iff.mp (List.mem_cons_self ..)
        rcases List.mem_cons.mp member with equal | old
        · cases makes <;> cases equal
        · exact old
      constructor
      · have mapped := replaced.map (fun entry => entry.2.line)
        simp only [List.map_append, List.map_cons, List.map_nil, line] at mapped
        exact same ▸ ((List.perm_append_left_iff _).mp mapped).trans lines
      · intro entry member
        rcases List.mem_cons.mp (replaced.mem_iff.mp (List.mem_cons_of_mem _ member)) with
          rfl | old
        · exact line ▸ makes.fields (fields _ before)
        · exact fields entry old

theorem conserved_initial (input : Nat → Fields) (expectedLines : Nat) (isOpen : Bool)
    : (initial expectedLines isOpen).Conserved input where
  lines := .rfl
  fields _ member := absurd member List.not_mem_nil

-----------------------------------------------------------------------------------------
-- The counters
-----------------------------------------------------------------------------------------

/-- The writer takes or writes an item. -/
def WriterPc.isBusy : WriterPc → Bool
  | .dequeuing | .writing _ => true
  | _ => false

/-- The counters of the reader and of the writer say what is left of the lines. -/
structure State.Counted (expectedLines : Nat) (state : State) : Prop where
  read : state.read + state.toRead + (if state.reader = .reading then 1 else 0) = expectedLines
  returned : state.reader = .returned → state.toRead = 0
  written : state.output.length + state.refused.length + state.toWrite = expectedLines
  writing : state.writer.isBusy = true → 0 < state.toWrite

namespace State

variable {input : Nat → Fields} {expectedLines : Nat} {isOpen : Bool} {state after : State}

/-- The reader counts the lines that it reads and returns after the expected ones, by cases on its
place.
-/
theorem readerStep_counted (step : state.readerStep input = some after)
    (counted : state.Counted expectedLines)
    : after.Counted expectedLines := by
  obtain ⟨read, returned, written, writing⟩ := counted
  unfold readerStep at step
  split at step
  · rename_i stands
    rw [stands] at read
    simp only [reduceCtorEq, if_false] at read
    split at step
    · rename_i done
      cases step
      exact ⟨read, fun _ => done, written, writing⟩
    · rename_i more
      cases step
      refine ⟨?_, nofun, written, writing⟩
      simp only [if_true]
      omega
  · rename_i stands
    rw [stands] at read
    simp only [if_true] at read
    cases step
    refine ⟨?_, nofun, written, writing⟩
    simp only [reduceCtorEq, if_false]
    omega
  · rename_i item stands
    rw [stands] at read
    obtain ⟨_, _, rfl⟩ := Option.map_eq_some_iff.mp step
    exact ⟨read, nofun, written, writing⟩
  · cases step

/-- The writer counts the items that it writes and returns after the expected ones, by cases on its
place.
-/
theorem writerStep_counted {accepted : Bool} (step : state.writerStep accepted = some after)
    (counted : state.Counted expectedLines)
    : after.Counted expectedLines := by
  obtain ⟨read, returned, written, writing⟩ := counted
  unfold writerStep at step
  split at step
  · cases step
    refine ⟨read, returned, written, fun busy => ?_⟩
    dsimp only at busy
    split at busy <;> cases busy
  · cases step
    refine ⟨read, returned, written, fun busy => ?_⟩
    dsimp only at busy
    split at busy
    · rename_i more
      exact more
    · cases busy
  · rename_i stands
    obtain ⟨_, _, rfl⟩ := Option.map_eq_some_iff.mp step
    exact ⟨read, returned, written, fun _ => writing (stands ▸ rfl)⟩
  · rename_i item stands
    have more := writing (stands ▸ rfl)
    split at step
    · cases step
      exact ⟨read, returned, written, nofun⟩
    · split at step <;> cases step
      all_goals
        refine ⟨read, returned, ?_, nofun⟩
        simp only [List.length_append, List.length_singleton]
        omega
  · cases step
    exact ⟨read, returned, written, nofun⟩
  · cases step
  · cases step

end State

/-- Every step keeps the counts, by cases on the thread; only reader and writer change them. -/
theorem Step.counted {input : Nat → Fields} {expectedLines : Nat} {state after : State}
    {action : Action} (step : Step input state action after)
    (counted : state.Counted expectedLines)
    : after.Counted expectedLines := by
  have runs := (step_iff.mp step).2
  have ⟨read, returned, written, writing⟩ := counted
  cases action with
  | reader => exact State.readerStep_counted runs counted
  | producer index =>
      obtain ⟨_, _, _, _, rfl, _⟩ := State.producerStep_frame runs
      exact ⟨read, returned, written, writing⟩
  | consumer id =>
      obtain ⟨_, _, _, _, rfl⟩ := State.consumerStep_frame runs
      exact ⟨read, returned, written, writing⟩
  | cancellation id =>
      obtain ⟨_, rfl⟩ := State.cancellationStep_frame runs
      exact ⟨read, returned, written, writing⟩
  | controller =>
      obtain ⟨_, _, _, _, rfl⟩ := State.controllerStep_frame runs
      exact ⟨read, returned, written, writing⟩
  | writer accepted => exact State.writerStep_counted runs counted
  | main =>
      obtain ⟨_, _, rfl⟩ := State.mainStep_frame runs
      exact ⟨read, returned, written, writing⟩

theorem counted_initial (expectedLines : Nat) (isOpen : Bool)
    : (initial expectedLines isOpen).Counted expectedLines where
  read := Nat.zero_add _
  returned := nofun
  written := Nat.zero_add _
  writing := nofun

namespace Reachable

variable {input : Nat → Fields} {expectedLines : Nat} {isOpen : Bool} {state : State}

theorem conserved (reachable : Reachable input expectedLines isOpen state)
    : state.Conserved input :=
  (@Runs.Reachable.invariant _ _ _ _ _ (fun state => state.Guarded ∧ state.Conserved input)
    reachable ⟨guarded_initial _ _, conserved_initial _ _ _⟩
    (fun _ _ _ kept step =>
      ⟨step.guarded kept.1, (step.advance kept.1).conserved kept.2⟩)).2

theorem counted (reachable : Reachable input expectedLines isOpen state)
    : state.Counted expectedLines :=
  @Runs.Reachable.invariant _ _ _ _ _ (State.Counted expectedLines) reachable
    (counted_initial _ _) (fun _ _ _ kept step => step.counted kept)

/-- No more lines are read than there should be. -/
theorem read_le (reachable : Reachable input expectedLines isOpen state)
    : state.read ≤ expectedLines := by
  have counted := reachable.counted.read
  omega

end Reachable

-----------------------------------------------------------------------------------------
-- What there is besides
-----------------------------------------------------------------------------------------

/-- Every item in the hand of a thread is still to be passed on or only to be deleted. -/
theorem ProducerPc.held_perm (pc : ProducerPc)
    : pc.held.Perm (pc.pending.map Prod.snd ++ pc.spent) := by
  cases pc with
  | enqueuing rawItem item => exact .swap _ _ _
  | _ => exact .rfl

theorem ConsumerPc.held_perm (pc : ConsumerPc)
    : pc.held.Perm (pc.pending.map Prod.snd ++ pc.spent) := by
  cases pc with
  | enqueuing item made => exact .swap _ _ _
  | _ => exact .rfl

/-- The hands of several threads, by induction on them. -/
theorem flatMap_held_perm {α : Type} {held spent : α → List Item}
    {pending : α → List (Stage × Item)} (threads : List α)
    (each : ∀ thread, (held thread).Perm ((pending thread).map Prod.snd ++ spent thread))
    : (threads.flatMap held).Perm
        ((threads.flatMap pending).map Prod.snd ++ threads.flatMap spent) := by
  induction threads with
  | nil => exact .rfl
  | cons first rest ih =>
      refine List.perm_iff_count.mpr (fun item => ?_)
      have own := (each first).count_eq item
      have others := ih.count_eq item
      simp only [List.flatMap_cons, List.map_append, List.count_append] at own others ⊢
      omega

/-- The items are those still to be passed on, and those that their threads only delete. -/
theorem State.items_perm (state : State)
    : state.items.Perm (state.pending.map Prod.snd ++ state.spent) := by
  have producers := flatMap_held_perm state.producers ProducerPc.held_perm
  have consumers := @flatMap_held_perm _ _ _ Consumer.pending state.created
    (fun consumer => consumer.pc.held_perm)
  have reader : state.reader.held = state.reader.pending.map Prod.snd := by
    cases state.reader <;> rfl
  have writer : state.writer.held = state.writer.pending.map Prod.snd ++ state.writer.spent := by
    cases state.writer <;> rfl
  refine List.perm_iff_count.mpr (fun item => ?_)
  have produced := producers.count_eq item
  have consumed := consumers.count_eq item
  simp only [List.count_append] at produced consumed
  simp only [items, pending, unwritten, spent, reader, writer, List.map_append, List.map_map,
    List.count_append, Function.comp_def, List.map_id']
  omega

-----------------------------------------------------------------------------------------
-- Main results
-----------------------------------------------------------------------------------------

/-- What a consumer makes of what a producer makes of a line. -/
theorem consumed_fields {input fields : Fields} (right : Stage.consumed.fields input = some fields)
    : (input.key, (Transformer.producerTransform input.opcode input.val).bind
          (Transformer.consumerTransform input.opcode), input.opcode)
        = (fields.key, some fields.val, fields.opcode) := by
  obtain ⟨produced, first, second⟩ := Option.bind_eq_some_iff.mp right
  obtain ⟨val, made, rfl⟩ := Option.map_eq_some_iff.mp first
  obtain ⟨last, consumed, rfl⟩ := Option.map_eq_some_iff.mp second
  rw [made, Option.bind_some, consumed]

/-- However the threads interleave and whichever consumers are started and cancelled, every
line that was read has one item still to be passed on; besides these there are only items that
their threads delete. Once all lines are written, the output has the transformed lines.
-/
theorem conserved_of_reachable {input : Nat → Fields} {expectedLines : Nat} {isOpen : Bool}
    {state : State} (reachable : Reachable input expectedLines isOpen state)
    : state.read ≤ expectedLines
      ∧ state.items.Perm (state.pending.map Prod.snd ++ state.spent)
      ∧ (state.pending.map (fun entry => entry.2.line)).Perm (List.range state.read)
      ∧ (∀ entry ∈ state.pending,
          entry.1.fields (input entry.2.line) = some entry.2.toFields)
      ∧ (state.output.length = expectedLines
          → (state.output.map (fun item => (item.key, some item.val, item.opcode))).Perm
              ((List.range expectedLines).map (fun line =>
                ((input line).key,
                  (Transformer.producerTransform (input line).opcode (input line).val).bind
                    (Transformer.consumerTransform (input line).opcode),
                  (input line).opcode)))) := by
  have conserved := reachable.conserved
  refine ⟨reachable.read_le, state.items_perm, conserved.lines, conserved.fields, ?_⟩
  intro written
  have bounded := reachable.read_le
  have total := conserved.lines.length_eq
  rw [State.pending, List.length_map, List.length_append, List.length_map, List.length_range]
    at total
  have nothing : state.unwritten = [] := List.eq_nil_of_length_eq_zero (by omega)
  have all : state.read = expectedLines := by omega
  have lines := conserved.lines
  rw [State.pending, nothing, all, List.nil_append, List.map_map] at lines
  refine List.Perm.trans (List.Perm.of_eq ?_) (lines.map _)
  rw [List.map_map]
  refine List.map_congr_left (fun item member => ?_)
  have right := conserved.fields (.consumed, item)
    (List.mem_append_right _ (List.mem_map_of_mem member))
  exact (consumed_fields right).symm

/-- A line that a producer has handed on. -/
def handedOn : Option State :=
  Runs.follow (next (fun _ => ⟨1, 5, 'A'⟩))
    [.reader, .reader, .reader, .producer 0, .producer 0, .producer 0, .producer 0]
    (initial 1 true)

theorem reachable_of_handedOn {state : State} (followed : handedOn = some state)
    : Reachable (fun _ => ⟨1, 5, 'A'⟩) 1 true state :=
  Runs.Reachable.of_follow (fun _ _ _ step => step) (.refl _) followed

/-- One item is still to be passed on for the line that was handed on. -/
theorem conserved_of_handed_on
    : ∃ state : State,
        handedOn = some state
        ∧ state.read = 1
        ∧ (state.pending.map (fun entry => entry.2.line)).Perm [0] := by
  have known : handedOn.map State.read = some 1 := rfl
  obtain ⟨state, followed, read⟩ := Option.map_eq_some_iff.mp known
  have lines := (conserved_of_reachable (reachable_of_handedOn followed)).2.2.1
  rw [read] at lines
  exact ⟨state, followed, read, lines⟩

/-- The line that a producer has handed on has two items until the first is deleted. -/
theorem items_of_handed_on
    : ¬∀ (input : Nat → Fields) (expectedLines : Nat) (isOpen : Bool) (state : State),
        Reachable input expectedLines isOpen state
        → (state.items.map Item.line).Perm (List.range state.read) := by
  intro always
  have known
      : handedOn.map (fun state => (state.items.map Item.line, state.read)) = some ([0, 0], 1) :=
    rfl
  obtain ⟨state, followed, found⟩ := Option.map_eq_some_iff.mp known
  obtain ⟨items, read⟩ := Prod.mk.inj found
  have perm := always _ 1 true state (reachable_of_handedOn followed)
  rw [items, read] at perm
  exact absurd perm.length_eq (by decide)

end Nachos.Pthreads.Pipeline
