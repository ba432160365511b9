import Nachos.Pthreads.FirstInFirstOut

/-! What the queue is for: a list of bounded length whose operations happen at once or not at
all. The steps of the threads on the shared queue refine it.
-/

namespace Nachos.Pthreads

/-- At most `capacity` items, in the order in which they entered. -/
structure BoundedQueue (capacity : Nat) (α : Type) where
  items : List α
  bounded : items.length ≤ capacity

namespace BoundedQueue

variable {capacity : Nat} {α : Type}

def empty : BoundedQueue capacity α := ⟨[], Nat.zero_le _⟩

/-- Adds an item at the end; a full queue makes the caller wait. -/
def enqueue (queue : BoundedQueue capacity α) (item : α) : Option (BoundedQueue capacity α) :=
  if room : queue.items.length < capacity then
    some ⟨queue.items ++ [item], List.length_append.trans_le room⟩
  else none

/-- Takes the first item; an empty queue makes the caller wait. -/
def dequeue : BoundedQueue capacity α → Option (α × BoundedQueue capacity α)
  | ⟨[], _⟩ => none
  | ⟨item :: rest, bounded⟩ => some (item, ⟨rest, Nat.le_of_succ_le bounded⟩)

def getSize (queue : BoundedQueue capacity α) : Nat := queue.items.length

variable {queue after : BoundedQueue capacity α} {item : α}

theorem ext_items (same : queue.items = after.items) : queue = after := by
  cases queue
  cases after
  cases same
  rfl

/-- An item is enqueued when there is room, by cases on that. -/
theorem enqueue_eq_some
    : queue.enqueue item = some after
      ↔ queue.items.length < capacity ∧ after.items = queue.items ++ [item] := by
  unfold enqueue
  split
  · rename_i room
    refine ⟨fun same => ⟨room, Option.some.inj same ▸ rfl⟩, fun holds => ?_⟩
    exact congrArg some (ext_items holds.2.symm)
  · rename_i full
    exact iff_of_false (fun same => Option.some_ne_none _ same.symm) (fun holds => full holds.1)

theorem enqueue_eq_none : queue.enqueue item = none ↔ capacity ≤ queue.items.length := by
  unfold enqueue
  split
  · exact iff_of_false (Option.some_ne_none _) (Nat.not_le_of_lt ‹_›)
  · exact iff_of_true rfl (Nat.le_of_not_lt ‹_›)

/-- The first item is dequeued, by cases on the items. -/
theorem dequeue_eq_some : queue.dequeue = some (item, after) ↔ queue.items = item :: after.items := by
  obtain ⟨items, bounded⟩ := queue
  cases items with
  | nil => exact iff_of_false (fun same => Option.some_ne_none _ same.symm) (List.cons_ne_nil _ _).symm
  | cons first rest =>
      refine ⟨fun same => ?_, fun same => ?_⟩
      · cases same
        rfl
      · obtain ⟨rfl, rest⟩ := List.cons.inj same
        exact congrArg (fun next => some (first, next)) (ext_items rest)

theorem dequeue_eq_none : queue.dequeue = none ↔ queue.items = [] := by
  obtain ⟨items, bounded⟩ := queue
  cases items with
  | nil => exact iff_of_true rfl rfl
  | cons first rest => exact iff_of_false (Option.some_ne_none _) (List.cons_ne_nil _ _)

/-- An item that enters an empty queue leaves it empty again. -/
theorem enqueue_empty (positive : 0 < capacity) (item : α)
    : ∃ after : BoundedQueue capacity α,
        empty.enqueue item = some after ∧ after.dequeue = some (item, empty) :=
  ⟨⟨[item], positive⟩, enqueue_eq_some.mpr ⟨positive, rfl⟩, rfl⟩

/-- What one step of a thread does to the queue, with the items that it puts in and takes out. -/
inductive Change (queue : BoundedQueue capacity α)
    : BoundedQueue capacity α → List α → List α → Prop where
  | stay : Change queue queue [] []
  | enqueue {item : α} {after : BoundedQueue capacity α}
      (room : queue.enqueue item = some after)
      : Change queue after [item] []
  | dequeue {item : α} {after : BoundedQueue capacity α}
      (some : queue.dequeue = some (item, after))
      : Change queue after [] [item]

end BoundedQueue

-----------------------------------------------------------------------------------------
-- The shared queue
-----------------------------------------------------------------------------------------

variable {capacity : Nat} {α : Type}

/-- The slots of the buffer hold the items of the list. -/
structure TSQueue.Represents (queue : TSQueue α) (items : BoundedQueue capacity α) : Prop where
  bufferSize : queue.bufferSize = capacity
  stores : queue.Stores items.items

theorem TSQueue.represents_new (positive : 0 < capacity) (buffer : Nat → α)
    : (TSQueue.new capacity buffer).Represents (.empty : BoundedQueue capacity α) :=
  ⟨rfl, stores_new positive buffer⟩

/-- The size that a thread reads is that of the list. -/
theorem TSQueue.Represents.getSize {queue : TSQueue α} {items : BoundedQueue capacity α}
    (represents : queue.Represents items)
    : queue.size = items.getSize :=
  represents.stores.size

/-- A call waits where the operation on the list has no result. -/
theorem Call.blocked_iff {queue : TSQueue α} {items : BoundedQueue capacity α}
    (represents : queue.Represents items) (call : Call α)
    : call.Blocked queue
      ↔ match call with
        | .enqueue item => items.enqueue item = none
        | .dequeue => items.dequeue = none := by
  obtain ⟨size, stores⟩ := represents
  cases call with
  | enqueue item =>
      refine Iff.trans ?_ BoundedQueue.enqueue_eq_none.symm
      change queue.size = queue.bufferSize ↔ _
      rw [size, stores.size]
      exact ⟨Nat.le_of_eq ∘ Eq.symm, Nat.le_antisymm items.bounded⟩
  | dequeue =>
      refine Iff.trans ?_ BoundedQueue.dequeue_eq_none.symm
      change queue.size = 0 ↔ _
      rw [stores.size, List.length_eq_zero_iff]

variable {ι : Type} [DecidableEq ι] {state after : State ι α} {t : ι}

/-- Among the steps on the mutex and on the condition variables, the one between the wait and
the signal is the operation, and no other changes the list.
-/
theorem State.Step.refines (step : Step state t after) {items : BoundedQueue capacity α}
    (represents : state.queue.Represents items)
    : ∃ next entered left,
        items.Change next entered left
        ∧ after.queue.Represents next
        ∧ after.enqueued = state.enqueued ++ entered
        ∧ after.dequeued = state.dequeued ++ left := by
  have size := represents.bufferSize
  have stores := represents.stores
  cases step with
  | call | lock | wait | wakeSpuriously | lockAgain | unlock =>
      exact ⟨items, [], [], .stay, represents, (List.append_nil _).symm, (List.append_nil _).symm⟩
  | @enqueue item _ _ _ free _ =>
      have room : items.items.length < capacity := by
        rw [← stores.size, ← size]
        exact Nat.lt_of_le_of_ne stores.bounded free
      refine ⟨⟨items.items ++ [item], List.length_append.trans_le room⟩, [item], [], .enqueue ?_,
        ⟨size, stores.put free item⟩, rfl, (List.append_nil _).symm⟩
      exact BoundedQueue.enqueue_eq_some.mpr ⟨room, rfl⟩
  | dequeue _ free _ =>
      obtain ⟨rest, taken, left⟩ := stores.take free
      have bounded : rest.length ≤ capacity :=
        (Nat.le_succ _).trans ((congrArg List.length taken).symm.trans_le items.bounded)
      exact ⟨⟨rest, bounded⟩, [], [_], .dequeue (BoundedQueue.dequeue_eq_some.mpr taken),
        ⟨size, left⟩, (List.append_nil _).symm, rfl⟩

/-- The list with all that was put in and taken out so far. -/
structure BoundedQueue.History (capacity : Nat) (α : Type) where
  queue : BoundedQueue capacity α
  enqueued : List α
  dequeued : List α

/-- A step of the list, by any thread. -/
def BoundedQueue.History.Step (before : History capacity α) (_ : ι) (after : History capacity α)
    : Prop :=
  ∃ entered left,
    before.queue.Change after.queue entered left
    ∧ after.enqueued = before.enqueued ++ entered
    ∧ after.dequeued = before.dequeued ++ left

/-- The shared queue shows the list and what passed through it. -/
structure State.Shows (state : State ι α) (history : BoundedQueue.History capacity α)
    : Prop where
  queue : state.queue.Represents history.queue
  enqueued : state.enqueued = history.enqueued
  dequeued : state.dequeued = history.dequeued

/-- However the threads interleave, the buffer holds what some sequence of whole operations
leaves, with the same items put in and taken out.
-/
theorem State.shows_of_reachable (positive : 0 < capacity) (buffer : Nat → α)
    (reachable : Runs.Reachable Step (initial capacity buffer : State ι α) state)
    : ∃ history : BoundedQueue.History capacity α,
        state.Shows history
        ∧ Runs.Reachable (@BoundedQueue.History.Step capacity α ι) ⟨.empty, [], []⟩ history := by
  obtain ⟨trace, run⟩ := reachable
  obtain ⟨history, operations, shown⟩ :=
    @Runs.Run.simulate _ _ _ _ _ _ _ (@BoundedQueue.History.Step capacity α ι) State.Shows run
      ⟨.empty, [], []⟩ ⟨TSQueue.represents_new positive buffer, rfl, rfl⟩
      (fun state t after history shown step => by
        obtain ⟨next, entered, left, change, represents, more, fewer⟩ := step.refines shown.queue
        refine ⟨⟨next, after.enqueued, after.dequeued⟩, ⟨entered, left, change, ?_, ?_⟩,
          represents, rfl, rfl⟩
        · rw [more, shown.enqueued]
        · rw [fewer, shown.dequeued])
  exact ⟨history, shown, trace, operations⟩

end Nachos.Pthreads
