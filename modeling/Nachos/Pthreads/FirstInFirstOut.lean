import Nachos.Pthreads.TSQueue

/-! The items that leave the queue are those that entered it, in the same order. -/

namespace Nachos.Pthreads

namespace TSQueue

variable {α : Type}

/-- The buffer holds the items, from the slot behind `head` on. -/
structure Stores (queue : TSQueue α) (items : List α) : Prop where
  size : queue.size = items.length
  bounded : queue.size ≤ queue.bufferSize
  head : queue.head < queue.bufferSize
  tail : queue.tail = (queue.head + 1 + queue.size) % queue.bufferSize
  slots : RingBuffer.Holds queue.buffer queue.bufferSize (queue.head + 1) items

variable {queue : TSQueue α} {items : List α}

/-- A new queue of positive size stores nothing: its tail comes right behind its head. -/
theorem stores_new {bufferSize : Nat} (positive : 0 < bufferSize) (buffer : Nat → α)
    : (new bufferSize buffer).Stores [] where
  size := rfl
  bounded := Nat.zero_le _
  head := Nat.sub_lt positive Nat.one_pos
  tail := by
    change 0 = (bufferSize - 1 + 1) % bufferSize
    rw [Nat.sub_add_cancel positive, Nat.mod_self]
  slots := .nil _ _ _

/-- An item enters at the end. -/
theorem Stores.put (stores : queue.Stores items) (room : queue.size ≠ queue.bufferSize)
    (item : α)
    : (queue.put item).Stores (items ++ [item]) where
  size := by
    rw [List.length_append, List.length_singleton, ← stores.size]
    rfl
  bounded := Nat.lt_of_le_of_ne stores.bounded room
  head := stores.head
  tail := by
    change (queue.tail + 1) % queue.bufferSize
      = (queue.head + 1 + (queue.size + 1)) % queue.bufferSize
    rw [stores.tail, Nat.mod_add_mod, Nat.add_assoc]
  slots := by
    have free : items.length < queue.bufferSize :=
      stores.size ▸ Nat.lt_of_le_of_ne stores.bounded room
    have pushed := stores.slots.push free item
    rw [← stores.size, ← stores.tail] at pushed
    exact pushed

/-- The first item leaves. -/
theorem Stores.take (stores : queue.Stores items) (some : queue.size ≠ 0)
    : ∃ rest, items = queue.take.1 :: rest ∧ queue.take.2.Stores rest := by
  have full : items ≠ [] := fun empty => some (stores.size.trans (empty ▸ rfl))
  obtain ⟨item, rest, rfl⟩ := List.exists_cons_of_ne_nil full
  obtain ⟨first, others⟩ := stores.slots.pop
  have positive : 0 < queue.bufferSize := Nat.zero_lt_of_lt stores.head
  refine ⟨rest, congrArg (· :: rest) first.symm, ?_⟩
  have size := stores.size
  rw [List.length_cons] at size
  refine ⟨?_, (Nat.sub_le _ _).trans stores.bounded, Nat.mod_lt _ positive, ?_, ?_⟩
  · change queue.size - 1 = rest.length
    rw [size, Nat.add_sub_cancel]
  · change queue.tail = ((queue.head + 1) % queue.bufferSize + 1 + (queue.size - 1))
      % queue.bufferSize
    rw [stores.tail, size, Nat.add_sub_cancel, Nat.add_assoc (_ % _), Nat.mod_add_mod,
      Nat.add_comm 1]
  · exact others.of_mod (Nat.mod_add_mod ..)

end TSQueue

namespace State

variable {ι α : Type} [DecidableEq ι] {state after : State ι α} {t : ι}

/-- What is in the queue is what entered and did not leave yet. -/
def Fifo (state : State ι α) : Prop :=
  ∃ items, state.enqueued = state.dequeued ++ items ∧ state.queue.Stores items

/-- Every step of a thread keeps the order; only two kinds of steps change the queue. -/
theorem Step.fifo (step : Step state t after) (fifo : state.Fifo) : after.Fifo := by
  obtain ⟨items, entered, stores⟩ := fifo
  cases step with
  | call | lock | wait | wakeSpuriously | lockAgain | unlock => exact ⟨items, entered, stores⟩
  | @enqueue item _ _ _ free _ =>
      refine ⟨items ++ [item], ?_, stores.put free item⟩
      change state.enqueued ++ [item] = state.dequeued ++ (items ++ [item])
      rw [entered, List.append_assoc]
  | dequeue _ free _ =>
      obtain ⟨rest, taken, left⟩ := stores.take free
      refine ⟨rest, ?_, left⟩
      change state.enqueued = (state.dequeued ++ [state.queue.take.1]) ++ rest
      rw [entered, taken, List.append_assoc]
      rfl

theorem Step.bufferSize (step : Step state t after)
    : after.queue.bufferSize = state.queue.bufferSize := by
  cases step <;> rfl

-----------------------------------------------------------------------------------------
-- The mutex
-----------------------------------------------------------------------------------------

/-- The mutex belongs to the one thread that works on the queue, if there is one. -/
def Exclusive (state : State ι α) : Prop :=
  ∀ t, (state.pc t).holdsMutex = true ↔ state.mutex = some t

variable {pc : Pc α}

/-- Threads that are woken do not hold the mutex yet, by cases on their place. -/
theorem Exclusive.wake (exclusive : state.Exclusive) (woken : Finset ι)
    : (state.wake woken).Exclusive := by
  intro u
  have same : ((state.wake woken).pc u).holdsMutex = (state.pc u).holdsMutex := by
    simp only [State.wake]
    split
    · cases state.pc u <;> rfl
    · rfl
  rw [same]
  exact exclusive u

/-- A thread that goes on without the mutex, or with it, keeps exclusion, by cases on the thread
asked about.
-/
theorem Exclusive.stay (exclusive : state.Exclusive)
    (same : pc.holdsMutex = (state.pc t).holdsMutex)
    : (state.goTo t pc).Exclusive := by
  intro u
  by_cases own : u = t
  · subst own
    rw [pc_goTo_self, same]
    exact exclusive u
  · rw [pc_goTo_of_ne state own]
    exact exclusive u

/-- To lock a free mutex keeps exclusion, by cases on the thread asked about. -/
theorem Exclusive.lock (exclusive : state.Exclusive) (free : state.mutex = none)
    (holds : pc.holdsMutex = true)
    : Exclusive { state.goTo t pc with mutex := some t } := by
  intro u
  change ((state.goTo t pc).pc u).holdsMutex = true ↔ some t = some u
  by_cases own : u = t
  · subst own
    rw [pc_goTo_self, holds]
    exact iff_of_true rfl rfl
  · rw [pc_goTo_of_ne state own, exclusive u, free]
    exact iff_of_false (Option.some_ne_none u).symm (fun same => own (Option.some.inj same).symm)

/-- To unlock keeps exclusion: the holder was the only one. -/
theorem Exclusive.unlock (exclusive : state.Exclusive)
    (held : (state.pc t).holdsMutex = true) (leaves : pc.holdsMutex = false)
    : Exclusive { state.goTo t pc with mutex := none } := by
  intro u
  change ((state.goTo t pc).pc u).holdsMutex = true ↔ none = some u
  refine iff_of_false (fun holds => ?_) (Option.some_ne_none u).symm
  by_cases own : u = t
  · subst own
    rw [pc_goTo_self, leaves] at holds
    cases holds
  · rw [pc_goTo_of_ne state own] at holds
    have mine := (exclusive t).mp held
    exact own (Option.some.inj (((exclusive u).mp holds).symm.trans mine))

/-- At every step at most one thread works on the queue. -/
theorem Step.exclusive (step : Step state t after) (exclusive : state.Exclusive)
    : after.Exclusive := by
  cases step with
  | call outside call => exact exclusive.stay (by rw [outside]; rfl)
  | lock free _ => exact exclusive.lock free rfl
  | wait testing _ => exact exclusive.unlock (by rw [testing]; rfl) rfl
  | wakeSpuriously waiting => exact exclusive.stay (by rw [waiting]; rfl)
  | lockAgain free _ => exact exclusive.lock free rfl
  | @enqueue item signalled woken testing _ wakes =>
      refine @Exclusive.stay _ _ _ (state.wake woken) t _ (exclusive.wake woken) ?_
      simp only [State.wake, testing]
      split <;> rfl
  | @dequeue signalled woken testing _ wakes =>
      refine @Exclusive.stay _ _ _ (state.wake woken) t _ (exclusive.wake woken) ?_
      simp only [State.wake, testing]
      split <;> rfl
  | unlock leaving => exact exclusive.unlock (by rw [leaving]; rfl) rfl

theorem mutualExclusion_of_reachable {bufferSize : Nat} {buffer : Nat → α}
    (reachable : Runs.Reachable Step (initial bufferSize buffer : State ι α) state)
    : state.Exclusive :=
  reachable.invariant (fun _ => iff_of_false Bool.false_ne_true (Option.some_ne_none _).symm)
    (fun _ _ _ exclusive step => step.exclusive exclusive)

-----------------------------------------------------------------------------------------
-- Runs
-----------------------------------------------------------------------------------------

/-- However the steps of the threads interleave, the buffer holds the items that were put in
and not yet taken out, in order, between `head` and `tail`.
-/
theorem fifo_of_reachable {bufferSize : Nat} (positive : 0 < bufferSize) (buffer : Nat → α)
    (reachable : Runs.Reachable Step (initial bufferSize buffer : State ι α) state)
    : state.queue.bufferSize = bufferSize
      ∧ state.dequeued <+: state.enqueued
      ∧ ∃ items,
          state.enqueued = state.dequeued ++ items
          ∧ items.length = state.queue.size
          ∧ state.queue.size ≤ bufferSize
          ∧ state.queue.tail = (state.queue.head + 1 + state.queue.size) % bufferSize
          ∧ ∀ index (inside : index < items.length),
              state.queue.buffer ((state.queue.head + 1 + index) % bufferSize) = items[index] := by
  obtain ⟨same, items, entered, stores⟩ :=
    @Runs.Reachable.invariant _ _ _ _ _
      (fun state : State ι α => state.queue.bufferSize = bufferSize ∧ state.Fifo) reachable
      ⟨rfl, [], rfl, TSQueue.stores_new positive buffer⟩
      (fun _ _ _ before step => ⟨step.bufferSize.trans before.1, step.fifo before.2⟩)
  have slots := stores.slots
  rw [same] at slots
  exact ⟨same, ⟨items, entered.symm⟩, items, entered, stores.size.symm, same ▸ stores.bounded,
    same ▸ stores.tail, slots⟩

/-- One thread puts an item into a queue of one slot, and a second one takes it. -/
theorem fifo_of_two_threads
    : ∃ state : State Bool Nat,
        state.dequeued = [7]
        ∧ state.queue.bufferSize = 1
        ∧ state.dequeued <+: state.enqueued := by
  have quiet (state : State Bool Nat) (cond : Cond)
      (none : ∀ t, (state.pc t).waitsOn cond = false)
      : state.Wakes cond ∅ :=
    ⟨fun _ member => absurd member (Finset.notMem_empty _),
      fun t waits => absurd (waits.symm.trans (none t)) (by decide)⟩
  have reachable : Runs.Reachable Step (initial 1 (fun _ => 0) : State Bool Nat) _ :=
    (((((((Runs.Reachable.refl (initial 1 (fun _ => 0))).snoc
      (show Step _ true _ from .call rfl (.enqueue 7))).snoc
      (show Step _ true _ from .lock rfl rfl)).snoc
      (show Step _ true _ from .enqueue rfl (by decide) (quiet _ _ (by decide)))).snoc
      (show Step _ true _ from .unlock rfl)).snoc
      (show Step _ false _ from .call rfl .dequeue)).snoc
      (show Step _ false _ from .lock rfl rfl)).snoc
      (show Step _ false _ from .dequeue rfl (by decide) (quiet _ _ (by decide)))
  have holds := fifo_of_reachable Nat.one_pos (fun _ => 0) reachable
  exact ⟨_, rfl, holds.1, holds.2.1⟩

end State

end Nachos.Pthreads
