import Nachos.Lib.Counting
import Nachos.Pthreads.FirstInFirstOut

/-! No wake-up is lost. While a thread waits without a signal, there are at least as many
signalled threads that did not test their loops again as there are items or free slots that
they could use.
-/

namespace Nachos.Pthreads

open Counting

/-- What threads that wait on a condition variable could use. -/
def TSQueue.available {α : Type} (queue : TSQueue α) : Cond → Nat
  | .enqueue => queue.bufferSize - queue.size
  | .dequeue => queue.size

namespace State

variable {ι α : Type} [DecidableEq ι] [Fintype ι] {state after : State ι α} {t : ι}

/-- As long as some thread waits unsignalled, all that is available is announced. -/
def Announced (state : State ι α) (cond : Cond) : Prop :=
  (∃ t, (state.pc t).waitsOn cond = true)
  → state.queue.available cond ≤ count (Pc.signalledOn cond) state.pc

/-- No thread that could go on waits unsignalled, unless a signalled one is on its way. -/
def NoLostWakeUp (state : State ι α) (cond : Cond) : Prop :=
  0 < state.queue.available cond
  → (∃ t, (state.pc t).waitsOn cond = true)
  → ∃ t, (state.pc t).signalledOn cond = true

omit [DecidableEq ι] in
theorem Announced.noLostWakeUp {cond : Cond} (announced : state.Announced cond)
    : state.NoLostWakeUp cond :=
  fun available waits => count_pos_iff.mp (available.trans_le (announced waits))

/-- A step that neither signals nor changes the queue, and after which no thread waits that
did not wait before, keeps what was announced.
-/
theorem Announced.frame {cond : Cond} {pc : Pc α} (announced : state.Announced cond)
    (waits : pc.waitsOn cond = true → (state.pc t).waitsOn cond = true)
    (signalled : pc.signalledOn cond = (state.pc t).signalledOn cond) (mutex : Option ι)
    : Announced { state.goTo t pc with mutex } cond := by
  rintro ⟨u, waiting⟩
  have before : (state.pc u).waitsOn cond = true := by
    by_cases same : u = t
    · subst same
      exact waits (by simpa [goTo] using waiting)
    · simpa [goTo, same] using waiting
  refine (announced ⟨u, before⟩).trans_eq (count_congr (fun v => ?_)).symm
  by_cases same : v = t
  · subst same
    simp [goTo, signalled]
  · simp [goTo, same]

/-- A thread that starts to wait finds nothing available. -/
theorem available_of_blocked {queue : TSQueue α} {call : Call α} (blocked : call.Blocked queue)
    : queue.available call.waitsOn = 0 := by
  cases call with
  | enqueue item =>
      change queue.bufferSize - queue.size = 0
      rw [show queue.size = queue.bufferSize from blocked, Nat.sub_self]
  | dequeue => exact blocked

/-- Once a call got through, its condition variable announces at most one thread less, and at
most one thread less can use what is left.
-/
theorem Announced.consume {cond other : Cond} {queue : TSQueue α} {woken : Finset ι}
    (announced : state.Announced cond) (wakes : state.Wakes other woken) (apart : other ≠ cond)
    (used : queue.available cond + 1 = state.queue.available cond)
    (enqueued dequeued : List α)
    : Announced { (state.wake woken).goTo t .leaving with queue, enqueued, dequeued } cond := by
  have keeps (u : ι)
      : ((state.wake woken).pc u).waitsOn cond = (state.pc u).waitsOn cond
        ∧ ((state.wake woken).pc u).signalledOn cond = (state.pc u).signalledOn cond := by
    simp only [wake]
    split
    · have waits := wakes.waiting u ‹_›
      cases place : state.pc u <;>
        simp_all [Pc.waitsOn, Pc.wake, Pc.signalledOn]
    · exact ⟨rfl, rfl⟩
  rintro ⟨u, waiting⟩
  have others : u ≠ t := by
    rintro rfl
    simp [goTo, Pc.waitsOn] at waiting
  have before : (state.pc u).waitsOn cond = true := by
    rw [← (keeps u).1]
    simpa [goTo, others] using waiting
  have enough := announced ⟨u, before⟩
  have fewer : count (Pc.signalledOn cond) state.pc
      ≤ count (Pc.signalledOn cond) ((state.wake woken).goTo t .leaving).pc + 1 := by
    refine @count_le_succ _ _ _ _ _ _ _ t (fun v different => ?_)
    simp [goTo, different, (keeps v).2]
  change queue.available cond ≤ count (Pc.signalledOn cond) ((state.wake woken).goTo t .leaving).pc
  omega

/-- A signal makes up for what the call made available. -/
theorem Announced.produce {cond : Cond} {queue : TSQueue α} {woken : Finset ι}
    (announced : state.Announced cond) (wakes : state.Wakes cond woken)
    (own : (state.pc t).waitsOn cond = false ∧ (state.pc t).signalledOn cond = false)
    (made : queue.available cond = state.queue.available cond + 1)
    (enqueued dequeued : List α)
    : Announced { (state.wake woken).goTo t .leaving with queue, enqueued, dequeued } cond := by
  have place (u : ι) (different : u ≠ t)
      : ((state.wake woken).goTo t .leaving).pc u
        = if u ∈ woken then (state.pc u).wake else state.pc u := by
    simp [goTo, wake, different]
  rintro ⟨u, waiting⟩
  have others : u ≠ t := by
    rintro rfl
    simp [goTo, Pc.waitsOn] at waiting
  have before : (state.pc u).waitsOn cond = true := by
    have here : (((state.wake woken).goTo t .leaving).pc u).waitsOn cond = true := waiting
    rw [place u others] at here
    split at here
    · exact wakes.waiting u ‹_›
    · exact here
  obtain ⟨chosen, member⟩ := wakes.some u before
  have waits := wakes.waiting chosen member
  have notOwn : chosen ≠ t := by
    rintro rfl
    exact Bool.noConfusion (own.1.symm.trans waits)
  have more : count (Pc.signalledOn cond) state.pc
      < count (Pc.signalledOn cond) ((state.wake woken).goTo t .leaving).pc := by
    refine @count_lt_count _ _ _ _ _ _ chosen ?_ ?_ (fun v signalled => ?_)
    · cases stands : state.pc chosen <;> simp_all [Pc.waitsOn, Pc.signalledOn]
    · rw [place chosen notOwn, if_pos member]
      cases stands : state.pc chosen <;> simp_all [Pc.waitsOn, Pc.signalledOn, Pc.wake]
    · have different : v ≠ t := by
        rintro rfl
        exact Bool.noConfusion (own.2.symm.trans signalled)
      rw [place v different]
      split
      · have waitsToo := wakes.waiting v ‹_›
        cases stands : state.pc v <;> simp_all [Pc.waitsOn, Pc.signalledOn]
      · exact signalled
  have enough := announced ⟨u, before⟩
  change queue.available cond ≤ count (Pc.signalledOn cond) ((state.wake woken).goTo t .leaving).pc
  omega

/-- Every step keeps what was announced. A call that gets through uses one item or slot of its
own condition variable, and signals the other for the one that it makes.
-/
theorem Step.announced (step : Step state t after)
    (bounded : state.queue.size ≤ state.queue.bufferSize)
    (announced : ∀ cond, state.Announced cond) (cond : Cond)
    : after.Announced cond := by
  cases step with
  | call outside call =>
      exact (announced cond).frame (by simp [Pc.waitsOn]) (by simp [Pc.signalledOn, outside]) _
  | lock _ entering =>
      exact (announced cond).frame (by simp [Pc.waitsOn]) (by simp [Pc.signalledOn, entering]) _
  | @wait call signalled testing blocked =>
      by_cases own : call.waitsOn = cond
      · subst own
        intro _
        exact (available_of_blocked blocked).trans_le (Nat.zero_le _)
      · exact (announced cond).frame (by simp [Pc.waitsOn, own])
          (by simp [Pc.signalledOn, testing, own]) _
  | wakeSpuriously waiting =>
      exact (announced cond).frame (by simp [Pc.waitsOn]) (by simp [Pc.signalledOn, waiting]) _
  | lockAgain _ returning =>
      exact (announced cond).frame (by simp [Pc.waitsOn]) (by simp [Pc.signalledOn, returning]) _
  | @enqueue item signalled woken testing free wakes =>
      have room : state.queue.size < state.queue.bufferSize := Nat.lt_of_le_of_ne bounded free
      cases cond with
      | enqueue =>
          refine (announced .enqueue).consume wakes (by decide) ?_ _ _
          change state.queue.bufferSize - (state.queue.size + 1) + 1
            = state.queue.bufferSize - state.queue.size
          omega
      | dequeue =>
          refine (announced .dequeue).produce wakes ?_ rfl _ _
          simp [testing, Pc.waitsOn, Pc.signalledOn, Call.waitsOn]
  | @dequeue signalled woken testing free wakes =>
      have some : 0 < state.queue.size := Nat.pos_of_ne_zero free
      cases cond with
      | enqueue =>
          refine (announced .enqueue).produce wakes ?_ ?_ _ _
          · simp [testing, Pc.waitsOn, Pc.signalledOn, Call.waitsOn]
          · change state.queue.bufferSize - (state.queue.size - 1)
              = state.queue.bufferSize - state.queue.size + 1
            omega
      | dequeue =>
          refine (announced .dequeue).consume wakes (by decide) ?_ _ _
          exact Nat.sub_add_cancel some
  | unlock leaving =>
      exact (announced cond).frame (by simp [Pc.waitsOn]) (by simp [Pc.signalledOn, leaving]) _

/-- No interleaving leaves a thread that waits unsignalled for an item or a slot that is there,
with no signalled thread on its way.
-/
theorem noLostWakeUp_of_reachable {bufferSize : Nat} (positive : 0 < bufferSize)
    (buffer : Nat → α)
    (reachable : Runs.Reachable Step (initial bufferSize buffer : State ι α) state)
    : ¬(0 < state.queue.size
          ∧ (∃ t, (state.pc t).waitsOn .dequeue = true)
          ∧ ∀ t, (state.pc t).signalledOn .dequeue = false)
      ∧ ¬(state.queue.size < bufferSize
          ∧ (∃ t, (state.pc t).waitsOn .enqueue = true)
          ∧ ∀ t, (state.pc t).signalledOn .enqueue = false) := by
  have kept := @Runs.Reachable.invariant _ _ _ _ _
    (fun state : State ι α =>
      state.queue.bufferSize = bufferSize ∧ state.Fifo ∧ ∀ cond, state.Announced cond)
    reachable
    ⟨rfl, ⟨[], rfl, TSQueue.stores_new positive buffer⟩,
      fun cond waits => waits.elim (fun _ waiting => Bool.noConfusion waiting)⟩
    (fun _ _ _ before step =>
      ⟨step.bufferSize.trans before.1, step.fifo before.2.1,
        before.2.1.elim (fun _ stored => step.announced stored.2.bounded before.2.2)⟩)
  obtain ⟨same, _, announced⟩ := kept
  have lost (cond : Cond) (available : 0 < state.queue.available cond)
      (waits : ∃ t, (state.pc t).waitsOn cond = true)
      (none : ∀ t, (state.pc t).signalledOn cond = false)
      : False := by
    obtain ⟨t, signalled⟩ := (announced cond).noLostWakeUp available waits
    exact Bool.noConfusion ((none t).symm.trans signalled)
  refine ⟨fun found => lost .dequeue found.1 found.2.1 found.2.2, ?_⟩
  rintro ⟨room, waits, none⟩
  exact lost .enqueue (Nat.sub_pos_of_lt (same.symm ▸ room)) waits none

/-- A thread that waits for an item is signalled when another thread puts one in. -/
theorem noLostWakeUp_of_two_threads
    : ∃ state : State Bool Nat,
        state.queue.size = 1
        ∧ (state.pc false).signalledOn .dequeue = true
        ∧ ¬(0 < state.queue.size
            ∧ (∃ t, (state.pc t).waitsOn .dequeue = true)
            ∧ ∀ t, (state.pc t).signalledOn .dequeue = false) := by
  have reachable : Runs.Reachable Step (initial 1 (fun _ => 0) : State Bool Nat) _ :=
    ((((((Runs.Reachable.refl (initial 1 (fun _ => 0))).snoc
      (show Step _ false _ from .call rfl .dequeue)).snoc
      (show Step _ false _ from .lock rfl rfl)).snoc
      (show Step _ false _ from .wait rfl (by decide))).snoc
      (show Step _ true _ from .call rfl (.enqueue 7))).snoc
      (show Step _ true _ from .lock rfl rfl)).snoc
      (show Step _ true _ from
        @Step.enqueue _ _ _ _ _ _ _ {false} rfl (by decide)
          ⟨by decide, fun _ _ => Finset.singleton_nonempty _⟩)
  exact ⟨_, rfl, rfl, (noLostWakeUp_of_reachable Nat.one_pos (fun _ => 0) reachable).1⟩

end State

end Nachos.Pthreads
