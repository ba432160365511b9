import Mathlib.Data.Finset.Basic
import Nachos.Lib.RingBuffer
import Nachos.Lib.Runs

/-! The bounded queue that threads share. A step of a thread is one operation on the mutex or
on a condition variable, with the code of the queue that leads up to it.
-/

namespace Nachos.Pthreads

/-- The fields of `TSQueue` that the mutex protects. -/
structure TSQueue (α : Type) where
  bufferSize : Nat
  buffer : Nat → α
  size : Nat
  head : Nat
  tail : Nat

namespace TSQueue

variable {α : Type}

/-- The constructor, over a buffer that is not initialized. -/
def new (bufferSize : Nat) (buffer : Nat → α) : TSQueue α :=
  { bufferSize, buffer, size := 0, head := bufferSize - 1, tail := 0 }

/-- `enqueue` between the wait and the signal. -/
def put (item : α) (queue : TSQueue α) : TSQueue α :=
  {
    queue with
    buffer := Function.update queue.buffer queue.tail item
    tail := (queue.tail + 1) % queue.bufferSize
    size := queue.size + 1
  }

/-- `dequeue` between the wait and the signal. -/
def take (queue : TSQueue α) : α × TSQueue α :=
  let head := (queue.head + 1) % queue.bufferSize
  (queue.buffer head, { queue with head, size := queue.size - 1 })

end TSQueue

/-- The condition variables. -/
inductive Cond where
  | enqueue
  | dequeue
  deriving DecidableEq

/-- The calls that a thread may make. -/
inductive Call (α : Type) where
  | enqueue (item : α)
  | dequeue

namespace Call

variable {α : Type}

/-- The condition variable on which the call waits. -/
def waitsOn : Call α → Cond
  | .enqueue _ => .enqueue
  | .dequeue => .dequeue

/-- The condition variable that the call signals. -/
def signals : Call α → Cond
  | .enqueue _ => .dequeue
  | .dequeue => .enqueue

/-- The condition of the loop in which the call waits. -/
def Blocked (queue : TSQueue α) : Call α → Prop
  | .enqueue _ => queue.size = queue.bufferSize
  | .dequeue => queue.size = 0

instance (queue : TSQueue α) (call : Call α) : Decidable (call.Blocked queue) :=
  match call with
  | .enqueue _ | .dequeue => inferInstanceAs (Decidable (_ = _))

end Call

/-- Where a thread is. -/
inductive Pc (α : Type) where
  | outside
  /-- At `pthread_mutex_lock`. -/
  | entering (call : Call α)
  /-- Holding the mutex before the test of the loop. -/
  | testing (call : Call α) (signalled : Bool)
  /-- Inside `pthread_cond_wait`, not signalled. -/
  | waiting (call : Call α)
  /-- Inside `pthread_cond_wait`, woken by a signal or spuriously, without the mutex. -/
  | returning (call : Call α) (signalled : Bool)
  /-- Holding the mutex at `pthread_mutex_unlock`. -/
  | leaving

namespace Pc

variable {α : Type}

/-- The thread waits on the condition variable and was not signalled. -/
def waitsOn (cond : Cond) : Pc α → Bool
  | .waiting call => decide (call.waitsOn = cond)
  | _ => false

/-- The thread was signalled on the condition variable and did not test its loop again yet. -/
def signalledOn (cond : Cond) : Pc α → Bool
  | .testing call signalled | .returning call signalled =>
      signalled && decide (call.waitsOn = cond)
  | _ => false

def holdsMutex : Pc α → Bool
  | .testing _ _ | .leaving => true
  | _ => false

/-- What a signal does to a thread that it wakes. -/
def wake : Pc α → Pc α
  | .waiting call => .returning call true
  | pc => pc

end Pc

/-- The queue and the threads, with the items put in and taken out so far, in the order in
which the mutex was held.
-/
structure State (ι α : Type) where
  queue : TSQueue α
  mutex : Option ι
  pc : ι → Pc α
  enqueued : List α
  dequeued : List α

namespace State

variable {ι α : Type} [DecidableEq ι]

/-- The state after the constructor. -/
def initial (bufferSize : Nat) (buffer : Nat → α) : State ι α :=
  {
    queue := .new bufferSize buffer
    mutex := none
    pc := fun _ => .outside
    enqueued := []
    dequeued := []
  }

def goTo (state : State ι α) (t : ι) (pc : Pc α) : State ι α :=
  { state with pc := Function.update state.pc t pc }

/-- What `pthread_cond_signal` may do: it wakes threads that wait on the condition variable,
at least one if there is one.
-/
structure Wakes (state : State ι α) (cond : Cond) (woken : Finset ι) : Prop where
  waiting : ∀ t ∈ woken, (state.pc t).waitsOn cond = true
  some : ∀ t, (state.pc t).waitsOn cond = true → woken.Nonempty

def wake (state : State ι α) (woken : Finset ι) : State ι α :=
  { state with pc := fun t => if t ∈ woken then (state.pc t).wake else state.pc t }

@[simp]
theorem pc_goTo_self (state : State ι α) (t : ι) (pc : Pc α) : (state.goTo t pc).pc t = pc :=
  Function.update_self _ _ _

theorem pc_goTo_of_ne (state : State ι α) {t u : ι} (apart : u ≠ t) (pc : Pc α)
    : (state.goTo t pc).pc u = state.pc u :=
  Function.update_of_ne apart _ _

/-- A step of one thread. -/
inductive Step : State ι α → ι → State ι α → Prop where
  | call {state : State ι α} {t : ι} (outside : state.pc t = .outside) (call : Call α)
      : Step state t (state.goTo t (.entering call))
  | lock {state : State ι α} {t : ι} {call : Call α} (free : state.mutex = none)
      (entering : state.pc t = .entering call)
      : Step state t { state.goTo t (.testing call false) with mutex := some t }
  | wait {state : State ι α} {t : ι} {call : Call α} {signalled : Bool}
      (testing : state.pc t = .testing call signalled) (blocked : call.Blocked state.queue)
      : Step state t { state.goTo t (.waiting call) with mutex := none }
  | wakeSpuriously {state : State ι α} {t : ι} {call : Call α}
      (waiting : state.pc t = .waiting call)
      : Step state t (state.goTo t (.returning call false))
  | lockAgain {state : State ι α} {t : ι} {call : Call α} {signalled : Bool}
      (free : state.mutex = none) (returning : state.pc t = .returning call signalled)
      : Step state t { state.goTo t (.testing call signalled) with mutex := some t }
  | enqueue {state : State ι α} {t : ι} {item : α} {signalled : Bool} {woken : Finset ι}
      (testing : state.pc t = .testing (.enqueue item) signalled)
      (free : ¬(Call.enqueue item).Blocked state.queue) (wakes : state.Wakes .dequeue woken)
      : Step state t
          {
            (state.wake woken).goTo t .leaving with
            queue := state.queue.put item
            enqueued := state.enqueued ++ [item]
          }
  | dequeue {state : State ι α} {t : ι} {signalled : Bool} {woken : Finset ι}
      (testing : state.pc t = .testing .dequeue signalled)
      (free : ¬Call.dequeue.Blocked state.queue) (wakes : state.Wakes .enqueue woken)
      : Step state t
          {
            (state.wake woken).goTo t .leaving with
            queue := state.queue.take.2
            dequeued := state.dequeued ++ [state.queue.take.1]
          }
  | unlock {state : State ι α} {t : ι} (leaving : state.pc t = .leaving)
      : Step state t { state.goTo t .outside with mutex := none }

end State

end Nachos.Pthreads
