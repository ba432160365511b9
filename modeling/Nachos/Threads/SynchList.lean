import Nachos.KernelLib.SynchDevice

/-! `SynchList`, a list under a lock, whose condition gives each waiting thread a semaphore of
its own. Scheduling is left open: the threads that are awake run their statements in any order.
-/

namespace Nachos.SynchList
open Outcome
open SynchDevice (Semaphore)

-----------------------------------------------------------------------------------------
-- Threads
-----------------------------------------------------------------------------------------

/-- A pointer to a semaphore on the heap, with the number of the object that it points to. -/
structure Pointer where
  address : Nat
  object : Nat
  deriving DecidableEq

/-- A semaphore on the heap. An address may be used again, the number of an object is not. -/
structure Cell (ι : Type) where
  object : Nat
  semaphore : Semaphore ι

/-- The callers of `Acquire`. -/
inductive Entry (α : Type) where
  | append (item : α)
  | removeFront
  | wait (waiter : Pointer)
  deriving DecidableEq

/-- The callers of `Release`. -/
inductive Exit (α : Type) where
  | append
  | removeFront (item : α)
  | wait (waiter : Pointer)
  deriving DecidableEq

/-- What a thread runs next. -/
inductive Progress (α : Type) where
  | outside
  /-- `Acquire`, before or in the loop of `P`. -/
  | acquire (entry : Entry α)
  /-- `Acquire`, before `lockHolder` is set. -/
  | acquired (entry : Entry α)
  /-- `Append` of the list. -/
  | append (item : α)
  /-- `Signal`. -/
  | signal
  /-- `V` in `Signal`. -/
  | v (waiter : Pointer)
  /-- The test of the loop in `RemoveFront`. -/
  | test
  /-- `RemoveFront` of the list. -/
  | remove
  /-- `Wait`. -/
  | wait
  /-- `Append` in `Wait`. -/
  | enqueue (waiter : Pointer)
  /-- `Release`. -/
  | release (exit : Exit α)
  /-- `Release`, before `V`. -/
  | released (exit : Exit α)
  /-- `P` in `Wait`, before or in its loop. -/
  | p (waiter : Pointer)
  /-- `delete` in `Wait`. -/
  | delete (waiter : Pointer)
  deriving DecidableEq

/-- What a thread runs after `Acquire`. -/
def Entry.next {α : Type} : Entry α → Progress α
  | .append item => .append item
  | .removeFront => .test
  | .wait waiter => .delete waiter

/-- The list with its lock and its condition, the semaphores of waiting threads, and the threads.
The last two fields are kept for reference only: who got through `P` of the lock, in order, and
the items that `RemoveFront` returned, in order.
-/
structure State (ι α : Type) where
  list : List α
  lock : Semaphore ι
  lockHolder : Option ι
  waitQueue : List Pointer
  heap : Nat → Option (Cell ι)
  /-- The number of the next object. -/
  objects : Nat
  asleep : ι → Bool
  threads : ι → Progress α
  turns : List (ι × Entry α)
  returned : List (ι × α)

inductive Action (ι α : Type) where
  | append (t : ι) (item : α)
  | removeFront (t : ι)
  /-- The next statement of a thread. If it is `new`, the object gets the given address. -/
  | advance (t : ι) (place : Nat)

variable {ι α : Type} [DecidableEq ι]

/-- No thread is in a call. -/
def initial : State ι α where
  list := []
  lock := .new 1
  lockHolder := none
  waitQueue := []
  heap _ := none
  objects := 0
  asleep _ := false
  threads _ := .outside
  turns := []
  returned := []

namespace State

def goto (t : ι) (progress : Progress α) (state : State ι α) : State ι α :=
  { state with threads := Function.update state.threads t progress }

/-- Dereference a pointer. -/
def read (waiter : Pointer) (state : State ι α) : Except Fault (Semaphore ι) :=
  match state.heap waiter.address with
  | some cell =>
      if cell.object = waiter.object then .ok cell.semaphore else .error .danglingPointer
  | none => .error .danglingPointer

def write (waiter : Pointer) (semaphore : Semaphore ι) (state : State ι α) : State ι α :=
  {
    state with
    heap :=
      Function.update state.heap waiter.address
        (some { object := waiter.object, semaphore })
  }

def sleep (t : ι) (state : State ι α) : State ι α :=
  { state with asleep := Function.update state.asleep t true }

/-- `ReadyToRun`, when `V` found a thread in the queue. -/
def wake (first : Option ι) (state : State ι α) : State ι α :=
  {
    state with
    asleep :=
      match first with
      | some t => Function.update state.asleep t false
      | none => state.asleep
  }

/-- Only the thread that is woken stops sleeping, by cases on the thread asked about. -/
theorem wake_asleep (first : Option ι) (state : State ι α) (t : ι)
    : (state.wake first).asleep t = if first = some t then false else state.asleep t := by
  cases first with
  | none => rfl
  | some woken =>
      by_cases same : t = woken
      · rw [if_pos (congrArg some same.symm), same]
        exact Function.update_self ..
      · rw [if_neg (fun own => same (Option.some.inj own).symm)]
        exact Function.update_of_ne same ..

/-- Return from `Release`. -/
def leave (t : ι) (state : State ι α) : Exit α → State ι α
  | .append => state.goto t .outside
  | .removeFront item =>
      { state.goto t .outside with returned := state.returned ++ [(t, item)] }
  | .wait waiter => state.goto t (.p waiter)

/-- The next statement of a thread. -/
def advance [DecidableEq α] (t : ι) (place : Nat) (state : State ι α)
    : Except Fault (State ι α) :=
  match state.threads t with
  | .outside => .ok state
  | .acquire entry => do
      let (passed, lock) ← state.lock.p t
      if passed then
        return {
          state.goto t (.acquired entry) with
          lock
          turns := state.turns ++ [(t, entry)]
        }
      else return { state.sleep t with lock }
  | .acquired entry => .ok { state.goto t entry.next with lockHolder := some t }
  | .append item => do
      require (item ∉ state.list) .assertion
      return { state.goto t .signal with list := state.list ++ [item] }
  | .signal => do
      require (state.lockHolder = some t) .assertion
      match state.waitQueue with
      | [] => return state.goto t (.release .append)
      | waiter :: rest => return { state.goto t (.v waiter) with waitQueue := rest }
  | .v waiter => do
      let semaphore ← state.read waiter
      return ((state.write waiter semaphore.v).wake semaphore.queue.head?).goto t
        (.release .append)
  | .test => .ok (state.goto t (if state.list.isEmpty then .wait else .remove))
  | .remove =>
      match state.list with
      | [] => .error .assertion
      | item :: rest =>
          .ok { state.goto t (.release (.removeFront item)) with list := rest }
  | .wait => do
      require (state.lockHolder = some t) .assertion
      let waiter := { address := place, object := state.objects }
      return {
        (state.write waiter (.new 0)).goto t (.enqueue waiter) with
        objects := state.objects + 1
      }
  | .enqueue waiter => do
      require (waiter.address ∉ state.waitQueue.map Pointer.address) .assertion
      return {
        state.goto t (.release (.wait waiter)) with
        waitQueue := state.waitQueue ++ [waiter]
      }
  | .release exit => do
      require (state.lockHolder = some t) .assertion
      return { state.goto t (.released exit) with lockHolder := none }
  | .released exit =>
      .ok (({ state with lock := state.lock.v }.wake state.lock.queue.head?).leave t exit)
  | .p waiter => do
      let semaphore ← state.read waiter
      let (passed, semaphore) ← semaphore.p t
      if passed then return (state.write waiter semaphore).goto t (.acquire (.wait waiter))
      else return (state.write waiter semaphore).sleep t
  | .delete waiter => do
      let _ ← state.read waiter
      return {
        state.goto t .test with
        heap := Function.update state.heap waiter.address none
      }

/-- Threads that sleep do not advance, and `new` gives an address that is not in use. -/
def Legal (state : State ι α) : Action ι α → Prop
  | .append t _ | .removeFront t => state.threads t = .outside
  | .advance t place =>
      state.threads t ≠ .outside ∧ state.asleep t = false
      ∧ (state.threads t = .wait → state.heap place = none)

def perform [DecidableEq α] (state : State ι α) : Action ι α → Except Fault (State ι α)
  | .append t item => .ok (state.goto t (.acquire (.append item)))
  | .removeFront t => .ok (state.goto t (.acquire .removeFront))
  | .advance t place => state.advance t place

/-- A legal action that returns. -/
def Step [DecidableEq α] (state : State ι α) (action : Action ι α) (after : State ι α) : Prop :=
  state.Legal action ∧ state.perform action = .ok after

section Execution

variable [DecidableEq α]

instance (state : State ι α) (action : Action ι α) : Decidable (state.Legal action) :=
  match action with
  | .append t _ | .removeFront t => inferInstanceAs (Decidable (state.threads t = .outside))
  | .advance t place =>
      inferInstanceAs
        (Decidable
          (state.threads t ≠ .outside ∧ state.asleep t = false
            ∧ (state.threads t = .wait → state.heap place = none)))

/-- The state after an action, if it is legal and returns. -/
def next (state : State ι α) (action : Action ι α) : Option (State ι α) :=
  if state.Legal action then (state.perform action).toOption else none

theorem step_of_next {state after : State ι α} {action : Action ι α}
    (computed : state.next action = some after)
    : state.Step action after :=
  of_attempt computed

end Execution

end State

-----------------------------------------------------------------------------------------
-- One turn after the other
-----------------------------------------------------------------------------------------

section Serial

/-- The first item is removed, if there is one. -/
def take : List α → Option α × List α
  | [] => (none, [])
  | first :: rest => (some first, rest)

/-- What a thread does with the list while it has the lock. -/
def Entry.turn : Entry α → List α → Option α × List α
  | .append item, list => (none, list ++ [item])
  | .removeFront, list | .wait _, list => take list

/-- Turns taken one after the other, with the items that they remove. -/
def serial {ι : Type} : List (ι × Entry α) → List α → List (ι × α) × List α
  | [], list => ([], list)
  | (t, entry) :: rest, list =>
      let done := entry.turn list
      let others := serial rest done.2
      (done.1.toList.map (t, ·) ++ others.1, others.2)

/-- The item of a call of `Append`. -/
def Entry.item : Entry α → Option α
  | .append item => some item
  | .removeFront | .wait _ => none

/-- The items of the calls of `Append`. -/
def appended {ι : Type} (turns : List (ι × Entry α)) : List α :=
  turns.filterMap (fun turn => turn.2.item)

variable {ι : Type}

theorem take_items (list : List α) : list = (take list).1.toList ++ (take list).2 := by
  cases list <;> rfl

theorem turn_items (entry : Entry α) (list : List α)
    : list ++ entry.item.toList = (entry.turn list).1.toList ++ (entry.turn list).2 := by
  cases entry with
  | append item => rfl
  | removeFront => exact (List.append_nil list).trans (take_items list)
  | wait waiter => exact (List.append_nil list).trans (take_items list)

/-- One turn more, by induction on those before it. -/
theorem serial_snoc (before : List (ι × Entry α)) (t : ι) (entry : Entry α) (list : List α)
    : serial (before ++ [(t, entry)]) list
      = ((serial before list).1
            ++ (entry.turn (serial before list).2).1.toList.map (t, ·),
          (entry.turn (serial before list).2).2) := by
  induction before generalizing list with
  | nil => simp [serial]
  | cons first rest ih =>
      rw [List.cons_append, serial, ih]
      simp [serial]

/-- Items leave the list in the order in which they came, by induction on the turns. -/
theorem serial_items (turns : List (ι × Entry α)) (list : List α)
    : list ++ appended turns
      = (serial turns list).1.map Prod.snd ++ (serial turns list).2 := by
  induction turns generalizing list with
  | nil => simp [serial, appended]
  | cons first rest ih =>
      obtain ⟨t, entry⟩ := first
      have split : appended ((t, entry) :: rest) = entry.item.toList ++ appended rest := by
        rw [appended, List.filterMap_cons, appended]
        cases entry.item <;> rfl
      have removed
          : ((entry.turn list).1.toList.map ((t, ·) : α → ι × α)).map Prod.snd
            = (entry.turn list).1.toList := by
        rw [List.map_map]
        exact List.map_id _
      rw [split, ← List.append_assoc, turn_items, List.append_assoc, ih, serial]
      dsimp only
      rw [List.map_append, removed, List.append_assoc]

end Serial

end Nachos.SynchList
