import Mathlib.Logic.Function.Basic
import Nachos.Fault
import Nachos.Lib.Outcome
import Nachos.Lib.Runs

/-! Threads that use a device one at a time, under a lock, and wait on a semaphore that the
interrupts of the device signal. Scheduling and the times of interrupts are left open.
-/

namespace Nachos.SynchDevice
open Outcome

-----------------------------------------------------------------------------------------
-- Semaphores
-----------------------------------------------------------------------------------------

structure Semaphore (ι : Type) where
  value : Int
  queue : List ι

namespace Semaphore

variable {ι : Type}

def new (initialValue : Int) : Semaphore ι := { value := initialValue, queue := [] }

/-- One turn of the loop of `P`: whether the thread passed, or went to sleep. -/
def p [DecidableEq ι] (t : ι) (semaphore : Semaphore ι) : Except Fault (Bool × Semaphore ι) :=
  if semaphore.value = 0 then do
    require (t ∉ semaphore.queue) .assertion
    return (false, { semaphore with queue := semaphore.queue ++ [t] })
  else return (true, { semaphore with value := semaphore.value - 1 })

/-- `V`: the first sleeper becomes ready, and will test the value again. -/
def v (semaphore : Semaphore ι) : Semaphore ι :=
  { value := semaphore.value + 1, queue := semaphore.queue.tail }

theorem p_zero [DecidableEq ι] {semaphore : Semaphore ι} {t : ι}
    (zero : semaphore.value = 0) (awake : t ∉ semaphore.queue)
    : semaphore.p t
      = .ok (false, { semaphore with queue := semaphore.queue ++ [t] }) := by
  rw [p, if_pos zero, bind_ok (require_of awake _)]
  rfl

theorem p_of_ne [DecidableEq ι] {semaphore : Semaphore ι} {t : ι}
    (available : semaphore.value ≠ 0)
    : semaphore.p t = .ok (true, { semaphore with value := semaphore.value - 1 }) :=
  if_neg available

end Semaphore

-----------------------------------------------------------------------------------------
-- Calls
-----------------------------------------------------------------------------------------

/-- What a call does while it holds the lock: requests to the device, and `P` on the semaphore
that its interrupts signal.
-/
inductive Instruction (ρ : Type) where
  | request (request : ρ)
  | p

/-- Calls `κ` on a device with states `δ` and requests `ρ` that give back values `ω`. Its
handler may depend on its surroundings `ε`, and tells whether it signals the semaphore.
-/
structure Driver (κ ρ ω δ ε : Type) where
  valid : κ → Prop
  script : κ → List (Instruction ρ)
  request : ρ → δ → Except Fault (ω × δ)
  pending : δ → Prop
  callBack : ε → δ → Except Fault (Bool × δ)

/-- Where a thread is in a call. -/
inductive Progress (κ ρ ω : Type) where
  | outside
  /-- In `Acquire`, before or in the loop of `P`. -/
  | acquiring (call : κ)
  /-- In `Acquire`, before `lockHolder` is set. -/
  | acquired (call : κ)
  /-- Before the rest of the instructions, with what the requests so far gave back. -/
  | inside (call : κ) (rest : List (Instruction ρ)) (outputs : List ω)
  /-- In `Release`, before `V`. -/
  | releasing (call : κ) (outputs : List ω)

/-- The lock, the semaphore, the device and the threads. The last two fields are kept for
reference only: the calls in the order in which they acquired the lock, and those that
returned, with their values.
-/
structure State (ι κ ρ ω δ : Type) where
  lock : Semaphore ι
  lockHolder : Option ι
  waitFor : Semaphore ι
  device : δ
  threads : ι → Progress κ ρ ω
  acquired : List κ
  returned : List (κ × List ω)

inductive Action (ι κ ε : Type) where
  | begin (t : ι) (call : κ)
  | advance (t : ι)
  | interrupt (surroundings : ε)

namespace Driver

variable {ι κ ρ ω δ ε : Type} [DecidableEq ι] (driver : Driver κ ρ ω δ ε)

/-- The next step of a thread in a call. -/
def advance (t : ι) (state : State ι κ ρ ω δ) : Except Fault (State ι κ ρ ω δ) :=
  match state.threads t with
  | .outside => .ok state
  | .acquiring call => do
      let (passed, lock) ← state.lock.p t
      if passed then
        return {
          state with
          lock
          threads := Function.update state.threads t (.acquired call)
          acquired := state.acquired ++ [call]
        }
      else return { state with lock }
  | .acquired call =>
      .ok {
        state with
        lockHolder := some t
        threads := Function.update state.threads t (.inside call (driver.script call) [])
      }
  | .inside call (.request request :: rest) outputs => do
      let (output, device) ← driver.request request state.device
      return {
        state with
        device
        threads :=
          Function.update state.threads t (.inside call rest (outputs ++ [output]))
      }
  | .inside call (.p :: rest) outputs => do
      let (passed, waitFor) ← state.waitFor.p t
      if passed then
        return {
          state with
          waitFor
          threads := Function.update state.threads t (.inside call rest outputs)
        }
      else return { state with waitFor }
  | .inside call [] outputs => do
      require (state.lockHolder = some t) .assertion
      return {
        state with
        lockHolder := none
        threads := Function.update state.threads t (.releasing call outputs)
      }
  | .releasing call outputs =>
      .ok {
        state with
        lock := state.lock.v
        threads := Function.update state.threads t .outside
        returned := state.returned ++ [(call, outputs)]
      }

/-- Threads that sleep do not advance, and interrupts occur when they are pending. -/
def Legal (state : State ι κ ρ ω δ) : Action ι κ ε → Prop
  | .begin t call => state.threads t = .outside ∧ driver.valid call
  | .advance t =>
      state.threads t ≠ .outside ∧ t ∉ state.lock.queue ∧ t ∉ state.waitFor.queue
  | .interrupt _ => driver.pending state.device

def perform (state : State ι κ ρ ω δ) : Action ι κ ε → Except Fault (State ι κ ρ ω δ)
  | .begin t call =>
      .ok { state with threads := Function.update state.threads t (.acquiring call) }
  | .advance t => driver.advance t state
  | .interrupt surroundings => do
      let (signals, device) ← driver.callBack surroundings state.device
      return {
        state with
        device
        waitFor := if signals then state.waitFor.v else state.waitFor
      }

/-- A legal action that returns. -/
def Step (state : State ι κ ρ ω δ) (action : Action ι κ ε) (after : State ι κ ρ ω δ) : Prop :=
  driver.Legal state action ∧ driver.perform state action = .ok after

-----------------------------------------------------------------------------------------
-- Execution
-----------------------------------------------------------------------------------------

variable [DecidablePred driver.valid] [DecidablePred driver.pending]

instance (state : State ι κ ρ ω δ) (action : Action ι κ ε)
    : Decidable (driver.Legal state action) :=
  match action with
  | .begin t call =>
      match outside : state.threads t with
      | .outside => decidable_of_iff (driver.valid call) (by simp [Legal, outside])
      | .acquiring _ | .acquired _ | .inside _ _ _ | .releasing _ _ =>
          isFalse (by simp [Legal, outside])
  | .advance t =>
      match outside : state.threads t with
      | .outside => isFalse (by simp [Legal, outside])
      | .acquiring _ | .acquired _ | .inside _ _ _ | .releasing _ _ =>
          decidable_of_iff (t ∉ state.lock.queue ∧ t ∉ state.waitFor.queue)
            (by simp [Legal, outside])
  | .interrupt _ => inferInstanceAs (Decidable (driver.pending _))

/-- The state after an action, if it is legal and returns. -/
def next (state : State ι κ ρ ω δ) (action : Action ι κ ε) : Option (State ι κ ρ ω δ) :=
  if driver.Legal state action then (driver.perform state action).toOption else none

theorem step_of_next {state after : State ι κ ρ ω δ} {action : Action ι κ ε}
    (computed : driver.next state action = some after)
    : driver.Step state action after :=
  of_attempt computed

end Driver

/-- The lock and the semaphore are new, and no thread is in a call. -/
def initial {ι κ ρ ω δ : Type} (device : δ) : State ι κ ρ ω δ where
  lock := .new 1
  lockHolder := none
  waitFor := .new 0
  device := device
  threads _ := .outside
  acquired := []
  returned := []

-----------------------------------------------------------------------------------------
-- One call after the other
-----------------------------------------------------------------------------------------

section Serial

variable {κ ρ ω μ : Type}

/-- The requests among the instructions. -/
def requests (instructions : List (Instruction ρ)) : List ρ :=
  instructions.filterMap (fun instruction =>
    match instruction with
    | .request request => some request
    | .p => none)

@[simp]
theorem requests_request (request : ρ) (rest : List (Instruction ρ))
    : requests (.request request :: rest) = request :: requests rest :=
  rfl

/-- Requests served one after the other from a memory on, by the effect of each. -/
def execute (effect : ρ → μ → ω × μ) : List ρ → μ → List ω × μ
  | [], memory => ([], memory)
  | request :: rest, memory =>
      let served := effect request memory
      let others := execute effect rest served.2
      (served.1 :: others.1, others.2)

/-- Calls made one after the other, each with the values that its requests give back. -/
def serial (script : κ → List (Instruction ρ)) (effect : ρ → μ → ω × μ)
    : List κ → μ → List (κ × List ω) × μ
  | [], memory => ([], memory)
  | call :: rest, memory =>
      let served := execute effect (requests (script call)) memory
      let others := serial script effect rest served.2
      ((call, served.1) :: others.1, others.2)

/-- One request more, by induction on those before it. -/
theorem execute_snoc (effect : ρ → μ → ω × μ) (before : List ρ) (request : ρ) (memory : μ)
    : execute effect (before ++ [request]) memory
      = ((execute effect before memory).1
            ++ [(effect request (execute effect before memory).2).1],
          (effect request (execute effect before memory).2).2) := by
  induction before generalizing memory with
  | nil => rfl
  | cons first rest ih =>
      rw [List.cons_append, execute, ih]
      rfl

/-- One call more, by induction on those before it. -/
theorem serial_snoc (script : κ → List (Instruction ρ)) (effect : ρ → μ → ω × μ)
    (before : List κ) (call : κ) (memory : μ)
    : serial script effect (before ++ [call]) memory
      = ((serial script effect before memory).1
            ++ [(call,
              (execute effect (requests (script call))
                (serial script effect before memory).2).1)],
          (execute effect (requests (script call))
            (serial script effect before memory).2).2) := by
  induction before generalizing memory with
  | nil => rfl
  | cons first rest ih =>
      rw [List.cons_append, serial, ih]
      rfl

/-- More calls, by induction on those before them. -/
theorem serial_append (script : κ → List (Instruction ρ)) (effect : ρ → μ → ω × μ)
    (before later : List κ) (memory : μ)
    : serial script effect (before ++ later) memory
      = ((serial script effect before memory).1
            ++ (serial script effect later (serial script effect before memory).2).1,
          (serial script effect later (serial script effect before memory).2).2) := by
  induction before generalizing memory with
  | nil => rfl
  | cons first rest ih =>
      rw [List.cons_append, serial, ih]
      rfl

/-- The calls stand in the order in which they were made. -/
theorem serial_calls (script : κ → List (Instruction ρ)) (effect : ρ → μ → ω × μ)
    (calls : List κ) (memory : μ)
    : (serial script effect calls memory).1.map Prod.fst = calls := by
  induction calls generalizing memory with
  | nil => rfl
  | cons first rest ih => exact congrArg (first :: ·) (ih _)

/-- A call gives back what its requests do after the calls before it. -/
theorem outputs_of_serial {script : κ → List (Instruction ρ)} {effect : ρ → μ → ω × μ}
    {start : μ} {before later : List (κ × List ω)} {call : κ} {outputs : List ω}
    (ran
      : (serial script effect ((before ++ (call, outputs) :: later).map Prod.fst) start).1
        = before ++ (call, outputs) :: later)
    : outputs
      = (execute effect (requests (script call))
          (serial script effect (before.map Prod.fst) start).2).1 := by
  rw [List.map_append, serial_append] at ran
  have lengths
      : (serial script effect (before.map Prod.fst) start).1.length = before.length := by
    have calls := congrArg List.length
      (serial_calls script effect (before.map Prod.fst) start)
    rwa [List.length_map, List.length_map] at calls
  have others := (List.append_inj ran lengths).2
  exact (Prod.mk.inj (List.cons.inj others).1).2.symm

end Serial

end Nachos.SynchDevice
