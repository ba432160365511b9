import Nachos.Threads.Scheduling

/-! The kernel around the scheduler: the interrupt level, semaphores, and threads that give up
the processor inside a call and go on in it after SWITCH. Which interrupts are due is left open
at every tick.
-/

namespace Nachos.Threads

/-- The address of a semaphore. -/
abbrev SemaphoreId := Nat

inductive IntStatus where
  | intOff
  | intOn
  deriving DecidableEq

inductive MachineStatus where
  | idleMode
  | systemMode
  | userMode
  deriving DecidableEq

structure Interrupt where
  level : IntStatus
  inHandler : Bool
  yieldOnReturn : Bool
  status : MachineStatus
  deriving DecidableEq

structure Semaphore where
  value : Int
  queue : List ThreadId
  deriving DecidableEq

/-- A call on the stack of a thread, by where it goes on. -/
inductive Frame where
  /-- `ThreadRoot` is about to call `Begin`. -/
  | begin
  /-- `Begin`, after interrupts are enabled. -/
  | begun
  /-- `Scheduler::Run`, after SWITCH. -/
  | run
  /-- `Yield`, after `Run`. -/
  | yield (oldLevel : IntStatus)
  /-- `Semaphore::P`, after `Sleep`. -/
  | p (s : SemaphoreId) (oldLevel : IntStatus)
  /-- `OneTick`, after `Yield`. -/
  | oneTick (oldStatus : MachineStatus)
  deriving DecidableEq

/-- What the processor does. -/
inductive Control where
  /-- The current thread goes on, in the topmost call of its stack or else in its own code. -/
  | thread
  /-- `OneTick` calls the handlers that are due. -/
  | tick
  /-- The loop of `Sleep` looks for a thread. -/
  | sleep (finishing : Bool)
  /-- `Idle`, inside that loop, calls handlers. -/
  | idle (finishing : Bool)
  | halted
  deriving DecidableEq

/-- What happens to threads, kept for reference only: no code reads it. -/
inductive Event where
  | constructed (t : ThreadId)
  | readied (t : ThreadId)
  | dispatched (t : ThreadId)
  | finished (t : ThreadId)
  | deleted (t : ThreadId)
  deriving DecidableEq

structure Kernel where
  scheduler : SchedulerState
  toBeDestroyed : Option ThreadId
  currentThread : ThreadId
  semaphores : SemaphoreId → Option Semaphore
  interrupt : Interrupt
  /-- The calls that each thread is in, the topmost first. -/
  calls : ThreadId → List Frame
  isExec : ThreadId → Bool
  execExit : Bool
  execRunningNum : Int
  control : Control
  history : List Event

namespace Kernel

-----------------------------------------------------------------------------------------
-- Interrupts
-----------------------------------------------------------------------------------------

def systemTick : Int := 10

def userTick : Int := 1

/-- `OneTick` up to the first handler. -/
def oneTick (kernel : Kernel) : Kernel :=
  {
    kernel with
    scheduler.totalTicks :=
      kernel.scheduler.totalTicks
        + if kernel.interrupt.status = .systemMode then systemTick else userTick
    interrupt.level := .intOff
    control := .tick
  }

def setLevel (now : IntStatus) (kernel : Kernel) : Except Fault Kernel := do
  if now = .intOn ∧ kernel.interrupt.inHandler then throw .assertion
  let changed := { kernel with interrupt.level := now }
  if now = .intOn ∧ kernel.interrupt.level = .intOff then return changed.oneTick
  else return changed

/-- The assertion that interrupts are off. -/
def requireOff (kernel : Kernel) : Except Fault Unit :=
  if kernel.interrupt.level = .intOff then .ok () else .error .assertion

def push (t : ThreadId) (frame : Frame) (kernel : Kernel) : Kernel :=
  { kernel with calls := Function.update kernel.calls t (frame :: kernel.calls t) }

/-- The topmost call of the current thread returns. -/
def pop (kernel : Kernel) : Kernel :=
  {
    kernel with
    calls := Function.update kernel.calls kernel.currentThread
      (kernel.calls kernel.currentThread).tail
  }

-----------------------------------------------------------------------------------------
-- Scheduler
-----------------------------------------------------------------------------------------

def readyToRun (t : ThreadId) (kernel : Kernel) : Except Fault Kernel := do
  kernel.requireOff
  let scheduler ← kernel.scheduler.readyToRun t
  return { kernel with scheduler, history := kernel.history ++ [.readied t] }

def findNextToRun (kernel : Kernel) : Except Fault (Option ThreadId × Kernel) := do
  kernel.requireOff
  let (next, scheduler) ← kernel.scheduler.findNextToRun
  return (next, { kernel with scheduler })

/-- `Run` up to SWITCH, after which the stack of the next thread goes on. -/
def run (nextThread : ThreadId) (finishing : Bool) (kernel : Kernel) : Except Fault Kernel := do
  kernel.requireOff
  if finishing ∧ kernel.toBeDestroyed ≠ none then throw .assertion
  let toBeDestroyed := if finishing then some kernel.currentThread else kernel.toBeDestroyed
  let scheduler ← kernel.scheduler.setStatus nextThread .running
  return {
    kernel.push kernel.currentThread .run with
    scheduler
    toBeDestroyed
    currentThread := nextThread
    control := .thread
    history := kernel.history ++ [.dispatched nextThread]
  }

/-- `delete toBeDestroyed` with the destructor of the thread. -/
def checkToBeDestroyed (kernel : Kernel) : Except Fault Kernel := do
  match kernel.toBeDestroyed with
  | none => return kernel
  | some t =>
      let _ ← kernel.scheduler.lookup t
      if t = kernel.currentThread then throw .assertion
      return {
        kernel with
        scheduler.threads := Function.update kernel.scheduler.threads t none
        calls := Function.update kernel.calls t []
        toBeDestroyed := none
        history := kernel.history ++ [.deleted t]
      }

-----------------------------------------------------------------------------------------
-- Threads
-----------------------------------------------------------------------------------------

/-- `new Thread`, at a free address. -/
def construct (t : ThreadId) (initPriority : Int) (kernel : Kernel) : Kernel :=
  {
    kernel with
    scheduler := kernel.scheduler.put t (.new initPriority kernel.scheduler.totalTicks)
    calls := Function.update kernel.calls t []
    isExec := Function.update kernel.isExec t false
    history := kernel.history ++ [.constructed t]
  }

def fork (t : ThreadId) (kernel : Kernel) : Except Fault Kernel := do
  let allocated := { kernel with calls := Function.update kernel.calls t [.begin] }
  let oldLevel := allocated.interrupt.level
  let off ← allocated.setLevel .intOff
  let ready ← off.readyToRun t
  ready.setLevel oldLevel

def yield (kernel : Kernel) : Except Fault Kernel := do
  let oldLevel := kernel.interrupt.level
  let off ← kernel.setLevel .intOff
  let (nextThread, found) ← off.findNextToRun
  match nextThread with
  | none => found.setLevel oldLevel
  | some nextThread =>
      let ready ← found.readyToRun found.currentThread
      (ready.push ready.currentThread (.yield oldLevel)).run nextThread false

/-- `Sleep` up to its loop. -/
def sleep (finishing : Bool) (kernel : Kernel) : Except Fault Kernel := do
  kernel.requireOff
  let scheduler ←
    kernel.scheduler.setStatus kernel.currentThread
      (if finishing then .terminated else .waiting)
  return {
    kernel with
    scheduler
    control := .sleep finishing
    history :=
      if finishing then kernel.history ++ [.finished kernel.currentThread] else kernel.history
  }

/-- One turn of the loop of `Sleep`, up to the handlers that `Idle` calls. -/
def findNext (finishing : Bool) (kernel : Kernel) : Except Fault Kernel := do
  let (nextThread, found) ← kernel.findNextToRun
  match nextThread with
  | none => return { found with interrupt.status := .idleMode, control := .idle finishing }
  | some nextThread => found.run nextThread finishing

def halt (kernel : Kernel) : Kernel := { kernel with control := .halted }

def finish (kernel : Kernel) : Except Fault Kernel := do
  let off ← kernel.setLevel .intOff
  if off.execExit ∧ off.isExec off.currentThread then
    let counted := { off with execRunningNum := off.execRunningNum - 1 }
    if counted.execRunningNum = 0 then return counted.halt
    counted.sleep true
  else off.sleep true

-----------------------------------------------------------------------------------------
-- Semaphores
-----------------------------------------------------------------------------------------

def lookup (s : SemaphoreId) (kernel : Kernel) : Except Fault Semaphore :=
  match kernel.semaphores s with
  | some semaphore => .ok semaphore
  | none => .error .danglingPointer

def store (s : SemaphoreId) (semaphore : Semaphore) (kernel : Kernel) : Kernel :=
  { kernel with semaphores := Function.update kernel.semaphores s (some semaphore) }

/-- The loop of `P`, and what follows it. -/
def wait (s : SemaphoreId) (oldLevel : IntStatus) (kernel : Kernel) : Except Fault Kernel := do
  let semaphore ← kernel.lookup s
  if semaphore.value = 0 then
    if kernel.currentThread ∈ semaphore.queue then throw .assertion
    let queue := semaphore.queue ++ [kernel.currentThread]
    ((kernel.store s { semaphore with queue }).push kernel.currentThread (.p s oldLevel)).sleep
      false
  else (kernel.store s { semaphore with value := semaphore.value - 1 }).setLevel oldLevel

def p (s : SemaphoreId) (kernel : Kernel) : Except Fault Kernel := do
  let oldLevel := kernel.interrupt.level
  let off ← kernel.setLevel .intOff
  off.wait s oldLevel

def v (s : SemaphoreId) (kernel : Kernel) : Except Fault Kernel := do
  let oldLevel := kernel.interrupt.level
  let off ← kernel.setLevel .intOff
  let semaphore ← off.lookup s
  let value := semaphore.value + 1
  match semaphore.queue with
  | [] => (off.store s { semaphore with value }).setLevel oldLevel
  | t :: queue =>
      let ready ← (off.store s { semaphore with queue }).readyToRun t
      (ready.store s { value, queue }).setLevel oldLevel

-----------------------------------------------------------------------------------------
-- Returning
-----------------------------------------------------------------------------------------

/-- The topmost call of the current thread goes on. -/
def resume (kernel : Kernel) : Except Fault Kernel :=
  match kernel.calls kernel.currentThread with
  | [] => .ok kernel
  | .begin :: _ => do
      let checked ← kernel.pop.checkToBeDestroyed
      (checked.push checked.currentThread .begun).setLevel .intOn
  | .begun :: _ =>
      let returned := kernel.pop
      if returned.execExit ∧ returned.isExec returned.currentThread then
        .ok { returned with execRunningNum := returned.execRunningNum + 1 }
      else .ok returned
  | .run :: _ => do
      kernel.requireOff
      kernel.pop.checkToBeDestroyed
  | .yield oldLevel :: _ => kernel.pop.setLevel oldLevel
  | .p s oldLevel :: _ => kernel.pop.wait s oldLevel
  | .oneTick oldStatus :: _ => .ok { kernel.pop with interrupt.status := oldStatus }

-----------------------------------------------------------------------------------------
-- Handlers
-----------------------------------------------------------------------------------------

/-- `Alarm::CallBack`. -/
def callBack (kernel : Kernel) : Except Fault Kernel := do
  let (preempt, scheduler) ←
    kernel.scheduler.callBack (kernel.interrupt.status = .idleMode) kernel.currentThread
  if preempt then
    if ¬kernel.interrupt.inHandler then throw .assertion
    return { kernel with scheduler, interrupt.yieldOnReturn := true }
  else return { kernel with scheduler }

/-- `CheckIfDue` enters a handler. -/
def inHandler (kernel : Kernel) : Kernel := { kernel with interrupt.inHandler := true }

/-- The rest of `OneTick` after the last handler. -/
def tickHandled (kernel : Kernel) : Except Fault Kernel :=
  let handled :=
    {
      kernel with
      interrupt.inHandler := false
      interrupt.level := .intOn
      control := .thread
    }
  if handled.interrupt.yieldOnReturn then
    let oldStatus := handled.interrupt.status
    let asked :=
      { handled with interrupt.yieldOnReturn := false, interrupt.status := .systemMode }
    (asked.push asked.currentThread (.oneTick oldStatus)).yield
  else .ok handled

/-- The rest of `Idle` after the last handler. -/
def idleHandled (finishing : Bool) (kernel : Kernel) : Kernel :=
  {
    kernel with
    interrupt.inHandler := false
    interrupt.status := .systemMode
    control := .sleep finishing
  }

-----------------------------------------------------------------------------------------
-- Steps
-----------------------------------------------------------------------------------------

/-- What the current thread's own code calls. -/
inductive Call where
  | construct (t : ThreadId) (initPriority : Int)
  | setIsExec (t : ThreadId)
  | fork (t : ThreadId)
  | yield
  | finish
  | semaphore (s : SemaphoreId) (initialValue : Int)
  | p (s : SemaphoreId)
  | v (s : SemaphoreId)
  | setLevel (now : IntStatus)
  | setStatus (status : MachineStatus)
  | oneTick
  | halt

inductive Action where
  | call (call : Call)
  | resume
  /-- The timer calls back. -/
  | timer
  /-- A device calls back a handler that signals a semaphore. -/
  | device (s : SemaphoreId)
  /-- No further handler is due. -/
  | handled
  /-- `Sleep` looks for a thread. -/
  | findNext
  /-- `Idle` advances the clock to the next interrupt. -/
  | advance (ticks : Nat)
  /-- `Idle` finds no interrupt pending. -/
  | noInterrupts

/-- New objects are new, only new threads are forked, and semaphores that are used exist. -/
def Admissible (kernel : Kernel) : Call → Prop
  | .construct t _ => kernel.scheduler.threads t = none
  | .fork t => kernel.scheduler.statusOf t = some .new
  | .semaphore s _ => kernel.semaphores s = none
  | .p s | .v s => (kernel.semaphores s).isSome
  | .setStatus status => status ≠ .idleMode
  | _ => True

/-- The actions that may come next. -/
def Legal (kernel : Kernel) : Action → Prop
  | .call call =>
      kernel.control = .thread ∧ kernel.calls kernel.currentThread = []
      ∧ kernel.Admissible call
  | .resume => kernel.control = .thread ∧ kernel.calls kernel.currentThread ≠ []
  | .timer =>
      kernel.control = .tick ∨ kernel.control = .idle false ∨ kernel.control = .idle true
  | .device s =>
      (kernel.control = .tick ∨ kernel.control = .idle false ∨ kernel.control = .idle true)
      ∧ (kernel.semaphores s).isSome
  | .handled =>
      kernel.control = .tick ∨ kernel.control = .idle false ∨ kernel.control = .idle true
  | .findNext => kernel.control = .sleep false ∨ kernel.control = .sleep true
  | .advance _ | .noInterrupts =>
      kernel.control = .idle false ∨ kernel.control = .idle true

def perform (action : Action) (kernel : Kernel) : Except Fault Kernel :=
  match action with
  | .call (.construct t initPriority) => .ok (kernel.construct t initPriority)
  | .call (.setIsExec t) => .ok { kernel with isExec := Function.update kernel.isExec t true }
  | .call (.fork t) => kernel.fork t
  | .call .yield => kernel.yield
  | .call .finish => kernel.finish
  | .call (.semaphore s initialValue) =>
      .ok (kernel.store s { value := initialValue, queue := [] })
  | .call (.p s) => kernel.p s
  | .call (.v s) => kernel.v s
  | .call (.setLevel now) => kernel.setLevel now
  | .call (.setStatus status) => .ok { kernel with interrupt.status := status }
  | .call .oneTick => .ok kernel.oneTick
  | .call .halt => .ok kernel.halt
  | .resume => kernel.resume
  | .timer => kernel.inHandler.callBack
  | .device s => kernel.inHandler.v s
  | .handled =>
      match kernel.control with
      | .idle finishing => .ok (kernel.idleHandled finishing)
      | _ => kernel.tickHandled
  | .findNext => kernel.findNext (kernel.control = .sleep true)
  | .advance ticks =>
      .ok { kernel with scheduler.totalTicks := kernel.scheduler.totalTicks + ticks }
  | .noInterrupts => .ok kernel.halt

/-- A step by a legal action that returns. -/
def Step (kernel : Kernel) (action : Action) (after : Kernel) : Prop :=
  kernel.Legal action ∧ kernel.perform action = .ok after

/-- `Initialize` after the main thread was made. -/
def booted (main : ThreadId) (execExit : Bool) (scheduler : SchedulerState) : Kernel :=
  {
    scheduler
    toBeDestroyed := none
    currentThread := main
    semaphores := fun _ => none
    interrupt :=
      { level := .intOff, inHandler := false, yieldOnReturn := false, status := .systemMode }
    calls := fun _ => []
    isExec := fun _ => false
    execExit
    execRunningNum := 0
    control := .thread
    history := [.constructed main]
  }

/-- The main thread runs, before interrupts are enabled. -/
def initial (main : ThreadId) (initPriority : Int) (execExit : Bool) : Except Fault Kernel := do
  let constructed := SchedulerState.initial.put main (.new initPriority 0)
  let ready ← constructed.setStatus main .ready
  let running ← ready.setStatus main .running
  return booted main execExit running

end Kernel

end Nachos.Threads
