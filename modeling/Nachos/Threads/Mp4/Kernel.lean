import Nachos.Machine.Interrupt

/-! The kernel of the fourth assignment: one ready list, the devices with their pending
interrupts, and the loop of `Sleep`. Handlers are steps of their own. What other devices than
the clock do at what time is left open.
-/

namespace Nachos.Threads.Mp4

open Machine Outcome

inductive ThreadStatus where
  | justCreated
  | running
  | ready
  | blocked
  | zombie
  deriving DecidableEq

structure Thread where
  status : ThreadStatus
  /-- It called `Finish`. No code reads it. -/
  finished : Bool
  deriving DecidableEq

/-- The objects whose `CallBack` an interrupt calls. -/
inductive Device where
  | timer
  | disk
  | consoleInput
  | consoleOutput
  deriving DecidableEq

structure Timer where
  randomize : Bool
  disable : Bool
  deriving DecidableEq

structure ConsoleInput where
  incoming : Int
  disabled : Bool
  deriving DecidableEq

/-- What polling the file of the keyboard finds. -/
inductive Polled where
  | nothing
  | endOfFile
  | char (c : Int)

/-- A call on the stack of a thread, by where it goes on. -/
inductive Frame where
  /-- `ThreadRoot` is about to call `Begin`. -/
  | begin
  /-- `Scheduler::Run`, after SWITCH. -/
  | run
  /-- `Yield`, after `Run`. -/
  | yield (oldLevel : IntStatus)
  /-- `Semaphore::P`, after `Sleep`. -/
  | p (s : SemaphoreId) (oldLevel : IntStatus)
  /-- `OneTick`, after `Yield`. -/
  | oneTick (oldStatus : MachineStatus)
  deriving DecidableEq

structure Kernel where
  machine : Simulation Device Unit
  threads : ThreadId → Option Thread
  readyList : List ThreadId
  toBeDestroyed : Option ThreadId
  currentThread : ThreadId
  semaphores : SemaphoreId → Option Semaphore
  /-- The calls that each thread is in, the topmost first. -/
  calls : ThreadId → List Frame
  timer : Timer
  /-- The disk is busy. -/
  active : Bool
  consoleInput : ConsoleInput
  /-- The display is busy. -/
  putBusy : Bool
  control : Control
  /-- The object whose `CallBack` is executing. -/
  handling : Option Device

namespace Kernel

-----------------------------------------------------------------------------------------
-- Interrupts
-----------------------------------------------------------------------------------------

/-- `OneTick` up to the first handler. -/
def oneTick (kernel : Kernel) : Except Crash Kernel := do
  let ticked ← kernel.machine.tick
  return { kernel with machine := ticked.changeLevel .intOff, control := .tick }

def setLevel (now : IntStatus) (kernel : Kernel) : Except Crash Kernel := do
  require (now = .intOff ∨ kernel.machine.interrupt.inHandler = false) (.fault .assertion)
  let changed := { kernel with machine := kernel.machine.changeLevel now }
  if now = .intOn ∧ kernel.machine.interrupt.level = .intOff then changed.oneTick
  else return changed

def schedule (toCall : Device) (fromNow : Int) (type : IntType) (kernel : Kernel)
    : Except Crash Kernel := do
  let machine ← kernel.machine.schedule toCall fromNow type
  return { kernel with machine }

/-- The assertion that interrupts are off. -/
def requireOff (kernel : Kernel) : Except Crash Unit :=
  require (kernel.machine.interrupt.level = .intOff) (.fault .assertion)

def push (t : ThreadId) (frame : Frame) (kernel : Kernel) : Kernel :=
  { kernel with calls := Function.update kernel.calls t (frame :: kernel.calls t) }

/-- The topmost call of the current thread returns. -/
def pop (kernel : Kernel) : Kernel :=
  {
    kernel with
    calls := Function.update kernel.calls kernel.currentThread
      (kernel.calls kernel.currentThread).tail
  }

-----------------------------------------------------------------------------------------
-- Scheduler
-----------------------------------------------------------------------------------------

def lookup (t : ThreadId) (kernel : Kernel) : Except Crash Thread :=
  match kernel.threads t with
  | some thread => .ok thread
  | none => .error (.fault .danglingPointer)

def setStatus (t : ThreadId) (status : ThreadStatus) (kernel : Kernel)
    : Except Crash Kernel := do
  let thread ← kernel.lookup t
  return {
    kernel with threads := Function.update kernel.threads t (some { thread with status })
  }

def readyToRun (t : ThreadId) (kernel : Kernel) : Except Crash Kernel := do
  kernel.requireOff
  let ready ← kernel.setStatus t .ready
  require (t ∉ ready.readyList) (.fault .assertion)
  return { ready with readyList := ready.readyList ++ [t] }

def findNextToRun (kernel : Kernel) : Except Crash (Option ThreadId × Kernel) := do
  kernel.requireOff
  match kernel.readyList with
  | [] => return (none, kernel)
  | nextThread :: readyList => return (some nextThread, { kernel with readyList })

/-- `Run` up to SWITCH, after which the stack of the next thread goes on. -/
def run (nextThread : ThreadId) (finishing : Bool) (kernel : Kernel)
    : Except Crash Kernel := do
  kernel.requireOff
  require (finishing = true → kernel.toBeDestroyed = none) (.fault .assertion)
  let toBeDestroyed := if finishing then some kernel.currentThread else kernel.toBeDestroyed
  let left := { kernel.push kernel.currentThread .run with toBeDestroyed }
  let dispatched ← left.setStatus nextThread .running
  return { dispatched with currentThread := nextThread, control := .thread }

/-- `delete toBeDestroyed` with the destructor of the thread. -/
def checkToBeDestroyed (kernel : Kernel) : Except Crash Kernel := do
  match kernel.toBeDestroyed with
  | none => return kernel
  | some t =>
      let _ ← kernel.lookup t
      require (t ≠ kernel.currentThread) (.fault .assertion)
      return {
        kernel with
        threads := Function.update kernel.threads t none
        calls := Function.update kernel.calls t []
        toBeDestroyed := none
      }

-----------------------------------------------------------------------------------------
-- Threads
-----------------------------------------------------------------------------------------

/-- `new Thread`, at a free address. -/
def construct (t : ThreadId) (kernel : Kernel) : Kernel :=
  {
    kernel with
    threads := Function.update kernel.threads t
      (some { status := .justCreated, finished := false })
    calls := Function.update kernel.calls t []
  }

def fork (t : ThreadId) (kernel : Kernel) : Except Crash Kernel := do
  let allocated := { kernel with calls := Function.update kernel.calls t [.begin] }
  let off ← allocated.setLevel .intOff
  let ready ← off.readyToRun t
  ready.setLevel allocated.machine.interrupt.level

def yield (kernel : Kernel) : Except Crash Kernel := do
  let oldLevel := kernel.machine.interrupt.level
  let off ← kernel.setLevel .intOff
  let (nextThread, found) ← off.findNextToRun
  match nextThread with
  | none => found.setLevel oldLevel
  | some nextThread =>
      let ready ← found.readyToRun found.currentThread
      (ready.push ready.currentThread (.yield oldLevel)).run nextThread false

/-- `Sleep` up to its loop. -/
def sleep (finishing : Bool) (kernel : Kernel) : Except Crash Kernel := do
  kernel.requireOff
  let blocked ← kernel.setStatus kernel.currentThread .blocked
  return { blocked with control := .sleep finishing }

def prepareToEnd (kernel : Kernel) : Kernel :=
  { kernel with timer.disable := true, consoleInput.disabled := true }

/-- `Idle` up to the first handler. -/
def idle (finishing : Bool) (kernel : Kernel) : Kernel :=
  { kernel with machine.interrupt.status := .idleMode, control := .idle finishing }

/-- One turn of the loop of `Sleep`, up to the handlers that `Idle` calls. -/
def findNext (finishing : Bool) (kernel : Kernel) : Except Crash Kernel := do
  let (nextThread, found) ← kernel.findNextToRun
  match nextThread with
  | none => return found.prepareToEnd.idle finishing
  | some nextThread => found.run nextThread finishing

/-- The current thread has finished, for reference only. -/
def markFinished (thread : Thread) (kernel : Kernel) : Kernel :=
  {
    kernel with
    threads := Function.update kernel.threads kernel.currentThread
      (some { thread with finished := true })
  }

def finish (kernel : Kernel) : Except Crash Kernel := do
  let off ← kernel.setLevel .intOff
  let thread ← off.lookup off.currentThread
  (off.markFinished thread).sleep true

def halt (kernel : Kernel) : Kernel := { kernel with control := .halted }

-----------------------------------------------------------------------------------------
-- Semaphores
-----------------------------------------------------------------------------------------

def findSemaphore (s : SemaphoreId) (kernel : Kernel) : Except Crash Semaphore :=
  match kernel.semaphores s with
  | some semaphore => .ok semaphore
  | none => .error (.fault .danglingPointer)

def store (s : SemaphoreId) (semaphore : Semaphore) (kernel : Kernel) : Kernel :=
  { kernel with semaphores := Function.update kernel.semaphores s (some semaphore) }

/-- The loop of `P`, and what follows it. -/
def wait (s : SemaphoreId) (oldLevel : IntStatus) (kernel : Kernel)
    : Except Crash Kernel := do
  let semaphore ← kernel.findSemaphore s
  if semaphore.value = 0 then do
    require (kernel.currentThread ∉ semaphore.queue) (.fault .assertion)
    let queue := semaphore.queue ++ [kernel.currentThread]
    ((kernel.store s { semaphore with queue }).push kernel.currentThread (.p s oldLevel)).sleep
      false
  else (kernel.store s { semaphore with value := semaphore.value - 1 }).setLevel oldLevel

def p (s : SemaphoreId) (kernel : Kernel) : Except Crash Kernel := do
  let off ← kernel.setLevel .intOff
  off.wait s kernel.machine.interrupt.level

def v (s : SemaphoreId) (kernel : Kernel) : Except Crash Kernel := do
  let oldLevel := kernel.machine.interrupt.level
  let off ← kernel.setLevel .intOff
  let semaphore ← off.findSemaphore s
  let value := semaphore.value + 1
  match semaphore.queue with
  | [] => (off.store s { semaphore with value }).setLevel oldLevel
  | t :: queue =>
      let ready ← (off.store s { semaphore with queue }).readyToRun t
      (ready.store s { value, queue }).setLevel oldLevel

-----------------------------------------------------------------------------------------
-- Devices
-----------------------------------------------------------------------------------------

def timerTicks : Int := 100

def consoleTime : Int := 100

/-- The `EOF` of the C library. -/
def eof : Int := -1

/-- The semaphores on which `SynchDisk` and the consoles wait for their devices. -/
def diskSemaphore : SemaphoreId := 0
def consoleInputSemaphore : SemaphoreId := 1
def consoleOutputSemaphore : SemaphoreId := 2

/-- `Timer::SetInterrupt`, with the number that it may draw. -/
def setInterrupt (random : Nat) (kernel : Kernel) : Except Crash Kernel :=
  if kernel.timer.disable then .ok kernel
  else
    let delay :=
      if kernel.timer.randomize then 1 + (random : Int) % (timerTicks * 2) else timerTicks
    kernel.schedule .timer delay .timerInt

/-- `Alarm::CallBack`. -/
def alarm (kernel : Kernel) : Except Crash Kernel :=
  if kernel.machine.interrupt.status ≠ .idleMode then do
    require (kernel.machine.interrupt.inHandler = true) (.fault .assertion)
    return { kernel with machine.interrupt.yieldOnReturn := true }
  else .ok kernel

/-- `Disk::ReadRequest` and `WriteRequest`, which take as long as the disk needs. -/
def requestDisk (ticks : Int) (kernel : Kernel) : Except Crash Kernel := do
  require (kernel.active = false) (.fault .assertion)
  { kernel with active := true }.schedule .disk ticks .diskInt

/-- `ConsoleInput::GetChar`. -/
def getChar (kernel : Kernel) : Except Crash Kernel := do
  let polling ←
    if kernel.consoleInput.incoming ≠ eof then
      kernel.schedule .consoleInput consoleTime .consoleReadInt
    else .ok kernel
  return { polling with consoleInput.incoming := eof }

/-- `ConsoleOutput::PutChar`. -/
def putChar (kernel : Kernel) : Except Crash Kernel := do
  require (kernel.putBusy = false) (.fault .assertion)
  { kernel with putBusy := true }.schedule .consoleOutput consoleTime .consoleWriteInt

/-- `ConsoleInput::CallBack`. -/
def consoleInputCallBack (polled : Polled) (kernel : Kernel) : Except Crash Kernel := do
  require (kernel.consoleInput.incoming = eof) (.fault .assertion)
  if kernel.consoleInput.disabled then return kernel
  else
    match polled with
    | .nothing => kernel.schedule .consoleInput consoleTime .consoleReadInt
    | .endOfFile => kernel.v consoleInputSemaphore
    | .char c => v consoleInputSemaphore { kernel with consoleInput.incoming := c }

/-- The `CallBack` of a device. -/
def callBack (random : Nat) (polled : Polled) (kernel : Kernel)
    : Device → Except Crash Kernel
  | .timer => do
      let asked ← kernel.alarm
      asked.setInterrupt random
  | .disk => { kernel with active := false }.v diskSemaphore
  | .consoleInput => kernel.consoleInputCallBack polled
  | .consoleOutput => { kernel with putBusy := false }.v consoleOutputSemaphore

-----------------------------------------------------------------------------------------
-- Handlers
-----------------------------------------------------------------------------------------

/-- `CheckIfDue` takes an interrupt off the list. -/
def deliver (kernel : Kernel) : Except Crash Kernel :=
  match kernel.machine.pending.front? with
  | none => .error (.fault .assertion)
  | some next =>
      let pulled := (kernel.machine.advanceTo next.when).pulled next
      .ok {
        kernel with
        machine := { pulled with interrupt.inHandler := true }
        handling := some next.callOnInterrupt
      }

/-- The handler runs. -/
def handle (random : Nat) (polled : Polled) (kernel : Kernel) : Except Crash Kernel :=
  match kernel.handling with
  | none => .error (.fault .assertion)
  | some device => do
      let called ← kernel.callBack random polled device
      return { called with handling := none }

/-- The rest of `OneTick` after the last handler. -/
def tickHandled (kernel : Kernel) : Except Crash Kernel :=
  let handled :=
    {
      kernel with
      machine.interrupt.inHandler := false
      machine.interrupt.level := .intOn
      control := .thread
    }
  if handled.machine.interrupt.yieldOnReturn then
    let oldStatus := handled.machine.interrupt.status
    let asked :=
      {
        handled with
        machine.interrupt.yieldOnReturn := false
        machine.interrupt.status := .systemMode
      }
    (asked.push asked.currentThread (.oneTick oldStatus)).yield
  else .ok handled

/-- The rest of `Idle` after the last handler. It halts the machine if there was none. -/
def idleHandled (finishing : Bool) (kernel : Kernel) : Kernel :=
  if kernel.machine.interrupt.inHandler then
    {
      kernel with
      machine.interrupt.inHandler := false
      machine.interrupt.status := .systemMode
      control := .sleep finishing
    }
  else kernel.halt

-----------------------------------------------------------------------------------------
-- Returning
-----------------------------------------------------------------------------------------

/-- The topmost call of the current thread goes on. -/
def resume (kernel : Kernel) : Except Crash Kernel :=
  match kernel.calls kernel.currentThread with
  | [] => .ok kernel
  | .begin :: _ => do
      let checked ← kernel.pop.checkToBeDestroyed
      checked.setLevel .intOn
  | .run :: _ => do
      kernel.requireOff
      kernel.pop.checkToBeDestroyed
  | .yield oldLevel :: _ => kernel.pop.setLevel oldLevel
  | .p s oldLevel :: _ => kernel.pop.wait s oldLevel
  | .oneTick oldStatus :: _ =>
      .ok { kernel.pop with machine.interrupt.status := oldStatus }

-----------------------------------------------------------------------------------------
-- Steps
-----------------------------------------------------------------------------------------

/-- What the current thread's own code calls. -/
inductive Call where
  | construct (t : ThreadId)
  | fork (t : ThreadId)
  | yield
  | finish
  | semaphore (s : SemaphoreId) (initialValue : Int)
  | p (s : SemaphoreId)
  | v (s : SemaphoreId)
  | setLevel (now : IntStatus)
  | setStatus (status : MachineStatus)
  | oneTick
  | requestDisk (ticks : Int)
  | getChar
  | putChar
  | halt

inductive Action where
  | call (call : Call)
  | resume
  | deliver
  | handle (random : Nat) (polled : Polled)
  /-- No further handler is due. -/
  | handled
  /-- `Sleep` looks for a thread. -/
  | findNext

/-- New objects are new, and only new threads are forked. -/
def Admissible (kernel : Kernel) : Call → Prop
  | .construct t => kernel.threads t = none
  | .fork t => kernel.threads t = some { status := .justCreated, finished := false }
  | .semaphore s _ => kernel.semaphores s = none
  | .setStatus status => status ≠ .idleMode
  | _ => True

/-- Whether `CheckIfDue` calls a handler next. `Idle` waits for the first one. -/
def handlerDue (kernel : Kernel) : Bool :=
  match kernel.control with
  | .tick => kernel.machine.isDue
  | .idle _ =>
      if kernel.machine.interrupt.inHandler then kernel.machine.isDue
      else kernel.machine.pending.front?.isSome
  | _ => false

/-- `CheckIfDue` is between two handlers, or before the first or after the last one. -/
def Checking (kernel : Kernel) : Prop :=
  kernel.handling = none
  ∧ (kernel.control = .tick ∨ kernel.control = .idle false ∨ kernel.control = .idle true)

/-- The actions that may come next. -/
def Legal (kernel : Kernel) : Action → Prop
  | .call call =>
      kernel.control = .thread ∧ kernel.calls kernel.currentThread = []
      ∧ kernel.Admissible call
  | .resume => kernel.control = .thread ∧ kernel.calls kernel.currentThread ≠ []
  | .deliver => kernel.Checking ∧ kernel.handlerDue = true
  | .handle _ _ => kernel.handling ≠ none
  | .handled => kernel.Checking ∧ kernel.handlerDue = false
  | .findNext => kernel.control = .sleep false ∨ kernel.control = .sleep true

def perform (action : Action) (kernel : Kernel) : Except Crash Kernel :=
  match action with
  | .call (.construct t) => .ok (kernel.construct t)
  | .call (.fork t) => kernel.fork t
  | .call .yield => kernel.yield
  | .call .finish => kernel.finish
  | .call (.semaphore s initialValue) =>
      .ok (kernel.store s { value := initialValue, queue := [] })
  | .call (.p s) => kernel.p s
  | .call (.v s) => kernel.v s
  | .call (.setLevel now) => kernel.setLevel now
  | .call (.setStatus status) => .ok { kernel with machine.interrupt.status := status }
  | .call .oneTick => kernel.oneTick
  | .call (.requestDisk ticks) => kernel.requestDisk ticks
  | .call .getChar => kernel.getChar
  | .call .putChar => kernel.putChar
  | .call .halt => .ok kernel.halt
  | .resume => kernel.resume
  | .deliver => kernel.deliver
  | .handle random polled => kernel.handle random polled
  | .handled =>
      match kernel.control with
      | .idle finishing => .ok (kernel.idleHandled finishing)
      | _ => kernel.tickHandled
  | .findNext => kernel.findNext (kernel.control = .sleep true)

/-- A step by a legal action that returns. -/
def Step (kernel : Kernel) (action : Action) (after : Kernel) : Prop :=
  kernel.Legal action ∧ kernel.perform action = .ok after

/-- `Initialize` up to the alarm: the main thread runs, and the locks of the disk and of the
consoles, which are made soon, are free.
-/
def booted (main : ThreadId) (randomize : Bool) : Kernel :=
  {
    machine := Simulation.initial ()
    threads := Function.update (fun _ => none) main
      (some { status := .running, finished := false })
    readyList := []
    toBeDestroyed := none
    currentThread := main
    semaphores := fun s =>
      if s < 3 then some { value := 0, queue := [] }
      else if s < 6 then some { value := 1, queue := [] }
      else none
    calls := fun _ => []
    timer := { randomize, disable := false }
    active := false
    consoleInput := { incoming := eof, disabled := false }
    putBusy := false
    control := .thread
    handling := none
  }

/-- `Initialize` up to the file system: the timer and the keyboard have scheduled their first
interrupts.
-/
def initial (main : ThreadId) (randomize : Bool) (random : Nat) : Except Crash Kernel := do
  let ticking ← (booted main randomize).setInterrupt random
  ticking.schedule .consoleInput consoleTime .consoleReadInt

end Kernel

end Nachos.Threads.Mp4
