import Nachos.UserProg.FrameReturn
import Nachos.UserProg.Mp2.Programs

/-! Programs of the second kernel that share the processor and the memory. Threads are switched at
any time and in any order; `Scheduler::Run` saves the registers of the thread that it leaves, and
restores those of a thread that it comes back to.
-/

namespace Nachos.UserProg.Mp2
open Bytes Mips Routines
open Nachos.Threads (ThreadId)

-----------------------------------------------------------------------------------------
-- The kernel
-----------------------------------------------------------------------------------------

/-- How far a thread is with its program. -/
inductive Stage where
  | new
  | loaded
  | program (trapped : Bool)
  deriving DecidableEq

/-- The registers and the memory of the machine, and what the kernel keeps for each thread.
A thread is suspended when it is behind the SWITCH of `Run`.
-/
structure TimeSharing where
  registers : Register → BitVec 32
  memory : Memory
  /-- The thread whose page table the machine points to. -/
  pageTable : Option ThreadId
  currentThread : ThreadId
  userRegisters : ThreadId → Register → BitVec 32
  space : ThreadId → Option AddrSpace
  stage : ThreadId → Stage
  suspended : ThreadId → Bool

inductive TimeSharing.Action where
  /-- `Scheduler::Run` as far as SWITCH. -/
  | run (nextThread : ThreadId)
  /-- `Scheduler::Run` after SWITCH. -/
  | resume
  /-- `Kernel::Exec` makes an address space for a new thread. -/
  | exec (t : ThreadId)
  /-- `ForkExecute` loads the program. -/
  | load
  /-- `AddrSpace::Execute` as far as `Machine::Run`. -/
  | execute
  | event (t : ThreadId) (event : Event)
  /-- `CheckToBeDestroyed` deletes a thread. -/
  | delete (t : ThreadId)

namespace TimeSharing

/-- The main thread runs, and all frames are free. -/
def initial (main : ThreadId) (registers : Register → BitVec 32) (mainMemory : Buffer)
    : TimeSharing :=
  {
    registers
    memory := { frames := .new numPhysPages, mainMemory }
    pageTable := none
    currentThread := main
    userRegisters := fun _ => registers
    space := fun _ => none
    stage := fun _ => .new
    suspended := fun _ => false
  }

/-- `SaveUserState`, for a thread with an address space. `SaveState` does nothing. -/
def saveUserState (state : TimeSharing) : ThreadId → Register → BitVec 32 :=
  if (state.space state.currentThread).isSome then
    Function.update state.userRegisters state.currentThread state.registers
  else state.userRegisters

/-- `AddrSpace::RestoreState`: where the machine points to afterwards. -/
def restoreState (t : ThreadId) (space : AddrSpace) : Option ThreadId :=
  if space.pageTable = .null then none else some t

/-- `RestoreUserState` and `RestoreState`, for a thread with an address space. -/
def restored (state : TimeSharing) : TimeSharing :=
  let back :=
    { state with suspended := Function.update state.suspended state.currentThread false }
  match state.space state.currentThread with
  | none => back
  | some space =>
      {
        back with
        registers := state.userRegisters state.currentThread
        pageTable := restoreState state.currentThread space
      }

/-- What the program of the current thread is in the machine. -/
def running (state : TimeSharing) (table : List TranslationEntry) (trapped : Bool) : Program :=
  {
    machine := {
      registers := state.registers
      mainMemory := state.memory.mainMemory
      pageTable := table
    }
    trapped
  }

/-- The kernel after an event of the program, with the page table of `owner`. -/
def ran (state : TimeSharing) (owner : ThreadId) (numPages : Nat) (after : Program)
    : TimeSharing :=
  {
    state with
    registers := after.machine.registers
    memory := { state.memory with mainMemory := after.machine.mainMemory }
    space :=
      Function.update state.space owner
        (some { pageTable := .entries after.machine.pageTable, numPages })
    stage := Function.update state.stage state.currentThread (.program after.trapped)
  }

/-- The kernel at SWITCH. -/
def left (state : TimeSharing) (nextThread : ThreadId) : TimeSharing :=
  {
    state with
    userRegisters := state.saveUserState
    currentThread := nextThread
    suspended := Function.update state.suspended state.currentThread true
  }

/-- A thread gets an address space. -/
def housed (state : TimeSharing) (t : ThreadId) : TimeSharing :=
  { state with space := Function.update state.space t (some .new) }

/-- The kernel after `Load` of the current thread. -/
def filled (state : TimeSharing) (returned : Bool) (space : AddrSpace) (memory : Memory)
    : TimeSharing :=
  {
    state with
    space := Function.update state.space state.currentThread (some space)
    memory
    stage :=
      if returned then Function.update state.stage state.currentThread .loaded else state.stage
  }

/-- `InitRegisters` and `RestoreState`. -/
def started (state : TimeSharing) (space : AddrSpace) : TimeSharing :=
  {
    state with
    registers := initRegisters space.numPages
    pageTable := restoreState state.currentThread space
    stage := Function.update state.stage state.currentThread (.program false)
  }

/-- A thread is deleted. Its address space stays, without a thread that points to it. -/
def deleted (state : TimeSharing) (t : ThreadId) : TimeSharing :=
  {
    state with
    space := Function.update state.space t none
    stage := Function.update state.stage t .new
    suspended := Function.update state.suspended t false
  }

/-- The steps of the kernel. The code of a thread runs when it is current and not suspended. -/
inductive Step : TimeSharing → Action → TimeSharing → Prop where
  | run {state : TimeSharing} {nextThread : ThreadId}
      (runs : state.suspended state.currentThread = false)
      : Step state (.run nextThread) (state.left nextThread)
  | resume {state : TimeSharing} (back : state.suspended state.currentThread = true)
      : Step state .resume state.restored
  | exec {state : TimeSharing} {t : ThreadId}
      (runs : state.suspended state.currentThread = false) (other : t ≠ state.currentThread)
      (unbegun : state.suspended t = false) (null : state.space t = none)
      : Step state (.exec t) (state.housed t)
  | load {state : TimeSharing} {returned : Bool} {space : AddrSpace} {memory : Memory}
      (runs : state.suspended state.currentThread = false)
      (new : state.stage state.currentThread = .new)
      (found : state.space state.currentThread = some .new)
      (loaded : loader state.memory returned space memory)
      : Step state .load (state.filled returned space memory)
  | execute {state : TimeSharing} {space : AddrSpace}
      (runs : state.suspended state.currentThread = false)
      (loaded : state.stage state.currentThread = .loaded)
      (found : state.space state.currentThread = some space)
      : Step state .execute (state.started space)
  | event {state : TimeSharing} {event : Event} {trapped : Bool} {owner : ThreadId}
      {table : List TranslationEntry} {numPages : Nat} {after : Program}
      (runs : state.suspended state.currentThread = false)
      (program : state.stage state.currentThread = .program trapped)
      (points : state.pageTable = some owner)
      (found : state.space owner = some { pageTable := .entries table, numPages })
      (moved : (state.running table trapped).next event = some after)
      : Step state (.event state.currentThread event) (state.ran owner numPages after)
  | delete {state : TimeSharing} {t : ThreadId} (other : t ≠ state.currentThread)
      : Step state (.delete t) (state.deleted t)

-----------------------------------------------------------------------------------------
-- What a thread has
-----------------------------------------------------------------------------------------

/-- The page table of a thread. -/
def table (state : TimeSharing) (t : ThreadId) : List TranslationEntry :=
  (state.space t).elim [] (fun space => space.pageTable.table)

/-- The frames that the address space of a thread maps. -/
def held (state : TimeSharing) (t : ThreadId) : List Int := AddrSpace.validFrames (state.table t)

/-- The program of a thread: its registers are in the machine while it runs, and saved otherwise. -/
def view (state : TimeSharing) (t : ThreadId) : Program :=
  {
    machine := {
      registers :=
        if t = state.currentThread ∧ state.suspended t = false then state.registers
        else state.userRegisters t
      mainMemory := state.memory.mainMemory
      pageTable := state.table t
    }
    trapped := state.stage t = .program true
  }

/-- `SC_Read` of a program gets a buffer in frames of its own. -/
def Confined (state : TimeSharing) (action : Action) : Prop :=
  ∀ t event, action = .event t event → event.Within (state.held t) (state.view t).machine

end TimeSharing

end Nachos.UserProg.Mp2
