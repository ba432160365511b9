import Nachos.Machine.Locality
import Nachos.UserProg.Mp2.AddrSpace

/-! A user program of the second kernel as the machine runs it: its instructions, and what
`ExceptionHandler` does to its registers and memory for a system call that returns.
-/

namespace Nachos.UserProg.Mp2
open Bytes Mips Routines Routine

-----------------------------------------------------------------------------------------
-- System calls
-----------------------------------------------------------------------------------------

/-- The system calls after which the program goes on. -/
inductive CallType where
  | printInt
  | add
  | create
  | open
  | read
  | write
  | close
  deriving DecidableEq

/-- The types by their numbers. The others halt the machine, finish the thread, or are
unexpected.
-/
def callType (type : BitVec 32) : Option CallType :=
  if type = 16#32 then some .printInt
  else if type = 42#32 then some .add
  else if type = 4#32 then some .create
  else if type = 6#32 then some .open
  else if type = 7#32 then some .read
  else if type = 8#32 then some .write
  else if type = 10#32 then some .close
  else none

/-- What the rest of the kernel gives for a system call: what it returns, and the bytes that it
puts at `&mainMemory[val]`.
-/
structure Answer where
  status : BitVec 32
  data : List Byte

/-- Set the program counters after a system call. -/
def setProgramCounter (machine : Machine) : Machine :=
  let previous := machine.set prevPCReg (machine.registers pcReg)
  let next := previous.set pcReg (previous.registers pcReg + 4#32)
  next.set nextPCReg (next.registers pcReg + 4#32)

/-- The register of the first argument and of the second one. -/
def val (machine : Machine) : BitVec 32 := machine.registers (gpr 4#5)

def numChar (machine : Machine) : BitVec 32 := machine.registers (gpr 5#5)

/-- Whether `SC_Read` returns -1 at once. -/
def refusesRead (machine : Machine) : Bool :=
  (val machine).toInt < 0 ∨ (numChar machine).toInt < 0
    ∨ (val machine + numChar machine).toInt > memorySize

/-- The case of a system call in `ExceptionHandler`. -/
def serve (answer : Answer) (machine : Machine) : CallType → Machine
  | .printInt => machine
  | .add => machine.set (gpr 2#5) (val machine + numChar machine)
  | .create | .open | .write | .close => machine.set (gpr 2#5) answer.status
  | .read =>
      if refusesRead machine then machine.set (gpr 2#5) (-1#32)
      else
        {
          machine with
          mainMemory :=
            blit machine.mainMemory (val machine).toNat (ofList answer.data) answer.data.length
        }.set (gpr 2#5) answer.status

/-- `ExceptionHandler` for a system call. -/
def Program.exceptionHandler (answer : Answer) (machine : Machine) : Option Machine :=
  (callType (machine.registers (gpr 2#5))).map (fun type =>
    setProgramCounter (serve answer machine type))

-----------------------------------------------------------------------------------------
-- Programs
-----------------------------------------------------------------------------------------

/-- The machine as a program sees it, and whether it is in the exception handler. -/
structure Program where
  machine : Machine
  trapped : Bool

/-- `AddrSpace::InitRegisters`. -/
def initRegisters (numPages : Nat) : Register → BitVec 32 :=
  let zero : Register → BitVec 32 := fun _ => 0#32
  let atStart := Function.update (Function.update zero pcReg 0#32) nextPCReg 4#32
  Function.update atStart (gpr 29#5) (BitVec.ofNat 32 (numPages * pageSize) - 16#32)

/-- What happens to a program that goes on. -/
inductive Event where
  | instruction
  | call (answer : Answer)

/-- How a program goes on after `OneInstruction`. All exceptions but system calls are unexpected
and stop the kernel.
-/
def goesOn : Except Halt Unit → Option Bool
  | .ok () => some false
  | .error (.raised .syscall) => some true
  | .error _ => none

/-- The program after an event. -/
def Program.next (program : Program) : Event → Option Program
  | .instruction =>
      if program.trapped then none
      else
        let (outcome, machine) := oneInstruction.run program.machine
        (goesOn outcome).map (fun trapped => { machine, trapped })
  | .call answer =>
      if program.trapped then
        (exceptionHandler answer program.machine).map (fun machine => { machine, trapped := false })
      else none

/-- The bytes that a system call puts into memory are in some frames. -/
def Event.Within (frames : List Int) (machine : Machine) : Event → Prop
  | .instruction => True
  | .call answer =>
      callType (machine.registers (gpr 2#5)) = some .read
        → refusesRead machine = false
        → ∀ i < answer.data.length, Reaches frames ((val machine).toNat + i)

-----------------------------------------------------------------------------------------
-- Programs side by side
-----------------------------------------------------------------------------------------

section Related

variable {related : Machine → Machine → Prop} {left right : Machine} {program other : Program}
  {answer : Answer}

/-- Machines that are related, in the same place of the kernel. -/
structure Program.Related (related : Machine → Machine → Prop) (program other : Program) : Prop
    where
  machine : related program.machine other.machine
  trapped : program.trapped = other.trapped

/-- The bytes of an answer are stored in `&mainMemory[val]`. -/
def withData (answer : Answer) (machine : Machine) : Machine :=
  {
    machine with
    mainMemory :=
      blit machine.mainMemory (val machine).toNat (ofList answer.data) answer.data.length
  }

theorem related_setProgramCounter (uniform : Uniform related) (both : related left right)
    : related (setProgramCounter left) (setProgramCounter right) := by
  have previous := uniform.update both prevPCReg (fun registers => registers pcReg)
  have next := uniform.update previous pcReg (fun registers => registers pcReg + 4#32)
  exact uniform.update next nextPCReg (fun registers => registers pcReg + 4#32)

/-- A system call serves related machines alike, by cases on it: the answer goes into registers,
and only `Read` stores bytes.
-/
theorem related_serve (uniform : Uniform related) (both : related left right) (type : CallType)
    (stored
      : type = .read → refusesRead left = false
        → related (withData answer left) (withData answer right))
    : related (serve answer left type) (serve answer right type) := by
  have same := uniform.registers both
  have first : val left = val right := congrFun same _
  have second : numChar left = numChar right := congrFun same _
  have refuses : refusesRead left = refusesRead right := by
    rw [refusesRead, refusesRead, first, second]
  cases type with
  | printInt => exact both
  | add =>
      rw [serve, serve, first, second]
      exact uniform.set both _ _
  | create => exact uniform.set both _ _
  | «open» => exact uniform.set both _ _
  | write => exact uniform.set both _ _
  | close => exact uniform.set both _ _
  | read =>
      rw [serve, serve, ← refuses]
      cases refused : refusesRead left with
      | true => exact uniform.set both _ _
      | false => exact uniform.set (stored rfl refused) _ _

/-- An event has the same effect on programs whose machines are related. -/
theorem related_next (accessible : Accessible related) (both : program.Related related other)
    (event : Event)
    (stored
      : ∀ answer, event = .call answer
        → callType (program.machine.registers (gpr 2#5)) = some .read
        → refusesRead program.machine = false
        → related (withData answer program.machine) (withData answer other.machine))
    : Option.Rel (Program.Related related) (program.next event) (other.next event) := by
  cases event with
  | instruction =>
      rw [Program.next, Program.next, ← both.trapped]
      split
      · exact .none
      · have pair := accessible.respects_oneInstruction _ _ both.machine
        cases here : oneInstruction.run program.machine with
        | mk outcome machine =>
            cases there : oneInstruction.run other.machine with
            | mk outcome' machine' =>
                rw [here, there] at pair
                obtain ⟨same, after⟩ := pair
                cases same
                dsimp only
                cases goesOn outcome with
                | none => exact .none
                | some trapped => exact .some ⟨after, rfl⟩
  | call answer =>
      have type : program.machine.registers (gpr 2#5) = other.machine.registers (gpr 2#5) :=
        congrFun (accessible.registers both.machine) _
      rw [Program.next, Program.next, ← both.trapped, Program.exceptionHandler,
        Program.exceptionHandler, ← type]
      split
      · cases known : callType (program.machine.registers (gpr 2#5)) with
        | none => exact .none
        | some type =>
            refine .some ⟨related_setProgramCounter accessible.toUniform ?_, rfl⟩
            refine related_serve accessible.toUniform both.machine type ?_
            rintro rfl
            exact stored answer rfl known
      · exact .none

end Related

-----------------------------------------------------------------------------------------
-- Programs that differ outside their frames
-----------------------------------------------------------------------------------------

variable {frames : List Int} {rest : Buffer} {program other after : Program} {event : Event}

/-- An event does the same to two programs that are alike. -/
theorem alike_next (both : program.Related (Alike frames rest) other)
    (within : event.Within frames program.machine) (moved : program.next event = some after)
    : ∃ final, other.next event = some final ∧ after.Related (Alike frames rest) final := by
  have pair := related_next accessible_alike both event (by
    rintro answer rfl known accepted
    have same : val program.machine = val other.machine := congrFun both.machine.registers _
    rw [withData, withData, ← same]
    exact both.machine.blit (ofList answer.data) (within known accepted))
  rw [moved] at pair
  cases there : other.next event with
  | none =>
      rw [there] at pair
      cases pair
  | some final =>
      rw [there] at pair
      exact ⟨final, rfl, Option.rel_some_some.mp pair⟩

/-- Every program is like itself. -/
theorem Program.alike_refl (program : Program)
    : program.Related
        (Alike (AddrSpace.validFrames program.machine.pageTable) program.machine.mainMemory)
        program :=
  ⟨⟨rfl, rfl, rfl, fun _ _ => rfl, fun _ _ => rfl⟩, rfl⟩

/-- The frames that the page table maps stay the same. -/
theorem frames_next (moved : program.next event = some after)
    : AddrSpace.validFrames after.machine.pageTable
      = AddrSpace.validFrames program.machine.pageTable := by
  cases event with
  | instruction =>
      have within : Event.instruction.Within (AddrSpace.validFrames program.machine.pageTable)
          program.machine :=
        trivial
      obtain ⟨_, _, both⟩ := alike_next program.alike_refl within moved
      exact both.machine.maps
  | call answer =>
      have served (type : CallType)
          : (serve answer program.machine type).pageTable = program.machine.pageTable := by
        cases type
        case read =>
          rw [serve]
          split <;> rfl
        all_goals rfl
      rw [Program.next] at moved
      split at moved
      · obtain ⟨machine, handled, rfl⟩ := Option.map_eq_some_iff.mp moved
        obtain ⟨type, _, rfl⟩ := Option.map_eq_some_iff.mp handled
        exact congrArg AddrSpace.validFrames (served type)
      · cases moved

/-- Memory outside the frames that the page table maps stays as it was. -/
theorem mainMemory_next
    (within : event.Within (AddrSpace.validFrames program.machine.pageTable) program.machine)
    (moved : program.next event = some after) {address : Nat}
    (outside : ¬Reaches (AddrSpace.validFrames program.machine.pageTable) address)
    : after.machine.mainMemory address = program.machine.mainMemory address := by
  obtain ⟨_, _, both⟩ := alike_next program.alike_refl within moved
  exact both.machine.outside address outside

end Nachos.UserProg.Mp2
