import Nachos.Lib.SideBySide
import Nachos.Machine.UnalignedWords

/-! Loads end one instruction late, or early when there is an exception or an interrupt. A program
can only tell when an instruction uses the register that the instruction before it loads.
-/

namespace Nachos.Mips
open Bytes UserProg Routines Routine

-----------------------------------------------------------------------------------------
-- Pending loads
-----------------------------------------------------------------------------------------

/-- The numbers of the registers that an instruction reads or writes before its end. A load writes
its register later, and a partial load takes a pending value as it is.
-/
def Instruction.uses (instr : Instruction) : List (BitVec 5) :=
  match instr.opCode with
  | .add | .addu | .and | .nor | .or | .sllv | .slt | .sltu | .srav | .srlv | .sub | .subu
  | .xor => [instr.rs, instr.rt, instr.rd]
  | .sll | .sra | .srl => [instr.rt, instr.rd]
  | .addi | .addiu | .andi | .ori | .slti | .sltiu | .xori => [instr.rs, instr.rt]
  | .div | .divu | .mult | .multu | .beq | .bne | .sb | .sh | .sw | .swl | .swr =>
      [instr.rs, instr.rt]
  | .mthi | .mtlo | .bgez | .bgtz | .blez | .bltz | .jr => [instr.rs]
  | .lb | .lbu | .lh | .lhu | .lw | .lwl | .lwr => [instr.rs]
  | .lui => [instr.rt]
  | .mfhi | .mflo => [instr.rd]
  | .bgezal | .bltzal => [instr.rs, 31#5]
  | .jalr => [instr.rs, instr.rd]
  | .jal => [31#5]
  | .j | .syscall | .res | .unimp | .special | .bcond => []

/-- The register that the pending load is for; register 0 when there is none. -/
def Machine.pending (machine : Machine) : BitVec 5 := (machine.registers loadReg).setWidth 5

/-- What a register holds once the pending load is finished. -/
def Machine.arriving (machine : Machine) (number : BitVec 5) : BitVec 32 :=
  if number = machine.pending then machine.registers loadValueReg
  else machine.registers (gpr number)

/-- A register that no load and no exception goes through. -/
def Plain (register : Register) : Prop :=
  32 ≤ register.val ∧ register ≠ loadReg ∧ register ≠ loadValueReg

instance (register : Register) : Decidable (Plain register) :=
  inferInstanceAs (Decidable (_ ∧ _ ∧ _))

/-- Two machines that are the same once their pending loads are finished. -/
structure Agree (left right : Machine) : Prop where
  pending
    : left.registers loadReg = left.pending.setWidth 32
      ∧ right.registers loadReg = right.pending.setWidth 32
  zero : left.registers (gpr 0#5) = right.registers (gpr 0#5)
  arriving : ∀ number ≠ 0#5, left.arriving number = right.arriving number
  plain : ∀ register, Plain register → left.registers register = right.registers register
  mainMemory : left.mainMemory = right.mainMemory
  pageTable : left.pageTable = right.pageTable

/-- Neither machine is about to load a register that is used. -/
structure Apart (used : List (BitVec 5)) (left right : Machine) : Prop extends
    Agree left right where
  left : ∀ number ∈ used, number ≠ 0#5 → number ≠ left.pending
  right : ∀ number ∈ used, number ≠ 0#5 → number ≠ right.pending

variable {left right machine : Machine} {used : List (BitVec 5)} {number : BitVec 5}
  {register : Register} {instr : Instruction} {pcAfter : BitVec 32}

theorem Agree.refl (pending : machine.registers loadReg = machine.pending.setWidth 32)
    : Agree machine machine :=
  ⟨⟨pending, pending⟩, rfl, fun _ _ => rfl, fun _ _ => rfl, rfl, rfl⟩

/-- Agreement does not depend on the order of the machines. -/
theorem Agree.symm (both : Agree left right) : Agree right left :=
  {
    pending := both.pending.symm
    zero := both.zero.symm
    arriving := fun number other => (both.arriving number other).symm
    plain := fun register plain => (both.plain register plain).symm
    mainMemory := both.mainMemory.symm
    pageTable := both.pageTable.symm
  }

/-- Agreement composes, field by field. -/
theorem Agree.trans {middle : Machine} (one : Agree left middle) (other : Agree middle right)
    : Agree left right :=
  {
    pending := ⟨one.pending.1, other.pending.2⟩
    zero := one.zero.trans other.zero
    arriving := fun number apart => (one.arriving number apart).trans (other.arriving number apart)
    plain := fun register plain => (one.plain register plain).trans (other.plain register plain)
    mainMemory := one.mainMemory.trans other.mainMemory
    pageTable := one.pageTable.trans other.pageTable
  }

/-- Where no register is used no load stands in the way. -/
theorem Agree.apart (both : Agree left right) : Apart [] left right :=
  ⟨both, fun _ uses => absurd uses List.not_mem_nil, fun _ uses => absurd uses List.not_mem_nil⟩

/-- Registers that are used hold the same. -/
theorem Apart.registers_gpr (both : Apart used left right) (uses : number ∈ used)
    : left.registers (gpr number) = right.registers (gpr number) := by
  by_cases first : number = 0#5
  · rw [first]
    exact both.zero
  · have same := both.arriving number first
    rwa [Machine.arriving, Machine.arriving, if_neg (both.left number uses first),
      if_neg (both.right number uses first)] at same

theorem pending_set (other : register ≠ loadReg) (value : BitVec 32)
    : (machine.set register value).pending = machine.pending := by
  rw [Machine.pending, Machine.pending, registers_set_of_ne other.symm]

/-- A register that is not general purpose has no part in what arrives. -/
theorem arriving_set_plain (plain : Plain register) (value : BitVec 32) (number : BitVec 5)
    : (machine.set register value).arriving number = machine.arriving number := by
  rw [Machine.arriving, Machine.arriving, pending_set plain.2.1,
    registers_set_of_ne plain.2.2.symm, registers_set_special_gpr plain.1]

/-- A plain register that is set in both keeps them in agreement, by cases on the register asked
about.
-/
theorem Agree.set_plain (both : Agree left right) (plain : Plain register) (value : BitVec 32)
    : Agree (left.set register value) (right.set register value) where
  pending := by
    rw [pending_set plain.2.1, pending_set plain.2.1, registers_set_of_ne plain.2.1.symm,
      registers_set_of_ne plain.2.1.symm]
    exact both.pending
  zero := by
    rw [registers_set_special_gpr plain.1, registers_set_special_gpr plain.1]
    exact both.zero
  arriving number other := by
    rw [arriving_set_plain plain, arriving_set_plain plain]
    exact both.arriving number other
  plain other special := by
    by_cases same : other = register
    · rw [same, registers_set_self, registers_set_self]
    · rw [registers_set_of_ne same, registers_set_of_ne same]
      exact both.plain other special
  mainMemory := both.mainMemory
  pageTable := both.pageTable

/-- It keeps them apart too, since no load is for a plain register. -/
theorem Apart.set_plain (both : Apart used left right) (plain : Plain register)
    (value : BitVec 32)
    : Apart used (left.set register value) (right.set register value) where
  toAgree := both.toAgree.set_plain plain value
  left number uses other := by
    rw [pending_set plain.2.1]
    exact both.left number uses other
  right number uses other := by
    rw [pending_set plain.2.1]
    exact both.right number uses other

theorem gpr_ne_loadReg (number : BitVec 5) : gpr number ≠ loadReg := gpr_ne (by decide) number

theorem gpr_ne_loadValueReg (number : BitVec 5) : gpr number ≠ loadValueReg :=
  gpr_ne (by decide) number

/-- A result that is not for the register of the pending load arrives at once. -/
theorem arriving_set_gpr (apart : number ≠ machine.pending) (value : BitVec 32)
    (other : BitVec 5)
    : (machine.set (gpr number) value).arriving other
      = if other = number then value else machine.arriving other := by
  rw [Machine.arriving, Machine.arriving, pending_set (gpr_ne_loadReg number),
    registers_set_of_ne (gpr_ne_loadValueReg number).symm, registers_set_gpr]
  by_cases same : other = number
  · rw [same, if_neg apart, if_pos rfl, if_pos rfl]
  · rw [if_neg same, if_neg same]

/-- A result for register 0 does not matter. -/
theorem arriving_set_zero {other : BitVec 5} (apart : other ≠ 0#5) (value : BitVec 32)
    : (machine.set (gpr 0#5) value).arriving other = machine.arriving other := by
  rw [Machine.arriving, Machine.arriving, pending_set (gpr_ne_loadReg _),
    registers_set_of_ne (gpr_ne_loadValueReg _).symm, registers_set_gpr, if_neg apart]

/-- A general purpose register that the instruction uses is set in both: the pending loads do not
go over it.
-/
theorem Apart.set_gpr (both : Apart used left right) (uses : number ∈ used) (value : BitVec 32)
    : Apart used (left.set (gpr number) value) (right.set (gpr number) value) where
  pending := by
    rw [pending_set (gpr_ne_loadReg _), pending_set (gpr_ne_loadReg _),
      registers_set_of_ne (gpr_ne_loadReg _).symm, registers_set_of_ne (gpr_ne_loadReg _).symm]
    exact both.pending
  zero := by
    rw [registers_set_gpr, registers_set_gpr, both.zero]
  arriving other apart := by
    by_cases first : number = 0#5
    · rw [first, arriving_set_zero apart, arriving_set_zero apart]
      exact both.arriving other apart
    · rw [arriving_set_gpr (both.left number uses first),
        arriving_set_gpr (both.right number uses first), both.arriving other apart]
  plain register plain := by
    rw [registers_set_gpr_special plain.1, registers_set_gpr_special plain.1]
    exact both.plain register plain
  mainMemory := both.mainMemory
  pageTable := both.pageTable
  left other uses apart := by
    rw [pending_set (gpr_ne_loadReg _)]
    exact both.left other uses apart
  right other uses apart := by
    rw [pending_set (gpr_ne_loadReg _)]
    exact both.right other uses apart

-----------------------------------------------------------------------------------------
-- Ends of instructions
-----------------------------------------------------------------------------------------

theorem pending_loaded (machine : Machine) (pending next : BitVec 5) (value : BitVec 32)
    : (machine.loaded pending (next.setWidth 32) value).pending = next := by
  rw [Machine.pending, (registers_loaded_load ..).1, BitVec.setWidth_setWidth_of_le _ (by decide)]
  exact BitVec.setWidth_eq next

theorem arriving_loaded {number : BitVec 5} (apart : number ≠ 0#5) (machine : Machine)
    (next : BitVec 5) (value : BitVec 32)
    : (machine.loaded machine.pending (next.setWidth 32) value).arriving number
      = if number = next then value else machine.arriving number := by
  rw [Machine.arriving, Machine.arriving, pending_loaded, (registers_loaded_load ..).2,
    registers_loaded_gpr, if_neg apart]

/-- The pending loads are finished, and others are begun. -/
theorem Agree.loaded (both : Agree left right) (next : BitVec 5) {value value' : BitVec 32}
    (same : next ≠ 0#5 → value = value')
    : Agree (left.loaded left.pending (next.setWidth 32) value)
        (right.loaded right.pending (next.setWidth 32) value') where
  pending := by
    rw [pending_loaded, pending_loaded]
    exact ⟨(registers_loaded_load ..).1, (registers_loaded_load ..).1⟩
  zero := by
    rw [registers_loaded_gpr, registers_loaded_gpr, if_pos rfl, if_pos rfl]
  arriving number apart := by
    rw [arriving_loaded apart, arriving_loaded apart, both.arriving number apart]
    by_cases here : number = next
    · rw [if_pos here, if_pos here, same (here ▸ apart)]
    · rw [if_neg here, if_neg here]
  plain register plain := by
    rw [registers_loaded_of_ne plain.1 plain.2, registers_loaded_of_ne plain.1 plain.2]
    exact both.plain register plain
  mainMemory := both.mainMemory
  pageTable := both.pageTable

/-- After an exception no load is pending. -/
theorem Agree.raised (both : Agree left right) (badVAddr : BitVec 32)
    : Apart used ((left.set badVAddrReg badVAddr).loaded left.pending 0#32 0#32)
        ((right.set badVAddrReg badVAddr).loaded right.pending 0#32 0#32) where
  toAgree := by
    have plain : Plain badVAddrReg := by decide
    have noted := both.set_plain plain badVAddr
    have finished := noted.loaded 0#5 (fun _ => (rfl : (0#32) = 0#32))
    rwa [pending_set (by decide), pending_set (by decide)] at finished
  left number _ apart := pending_loaded _ _ 0#5 _ ▸ apart
  right number _ apart := pending_loaded _ _ 0#5 _ ▸ apart

/-- The program counters go on together, since they are plain registers. -/
theorem Agree.advanced (both : Agree left right) (pcAfter : BitVec 32)
    : Agree (left.advanced pcAfter) (right.advanced pcAfter) := by
  rw [Machine.advanced, Machine.advanced, both.plain pcReg (by decide),
    both.plain nextPCReg (by decide)]
  have previous
      : Agree (left.set prevPCReg (right.registers pcReg))
          (right.set prevPCReg (right.registers pcReg)) :=
    both.set_plain (by decide) _
  have moved
      : Agree ((left.set prevPCReg (right.registers pcReg)).set pcReg (right.registers nextPCReg))
          ((right.set prevPCReg (right.registers pcReg)).set pcReg (right.registers nextPCReg)) :=
    previous.set_plain (by decide) _
  exact moved.set_plain (by decide) pcAfter

/-- The end of an instruction; a value for register 0 does not matter. -/
theorem Agree.finish (both : Agree left right) (next : BitVec 5) {value value' : BitVec 32}
    (same : next ≠ 0#5 → value = value') (pcAfter : BitVec 32)
    : Paired Agree ((finish ⟨pcAfter, next.setWidth 32, value⟩).run left)
        ((finish ⟨pcAfter, next.setWidth 32, value'⟩).run right) := by
  rw [run_finish both.pending.1, run_finish both.pending.2]
  exact ⟨rfl, (both.loaded next same).advanced pcAfter⟩

-----------------------------------------------------------------------------------------
-- Parts of instructions
-----------------------------------------------------------------------------------------

theorem apart_respects_plain (plain : Plain register) (value : BitVec 32)
    : Respects (Apart used) (writeRegister register value) :=
  respects_get_bind (fun _ _ both => ⟨rfl, both.set_plain plain value⟩)

theorem apart_respects_gpr (uses : number ∈ used) (value : BitVec 32)
    : Respects (Apart used) (writeRegister (gpr number) value) :=
  respects_get_bind (fun _ _ both => ⟨rfl, both.set_gpr uses value⟩)

theorem apart_respects_read (uses : number ∈ used)
    : Respects (Apart used) (readRegister (gpr number)) := by
  refine respects_get_bind (fun left right both => ?_)
  rw [both.registers_gpr uses]
  exact ⟨rfl, both⟩

theorem apart_respects_raise {α : Type} (which : Trap) (badVAddr : BitVec 32)
    : Respects (Apart used) (raiseException which badVAddr : Routine Halt Machine α) := by
  intro left right both
  rw [run_raiseException both.pending.1, run_raiseException both.pending.2]
  exact ⟨rfl, both.raised badVAddr⟩

theorem apart_respects_result (uses : number ∈ used) (value : BitVec 32)
    : Respects (Apart used) (result pcAfter (gpr number) value) :=
  respects_bind (apart_respects_gpr uses value) (fun _ => respects_pure _)

theorem apart_respects_moved (plain : Plain register) (value : BitVec 32)
    : Respects (Apart used) (result pcAfter register value) :=
  respects_bind (apart_respects_plain plain value) (fun _ => respects_pure _)

theorem apart_respects_results (hi lo : BitVec 32)
    : Respects (Apart used) (results pcAfter hi lo) :=
  respects_bind (apart_respects_plain (by decide) lo) (fun _ =>
    respects_bind (apart_respects_plain (by decide) hi) (fun _ => respects_pure _))

/-- A return address that is noted before the register of a jump is read. -/
theorem apart_respects_link {source : BitVec 5} (links : number ∈ used) (uses : source ∈ used)
    (value : BitVec 32) (next : BitVec 32 → Effect)
    : Respects (Apart used) (do
        writeRegister (gpr number) value
        let target ← readRegister (gpr source)
        return next target) :=
  respects_bind (apart_respects_gpr links value) (fun _ =>
    respects_bind (apart_respects_read uses) (fun _ => respects_pure _))

/-- Computing instructions, by cases on them: each writes a register that it uses, `hi` and `lo`,
or raises an exception.
-/
theorem apart_respects_compute (rs rt : BitVec 32) (machine : Machine)
    : Respects (Apart instr.uses) (compute instr pcAfter rs rt machine) := by
  unfold compute divide divideUnsigned
  dsimp only
  split
  case h_12 => exact apart_respects_moved (by decide) rs
  case h_13 => exact apart_respects_moved (by decide) rs
  all_goals
    repeat' apply respects_ite
  all_goals
    first
    | exact apart_respects_result (by simp [Instruction.uses, *]) _
    | exact apart_respects_results _ _
    | exact apart_respects_raise _ _
    | exact respects_throw _

theorem r31_eq : r31 = gpr 31#5 := rfl

/-- Branches, by cases on them: those that link note the return address in a register that they
use.
-/
theorem apart_respects_jump (rs rt nextPC : BitVec 32)
    : Respects (Apart instr.uses) (jump instr pcAfter rs rt nextPC) := by
  unfold jump
  dsimp only
  split
  case h_7 code =>
    rw [r31_eq]
    exact apart_respects_link (by simp [Instruction.uses, code])
      (by simp [Instruction.uses, code]) _ _
  case h_8 code =>
    rw [r31_eq]
    exact apart_respects_link (by simp [Instruction.uses, code])
      (by simp [Instruction.uses, code]) _ _
  case h_10 code =>
    rw [r31_eq]
    exact respects_bind (apart_respects_gpr (by simp [Instruction.uses, code]) _)
      (fun _ => respects_pure _)
  case h_12 code =>
    exact apart_respects_link (by simp [Instruction.uses, code])
      (by simp [Instruction.uses, code]) _ _
  all_goals
    first
    | exact respects_pure _
    | exact respects_throw _

-----------------------------------------------------------------------------------------
-- Accesses to memory
-----------------------------------------------------------------------------------------

/-- Addresses are translated by the page table alone, by cases on the outcome. -/
theorem apart_respects_physicalAddress (addr : BitVec 32) (size : Nat) (writing : Bool)
    : Respects (Apart used) (physicalAddress addr size writing) := by
  refine respects_get_bind (fun left right both => ?_)
  rw [both.pageTable]
  cases translate right.pageTable addr.toInt size writing with
  | error fault => exact ⟨rfl, both⟩
  | ok outcome =>
      cases outcome with
      | error which => exact apart_respects_raise _ _ _ _ both
      | ok pair => exact ⟨rfl, { both with pageTable := rfl }⟩

theorem apart_respects_readMem (addr : BitVec 32) (size : Nat)
    : Respects (Apart used) (readMem addr size) := by
  refine respects_bind (apart_respects_physicalAddress addr size false) (fun physAddr => ?_)
  refine respects_get_bind (fun left right both => ?_)
  rw [both.mainMemory]
  split <;> exact ⟨rfl, both⟩

/-- A store changes the same bytes in both, by cases on its size. -/
theorem apart_respects_writeMem (addr : BitVec 32) (size : Nat) (value : BitVec 32)
    : Respects (Apart used) (writeMem addr size value) := by
  refine respects_bind (apart_respects_physicalAddress addr size true) (fun physAddr => ?_)
  refine respects_get_bind (fun left right both => ?_)
  rw [both.mainMemory]
  dsimp only
  split
  · exact ⟨rfl, { both with mainMemory := rfl }⟩
  · exact ⟨rfl, both⟩

theorem apart_respects_load (address : BitVec 32) (size : Nat) (extend : BitVec 32 → BitVec 32)
    : Respects (Apart used) (do
        let value ← readMem address size
        return loading instr pcAfter (extend value)) :=
  respects_bind (apart_respects_readMem _ _) (fun _ => respects_pure _)

theorem apart_respects_store (address value : BitVec 32) (size : Nat)
    : Respects (Apart used) (do
        writeMem address size value
        return continueAt pcAfter) :=
  respects_bind (apart_respects_writeMem _ _ _) (fun _ => respects_pure _)

theorem apart_respects_storePart (merge : Nat → BitVec 32 → BitVec 32 → BitVec 32)
    (rt address : BitVec 32)
    : Respects (Apart used) (storePart pcAfter merge rt address) :=
  respects_bind (apart_respects_readMem _ _) (fun _ =>
    respects_bind (apart_respects_writeMem _ _ _) (fun _ => respects_pure _))

/-- Loads of whole bytes, and stores. -/
theorem apart_respects_transfer (whole : instr.opCode ≠ .lwl ∧ instr.opCode ≠ .lwr)
    (rt address : BitVec 32)
    : Respects (Apart used) (transfer instr pcAfter rt address) := by
  unfold transfer
  dsimp only
  have raises
      : Respects (Apart used)
          (raiseException (.memory .addressErrorException) address : Routine Halt Machine Effect) :=
    apart_respects_raise _ _
  split
  case h_3 => exact respects_ite raises (apart_respects_load _ _ _)
  case h_4 => exact respects_ite raises (apart_respects_load _ _ _)
  case h_5 => exact respects_ite raises (apart_respects_load _ _ _)
  case h_6 code => exact absurd code whole.1
  case h_7 code => exact absurd code whole.2
  case h_11 => exact apart_respects_storePart _ _ _
  case h_12 => exact apart_respects_storePart _ _ _
  all_goals
    first
    | exact apart_respects_load _ _ _
    | exact apart_respects_store _ _ _
    | exact respects_throw _

-----------------------------------------------------------------------------------------
-- Instructions
-----------------------------------------------------------------------------------------

/-- The switch of `OneInstruction` with the registers that it reads. -/
def switch (instr : Instruction) (rs rt nextPC : BitVec 32) (machine : Machine)
    : Routine Halt Machine Effect :=
  let pcAfter := nextPC + 4#32
  match instr.opCode with
  | .beq | .bne | .bgez | .bltz | .bgtz | .blez | .bgezal | .bltzal | .j | .jal | .jr | .jalr =>
      jump instr pcAfter rs rt nextPC
  | .lb | .lbu | .lh | .lhu | .lw | .lwl | .lwr | .sb | .sh | .sw | .swl | .swr =>
      transfer instr pcAfter rt (rs + instr.extra)
  | _ => compute instr pcAfter rs rt machine

theorem run_operate_eq (instr : Instruction) (machine : Machine)
    : (operate instr).run machine
      = (switch instr (machine.registers (gpr instr.rs)) (machine.registers (gpr instr.rt))
          (machine.registers nextPCReg) machine).run machine :=
  rfl

/-- Registers that an instruction does not use make no difference to it, by cases on it. -/
theorem switch_congr {rs rs' rt rt' : BitVec 32} (nextPC : BitVec 32)
    (sameRs : instr.rs ∈ instr.uses → rs = rs') (sameRt : instr.rt ∈ instr.uses → rt = rt')
    (hi : left.registers hiReg = right.registers hiReg)
    (lo : left.registers loReg = right.registers loReg)
    : switch instr rs rt nextPC left = switch instr rs' rt' nextPC right := by
  obtain ⟨op, rsNumber, rtNumber, rd, extra⟩ := instr
  cases op with
  | mfhi => exact congrArg (result (nextPC + 4#32) (gpr rd)) hi
  | mflo => exact congrArg (result (nextPC + 4#32) (gpr rd)) lo
  | add | addu | and | nor | or | sllv | slt | sltu | srav | srlv | sub | subu | xor | div | divu
  | mult | multu | beq | bne | sb | sh | sw | swl | swr =>
      obtain rfl := sameRs (.head _)
      obtain rfl := sameRt (.tail _ (.head _))
      rfl
  | addi | addiu | andi | ori | slti | sltiu | xori | mthi | mtlo | bgez | bgtz | blez | bltz
  | bgezal | bltzal | jr | jalr | lb | lbu | lh | lhu | lw | lwl | lwr =>
      obtain rfl := sameRs (.head _)
      rfl
  | sll | sra | srl =>
      obtain rfl := sameRt (.head _)
      rfl
  | lui | j | jal | syscall | res | unimp | special | bcond => rfl

/-- The three groups of the switch together; partial loads read a register that may still be
loaded.
-/
theorem apart_respects_switch (whole : instr.opCode ≠ .lwl ∧ instr.opCode ≠ .lwr)
    (rs rt nextPC : BitVec 32) (machine : Machine)
    : Respects (Apart instr.uses) (switch instr rs rt nextPC machine) := by
  unfold switch
  dsimp only
  split
  all_goals
    first
    | exact apart_respects_jump _ _ _
    | exact apart_respects_transfer whole _ _
    | exact apart_respects_compute _ _ _

/-- The register that an instruction begins to load; register 0 when it begins no load. -/
def Instruction.loads (instr : Instruction) : BitVec 5 :=
  match instr.opCode with
  | .lb | .lbu | .lh | .lhu | .lw | .lwl | .lwr => instr.rt
  | _ => 0#5

/-- The load that goes on after the instruction is for this register. -/
def Effect.Loads (number : BitVec 5) (effect : Effect) : Prop :=
  effect.nextLoadReg = number.setWidth 32

theorem yields_continueAt
    : Yields (Effect.Loads 0#5) (pure (continueAt pcAfter) : Routine Halt Machine Effect) :=
  yields_pure rfl

theorem yields_loading (value : BitVec 32)
    : Yields (Effect.Loads instr.rt)
        (pure (loading instr pcAfter value) : Routine Halt Machine Effect) :=
  yields_pure rfl

/-- An exception does not return. -/
theorem yields_raise {returned : Effect → Prop} (which : Trap) (badVAddr : BitVec 32)
    : Yields returned (raiseException which badVAddr : Routine Halt Machine Effect) :=
  yields_bind (fun _ => yields_bind (fun _ => yields_throw _))

theorem yields_result (register : Register) (value : BitVec 32)
    : Yields (Effect.Loads 0#5) (result pcAfter register value) :=
  yields_bind (fun _ => yields_continueAt)

theorem yields_results (hi lo : BitVec 32)
    : Yields (Effect.Loads 0#5) (results pcAfter hi lo) :=
  yields_bind (fun _ => yields_bind (fun _ => yields_continueAt))

/-- Computing instructions begin no load, by cases on them. -/
theorem yields_compute (rs rt : BitVec 32) (machine : Machine)
    : Yields (Effect.Loads 0#5) (compute instr pcAfter rs rt machine) := by
  unfold compute divide divideUnsigned
  dsimp only
  split
  all_goals
    repeat' apply yields_ite
  all_goals
    first
    | exact yields_result _ _
    | exact yields_results _ _
    | exact yields_raise _ _
    | exact yields_throw _

/-- Branches begin no load, by cases on them. -/
theorem yields_jump (rs rt nextPC : BitVec 32)
    : Yields (Effect.Loads 0#5) (jump instr pcAfter rs rt nextPC) := by
  unfold jump
  dsimp only
  split
  case h_7 => exact yields_bind (fun _ => yields_bind (fun _ => yields_continueAt))
  case h_8 => exact yields_bind (fun _ => yields_bind (fun _ => yields_continueAt))
  case h_10 => exact yields_bind (fun _ => yields_continueAt)
  case h_12 => exact yields_bind (fun _ => yields_bind (fun _ => yields_continueAt))
  all_goals
    first
    | exact yields_continueAt
    | exact yields_throw _

/-- Loads go on for their register, and stores for none, by cases on the instruction. -/
theorem yields_transfer (rt address : BitVec 32)
    : Yields (Effect.Loads instr.loads) (transfer instr pcAfter rt address) := by
  have loading (loads : instr.loads = instr.rt) (value : BitVec 32)
      : Yields (Effect.Loads instr.loads)
          (pure (Mips.loading instr pcAfter value) : Routine Halt Machine Effect) :=
    loads ▸ yields_loading value
  have storing (stores : instr.loads = 0#5)
      : Yields (Effect.Loads instr.loads)
          (pure (continueAt pcAfter) : Routine Halt Machine Effect) :=
    stores ▸ yields_continueAt
  unfold transfer loadPart storePart
  dsimp only
  split
  all_goals
    repeat' apply yields_ite
  all_goals
    first
    | exact yields_raise _ _
    | exact yields_throw _
    | exact yields_bind (fun _ => loading (by simp [Instruction.loads, *]) _)
    | exact yields_bind (fun _ => storing (by simp [Instruction.loads, *]))
    | exact yields_bind (fun _ => yields_bind (fun _ => loading (by simp [Instruction.loads, *]) _))
    | exact yields_bind (fun _ => yields_bind (fun _ => storing (by simp [Instruction.loads, *])))

/-- An instruction begins the load that its code says, by cases on the switch. -/
theorem yields_operate (instr : Instruction)
    : Yields (Effect.Loads instr.loads) (operate instr) := by
  have other {routine : Routine Halt Machine Effect} (ends : Yields (Effect.Loads 0#5) routine)
      (none : instr.loads = 0#5)
      : Yields (Effect.Loads instr.loads) routine :=
    none ▸ ends
  refine yields_bind (fun machine => ?_)
  split
  all_goals
    first
    | exact yields_transfer _ _
    | exact other (yields_jump _ _ _) (by simp [Instruction.loads, *])
    | exact other (yields_compute _ _ _) (by unfold Instruction.loads; split <;> simp_all)

/-- A partial load takes the pending value of its register as it is. -/
theorem Agree.forwarded (both : Agree left right) (apart : instr.rt ≠ 0#5)
    : forwarded instr left = forwarded instr right := by
  have same := both.arriving instr.rt apart
  have takes (machine : Machine) (valid : machine.registers loadReg = machine.pending.setWidth 32)
      : Mips.forwarded instr machine = machine.arriving instr.rt := by
    have here : machine.registers loadReg = instr.rt.setWidth 32 ↔ instr.rt = machine.pending := by
      rw [valid]
      constructor
      · intro equal
        have widths := congrArg (BitVec.setWidth 5) equal
        rw [BitVec.setWidth_setWidth_of_le _ (by decide),
          BitVec.setWidth_setWidth_of_le _ (by decide), BitVec.setWidth_eq,
          BitVec.setWidth_eq] at widths
        exact widths.symm
      · intro equal
        rw [equal]
    unfold Mips.forwarded Machine.arriving
    simp only [here]
  rwa [takes left both.pending.1, takes right both.pending.2]

/-- The rest of a partial load. -/
theorem Apart.loadPart (both : Apart used left right)
    (merge : Nat → BitVec 32 → BitVec 32 → BitVec 32) (address : BitVec 32)
    : Paired Agree ((loadPart instr pcAfter merge address >>= finish).run left)
        ((loadPart instr pcAfter merge address >>= finish).run right) := by
  have pair := apart_respects_readMem (address - (address &&& 0x3#32)) 4 left right both
  cases here : (readMem (address - (address &&& 0x3#32)) 4).run left with
  | mk outcome after =>
      cases there : (readMem (address - (address &&& 0x3#32)) 4).run right with
      | mk other final =>
          rw [here, there] at pair
          obtain ⟨same, kept⟩ := pair
          cases same
          unfold Mips.loadPart
          cases outcome with
          | error halt =>
              rw [run_bind_error (run_bind_error here _), run_bind_error (run_bind_error there _)]
              exact ⟨rfl, kept.toAgree⟩
          | ok value =>
              have effect {start next : Machine}
                  (read
                    : (readMem (address - (address &&& 0x3#32)) 4).run start = (.ok value, next))
                  : (Mips.loadPart instr pcAfter merge address).run start
                    = (.ok (loading instr pcAfter
                        (merge (3#32 - (address &&& 0x3#32)).toNat (forwarded instr next) value)),
                      next) := by
                rw [Mips.loadPart, run_bind_ok read]
                rfl
              have left := run_bind_ok (effect here) finish
              have right := run_bind_ok (effect there) finish
              unfold Mips.loadPart at left right
              rw [left, right]
              refine kept.finish instr.rt (fun apart => ?_) pcAfter
              rw [kept.forwarded apart]

/-- All instructions but partial loads keep the machines apart. -/
theorem Apart.operated (both : Apart instr.uses left right)
    (whole : instr.opCode ≠ .lwl ∧ instr.opCode ≠ .lwr)
    : Paired (Apart instr.uses) ((operate instr).run left) ((operate instr).run right) := by
  rw [run_operate_eq, run_operate_eq, both.plain nextPCReg (by decide),
    switch_congr _ both.registers_gpr both.registers_gpr
      (both.plain hiReg (by decide)) (both.plain loReg (by decide))]
  exact apart_respects_switch whole _ _ _ _ left right both

/-- The rest of an instruction after it is decoded. -/
theorem Apart.operate (both : Apart instr.uses left right)
    : Paired Agree ((operate instr >>= finish).run left)
        ((operate instr >>= finish).run right) := by
  by_cases partly : instr.opCode = .lwl ∨ instr.opCode = .lwr
  · have addressed : left.registers (gpr instr.rs) = right.registers (gpr instr.rs) := by
      refine both.registers_gpr ?_
      rw [Instruction.uses]
      obtain code | code := partly <;> rw [code] <;> exact .head _
    rw [run_bind_congr (run_operate_load partly left),
      run_bind_congr (run_operate_load partly right), both.plain nextPCReg (by decide), addressed]
    exact both.loadPart _ _
  · have operated := both.operated (not_or.mp partly)
    have ended : Paired Agree ((Mips.operate instr).run left) ((Mips.operate instr).run right) :=
      ⟨operated.1, operated.2.toAgree⟩
    refine ended.bind_of (fun effect after final returned _ kept => ?_)
    have begins := yields_operate instr _ _ _ returned
    obtain ⟨pcAfter, _, value⟩ := effect
    obtain rfl := begins
    exact kept.finish instr.loads (fun _ => rfl) pcAfter

/-- The load that is pending is still for a register that is there, by cases on whether the
instruction is a partial load.
-/
theorem Apart.pending_of_operate {after : Machine} {effect : Effect}
    (self : Apart instr.uses machine machine)
    (returned : (Mips.operate instr).run machine = (.ok effect, after))
    : after.registers loadReg = after.pending.setWidth 32 := by
  by_cases partly : instr.opCode = .lwl ∨ instr.opCode = .lwr
  · rw [run_operate_load partly] at returned
    obtain ⟨value, read, fetched, rest⟩ := of_run_bind_ok returned
    obtain ⟨_, _, _, rfl⟩ := exists_of_readMem fetched
    cases rest
    exact self.pending.1
  · have operated := self.operated (not_or.mp partly)
    rw [returned] at operated
    exact operated.2.pending.1

/-- The instruction that is next leaves the register alone that is being loaded. -/
def Machine.Free (machine : Machine) : Prop :=
  ∀ word fetched,
    (readMem (machine.registers pcReg) 4).run machine = (.ok word, fetched)
    → ∀ number ∈ (decode word).uses, number ≠ 0#5 → number ≠ machine.pending

/-- An instruction does the same on machines that agree, if it leaves the registers alone that are
being loaded.
-/
theorem Agree.oneInstruction (both : Agree left right) (free : left.Free ∧ right.Free)
    : Paired Agree (oneInstruction.run left) (oneInstruction.run right) := by
  have pc := both.plain pcReg (by decide)
  have start (machine : Machine)
      : (readRegister pcReg).run machine = (.ok (machine.registers pcReg), machine) :=
    rfl
  have pair := apart_respects_readMem (right.registers pcReg) 4 left right both.apart
  unfold Mips.oneInstruction
  rw [run_bind_ok (start left), run_bind_ok (start right), pc]
  refine Paired.bind_of ⟨pair.1, pair.2.toAgree⟩ (fun word after final here there kept => ?_)
  have sameLeft : after.pending = left.pending := by
    obtain ⟨_, _, _, rfl⟩ := exists_of_readMem here
    rfl
  have sameRight : final.pending = right.pending := by
    obtain ⟨_, _, _, rfl⟩ := exists_of_readMem there
    rfl
  have apart : Apart (decode word).uses after final := by
    refine ⟨kept, ?_, ?_⟩
    · rw [sameLeft]
      exact free.1 word after (pc ▸ here)
    · rw [sameRight]
      exact free.2 word final there
  exact apart.operate

-----------------------------------------------------------------------------------------
-- Runs
-----------------------------------------------------------------------------------------

/-- What `CheckIfDue` does to the machine: an interrupt that is due finishes the pending load. -/
def checkIfDue (due : Bool) : Routine Halt Machine Unit :=
  if due then delayedLoad 0#32 0#32 else pure ()

/-- The loop of `Machine::Run` for so many instructions, with whether an interrupt is due after
each.
-/
def instructions : List Bool → Routine Halt Machine Unit
  | [] => pure ()
  | due :: dues => do
      oneInstruction
      checkIfDue due
      instructions dues

/-- When no interrupt comes, none of the next instructions uses the register that the one before
it loads.
-/
def Machine.HazardFree : Nat → Machine → Prop
  | 0, _ => True
  | count + 1, machine =>
      machine.Free
      ∧ ∀ after, oneInstruction.run machine = (.ok (), after) → after.HazardFree count

/-- Two machines that agree, where the right one may have finished its load early. -/
structure Trails (left right : Machine) : Prop extends Agree left right where
  early : right.pending = left.pending ∨ right.pending = 0#5

/-- Machines that agree fetch the same instruction, since a fetch uses no register. -/
theorem Agree.fetches {word : BitVec 32} {fetched : Machine} (both : Agree left right)
    (read : (readMem (right.registers pcReg) 4).run right = (.ok word, fetched))
    : ∃ other, (readMem (left.registers pcReg) 4).run left = (.ok word, other) := by
  have pair := apart_respects_readMem (right.registers pcReg) 4 left right both.apart
  rw [read] at pair
  rw [both.plain pcReg (by decide)]
  exact ⟨((readMem (right.registers pcReg) 4).run left).2, Prod.ext pair.1 rfl⟩

/-- What no load of the left machine stands in the way of, none of the right one does. -/
theorem Trails.free (both : Trails left right) (free : left.Free) : right.Free := by
  intro word fetched read number uses other
  obtain ⟨_, here⟩ := both.fetches read
  obtain together | finished := both.early
  · rw [together]
    exact free word _ here number uses other
  · rwa [finished]

/-- The program counters have no part in the pending load. -/
theorem pending_advanced (machine : Machine) (pcAfter : BitVec 32)
    : (machine.advanced pcAfter).pending = machine.pending := by
  rw [Machine.advanced, pending_set (by decide), pending_set (by decide), pending_set (by decide)]

/-- An instruction that returned has begun the load that its code says, and register 0 is zero. -/
theorem pending_of_oneInstruction {after : Machine} (self : Agree machine machine)
    (free : machine.Free) (ran : oneInstruction.run machine = (.ok (), after))
    : ∃ word fetched,
        (readMem (machine.registers pcReg) 4).run machine = (.ok word, fetched)
        ∧ after.pending = (decode word).loads
        ∧ after.registers (gpr 0#5) = 0#32 := by
  obtain ⟨pc, start, here, rest⟩ := of_run_bind_ok ran
  cases here
  obtain ⟨word, fetched, read, rest⟩ := of_run_bind_ok rest
  refine ⟨word, fetched, read, ?_⟩
  have apart : Apart (decode word).uses fetched fetched := by
    have valid := free word fetched read
    obtain ⟨_, _, _, rfl⟩ := exists_of_readMem read
    exact ⟨{ self with mainMemory := rfl, pageTable := rfl }, valid, valid⟩
  obtain ⟨effect, operated, returned, rest⟩ := of_run_bind_ok rest
  have begins := yields_operate (decode word) _ _ _ returned
  rw [run_finish (apart.pending_of_operate returned)] at rest
  cases rest
  have loads : effect.nextLoadReg = (decode word).loads.setWidth 32 := begins
  rw [pending_advanced, loads, pending_loaded, registers_advanced_gpr, registers_loaded_gpr,
    if_pos rfl]
  exact ⟨rfl, rfl⟩

/-- To finish the load that is pending changes nothing else. -/
theorem Agree.settled (self : Agree machine machine) (zero : machine.registers (gpr 0#5) = 0#32)
    : Agree machine (machine.loaded machine.pending (BitVec.setWidth 32 0#5) 0#32) where
  pending := by
    rw [pending_loaded, (registers_loaded_load ..).1]
    exact ⟨self.pending.1, rfl⟩
  zero := by rw [registers_loaded_gpr, if_pos rfl, zero]
  arriving number other := by rw [arriving_loaded other machine 0#5, if_neg other]
  plain register plain := (registers_loaded_of_ne plain.1 plain.2 ..).symm
  mainMemory := rfl
  pageTable := rfl

/-- After an instruction an interrupt makes no difference: it finishes the load, or none is due. -/
theorem exists_trails_of_checkIfDue {final : Machine} (both : Agree left final)
    (together : final.pending = left.pending) (zero : final.registers (gpr 0#5) = 0#32)
    (due : Bool)
    : ∃ next, (checkIfDue due).run final = (.ok (), next) ∧ Trails left next := by
  cases due with
  | false => exact ⟨final, rfl, both, .inl together⟩
  | true =>
      have settled := (both.symm.trans both).settled zero
      exact ⟨_, run_delayedLoad both.pending.2 _ _, both.trans settled,
        .inr (pending_loaded _ _ 0#5 _)⟩

/-- Both machines have begun the same load after an instruction, and register 0 is zero. -/
theorem Trails.ended {after final : Machine} (both : Trails left right) (free : left.Free)
    (here : oneInstruction.run left = (.ok (), after))
    (there : oneInstruction.run right = (.ok (), final))
    : final.pending = after.pending ∧ final.registers (gpr 0#5) = 0#32 := by
  have agree := both.toAgree
  obtain ⟨word, fetched, read, begun, _⟩ :=
    pending_of_oneInstruction (agree.trans agree.symm) free here
  obtain ⟨another, fetchedToo, readToo, begunToo, zero⟩ :=
    pending_of_oneInstruction (agree.symm.trans agree) (both.free free) there
  obtain ⟨other, fetches⟩ := agree.fetches readToo
  rw [read] at fetches
  cases fetches
  exact ⟨begunToo.trans begun.symm, zero⟩

/-- Interrupts that finish loads early make no difference to a run without hazards, by induction on
its length. Witness: the machine without interrupts is ahead by its pending load after each
instruction, and `exists_trails_of_checkIfDue` goes on from there.
-/
theorem Trails.instructions (both : Trails left right) {dues : List Bool}
    (free : left.HazardFree dues.length)
    : Paired Agree ((instructions (List.replicate dues.length false)).run left)
        ((instructions dues).run right) := by
  induction dues generalizing left right with
  | nil => exact ⟨rfl, both.toAgree⟩
  | cons due dues ih =>
      have others := both.free free.1
      have pair := both.toAgree.oneInstruction ⟨free.1, others⟩
      rw [List.length_cons, List.replicate_succ, Mips.instructions, Mips.instructions]
      cases here : oneInstruction.run left with
      | mk outcome after =>
          cases there : oneInstruction.run right with
          | mk other final =>
              rw [here, there] at pair
              obtain ⟨same, kept⟩ := pair
              cases same
              cases outcome with
              | error halt =>
                  rw [run_bind_error here, run_bind_error there]
                  exact ⟨rfl, kept⟩
              | ok _ =>
                  obtain ⟨together, zero⟩ := both.ended free.1 here there
                  obtain ⟨next, finished, trails⟩ :=
                    exists_trails_of_checkIfDue kept together zero due
                  rw [run_bind_ok here, run_bind_ok there, run_bind_ok finished,
                    run_bind_ok (rfl : (checkIfDue false).run after = (.ok (), after))]
                  exact ih trails (free.2 after here)

/-- Interrupts make no difference to a run in which no instruction uses the register that the one
before it loads, though each of them finishes a load early: the run stops for the same reason, with
the same memory and page table, and with the same registers once the pending load is finished.
-/
theorem interrupts_spare_hazardFree (dues : List Bool)
    (begun : (machine.registers loadReg).toNat < 32) (free : machine.HazardFree dues.length)
    : Paired Agree ((instructions (List.replicate dues.length false)).run machine)
        ((instructions dues).run machine) := by
  have pending : machine.registers loadReg = machine.pending.setWidth 32 := by
    apply BitVec.eq_of_toNat_eq
    rw [Machine.pending, BitVec.toNat_setWidth, BitVec.toNat_setWidth]
    omega
  exact Trails.instructions ⟨.refl pending, .inl rfl⟩ free

/-- A machine about to do an instruction is free when that one uses no register that is loaded. -/
theorem Machine.free_of_fetches (word : BitVec 32)
    (fetches : ((readMem (machine.registers pcReg) 4).run machine).1 = .ok word)
    (apart : ∀ number ∈ (decode word).uses, number ≠ 0#5 → number ≠ machine.pending)
    : machine.Free := by
  intro other _ read number uses
  rw [read] at fetches
  cases fetches
  exact apart number uses

/-- Witness: `lw $3, 8($0)` with an interrupt before its value arrives, and `addu $4, $2, $2`. -/
theorem interrupts_spare_load
    : Paired Agree
        ((instructions [false, false]).run (startingWith 0x8c030008#32 0x00422021#32))
        ((instructions [true, false]).run (startingWith 0x8c030008#32 0x00422021#32)) := by
  have first : (startingWith 0x8c030008#32 0x00422021#32).Free :=
    Machine.free_of_fetches 0x8c030008#32 rfl (by decide)
  refine interrupts_spare_hazardFree [true, false] (by decide)
    ⟨first, fun after ran => ⟨?_, fun _ _ => trivial⟩⟩
  obtain rfl := congrArg Prod.snd ran
  exact Machine.free_of_fetches 0x00422021#32 rfl (by decide)

end Nachos.Mips
