import Nachos.Lib.SideBySide
import Nachos.Machine.Translation

/-! Instructions side by side on two machines. Whatever relation of machines the accesses to
registers and to memory respect, every instruction respects.
-/

namespace Nachos.Mips
open Bytes UserProg Routines Routine

/-- Related machines have the same registers, and stay related when a register gets a value. -/
structure Uniform (related : Machine → Machine → Prop) : Prop where
  registers : ∀ {left right}, related left right → left.registers = right.registers
  set
    : ∀ {left right}, related left right
      → ∀ register value, related (left.set register value) (right.set register value)

/-- Accesses to memory have the same outcome on related machines. -/
structure Accessible (related : Machine → Machine → Prop) : Prop extends Uniform related where
  readMem
    : ∀ addr {size}, size = 1 ∨ size = 2 ∨ size = 4 → Respects related (readMem addr size)
  writeMem
    : ∀ addr {size}, size = 1 ∨ size = 2 ∨ size = 4
      → ∀ value, Respects related (writeMem addr size value)

variable {related : Machine → Machine → Prop} {left right : Machine} {instr : Instruction}
  {pcAfter : BitVec 32} {size : Nat}

section Registers

variable (uniform : Uniform related)

include uniform

/-- A register gets what other registers give. -/
theorem Uniform.update (both : related left right) (register : Register)
    (value : (Register → BitVec 32) → BitVec 32)
    : related (left.set register (value left.registers))
        (right.set register (value right.registers)) := by
  rw [← uniform.registers both]
  exact uniform.set both register (value left.registers)

/-- A register reads the same, since all registers are the same. -/
theorem Uniform.respects_readRegister (register : Register)
    : Respects related (readRegister register) := by
  refine respects_get_bind (fun left right both => ?_)
  rw [uniform.registers both]
  exact ⟨rfl, both⟩

/-- A register is written alike. -/
theorem Uniform.respects_writeRegister (register : Register) (value : BitVec 32)
    : Respects related (writeRegister register value) :=
  respects_get_bind (fun _ _ both => ⟨rfl, uniform.set both register value⟩)

/-- A register given by its number is written alike, or the number is outside in both. -/
theorem Uniform.respects_writeAt (index value : BitVec 32)
    : Respects related (writeAt index value) := by
  unfold writeAt
  split
  · exact uniform.respects_writeRegister _ value
  · exact respects_throw _

/-- A delayed load reads and writes registers only. -/
theorem Uniform.respects_delayedLoad (nextReg nextValue : BitVec 32)
    : Respects related (delayedLoad nextReg nextValue) :=
  respects_bind (uniform.respects_readRegister loadReg) (fun target =>
    respects_bind (uniform.respects_readRegister loadValueReg) (fun value =>
      respects_bind (uniform.respects_writeAt target value) (fun _ =>
        respects_bind (uniform.respects_writeRegister loadReg nextReg) (fun _ =>
          respects_bind (uniform.respects_writeRegister loadValueReg nextValue) (fun _ =>
            uniform.respects_writeRegister (gpr 0#5) 0#32)))))

/-- An exception notes its address and finishes the pending load. -/
theorem Uniform.respects_raiseException {α : Type} (which : Trap) (badVAddr : BitVec 32)
    : Respects related (raiseException which badVAddr : Routine Halt Machine α) :=
  respects_bind (uniform.respects_writeRegister badVAddrReg badVAddr) (fun _ =>
    respects_bind (uniform.respects_delayedLoad 0#32 0#32) (fun _ =>
      respects_throw (Halt.raised which)))

/-- A result goes into one register. -/
theorem Uniform.respects_result (register : Register) (value : BitVec 32)
    : Respects related (result pcAfter register value) :=
  respects_bind (uniform.respects_writeRegister register value) (fun _ => respects_pure _)

/-- Two results go into `lo` and `hi`. -/
theorem Uniform.respects_results (hi lo : BitVec 32)
    : Respects related (results pcAfter hi lo) :=
  respects_bind (uniform.respects_writeRegister loReg lo) (fun _ =>
    respects_bind (uniform.respects_writeRegister hiReg hi) (fun _ => respects_pure _))

/-- A branch after the return address is noted; the register is read again. -/
theorem Uniform.respects_link (register : Register) (value : BitVec 32)
    (next : BitVec 32 → Routine Halt Machine Effect)
    (goesOn : ∀ value, Respects related (next value))
    : Respects related (do
        writeRegister register value
        let target ← readRegister (gpr instr.rs)
        next target) :=
  respects_bind (uniform.respects_writeRegister register value) (fun _ =>
    respects_bind (uniform.respects_readRegister (gpr instr.rs)) goesOn)

/-- Computing instructions, by cases on them: each ends in a register, in `hi` and `lo`, or in an
exception.
-/
theorem Uniform.respects_compute (rs rt : BitVec 32) (machine : Machine)
    : Respects related (compute instr pcAfter rs rt machine) := by
  unfold compute divide divideUnsigned
  dsimp only
  split
  all_goals
    repeat' apply respects_ite
  all_goals
    first
    | exact uniform.respects_result _ _
    | exact uniform.respects_results _ _
    | exact uniform.respects_raiseException _ _
    | exact respects_throw _

/-- Branches, by cases on them: those that link write a register first. -/
theorem Uniform.respects_jump (rs rt nextPC : BitVec 32)
    : Respects related (jump instr pcAfter rs rt nextPC) := by
  unfold jump
  dsimp only
  split
  case h_7 => exact uniform.respects_link _ _ _ (fun _ => respects_pure _)
  case h_8 => exact uniform.respects_link _ _ _ (fun _ => respects_pure _)
  case h_10 => exact respects_bind (uniform.respects_writeRegister _ _) (fun _ => respects_pure _)
  case h_12 => exact uniform.respects_link _ _ _ (fun _ => respects_pure _)
  all_goals
    first
    | exact respects_pure _
    | exact respects_throw _

/-- The end of an instruction reads and writes registers only. -/
theorem Uniform.respects_finish (effect : Effect) : Respects related (finish effect) :=
  respects_bind (uniform.respects_delayedLoad _ _) (fun _ =>
    respects_bind (uniform.respects_readRegister pcReg) (fun _ =>
      respects_bind (uniform.respects_writeRegister prevPCReg _) (fun _ =>
        respects_bind (uniform.respects_readRegister nextPCReg) (fun _ =>
          respects_bind (uniform.respects_writeRegister pcReg _) (fun _ =>
            uniform.respects_writeRegister nextPCReg _)))))

end Registers

/-- Only the registers of the machine are used. -/
theorem compute_congr (same : left.registers = right.registers) (rs rt : BitVec 32)
    : compute instr pcAfter rs rt left = compute instr pcAfter rs rt right := by
  unfold compute
  rw [same]

section Accesses

variable (accessible : Accessible related)

include accessible

/-- A partial load reads memory, and the pending value from the registers. -/
theorem Accessible.respects_loadPart (merge : Nat → BitVec 32 → BitVec 32 → BitVec 32)
    (address : BitVec 32)
    : Respects related (loadPart instr pcAfter merge address) := by
  refine respects_bind (accessible.readMem _ (.inr (.inr rfl))) (fun value => ?_)
  refine respects_get_bind (fun left right both => ?_)
  have same : forwarded instr left = forwarded instr right := by
    rw [forwarded, forwarded, accessible.registers both]
  rw [same]
  exact ⟨rfl, both⟩

/-- A partial store reads memory, and writes what it merged. -/
theorem Accessible.respects_storePart (merge : Nat → BitVec 32 → BitVec 32 → BitVec 32)
    (rt address : BitVec 32)
    : Respects related (storePart pcAfter merge rt address) :=
  respects_bind (accessible.readMem _ (.inr (.inr rfl))) (fun _ =>
    respects_bind (accessible.writeMem _ (.inr (.inr rfl)) _) (fun _ => respects_pure _))

/-- A load of whole bytes. -/
theorem Accessible.respects_load (sized : size = 1 ∨ size = 2 ∨ size = 4) (address : BitVec 32)
    (extend : BitVec 32 → BitVec 32)
    : Respects related (do
        let value ← Mips.readMem address size
        return loading instr pcAfter (extend value)) :=
  respects_bind (accessible.readMem _ sized) (fun _ => respects_pure _)

/-- A store writes memory only. -/
theorem Accessible.respects_store (sized : size = 1 ∨ size = 2 ∨ size = 4)
    (address value : BitVec 32)
    : Respects related (do
        Mips.writeMem address size value
        return continueAt pcAfter) :=
  respects_bind (accessible.writeMem _ sized _) (fun _ => respects_pure _)

/-- Loads and stores, by cases on them: an unaligned address raises an exception. -/
theorem Accessible.respects_transfer (rt address : BitVec 32)
    : Respects related (transfer instr pcAfter rt address) := by
  unfold transfer
  dsimp only
  have raises
      : Respects related
          (raiseException (.memory .addressErrorException) address : Routine Halt Machine Effect) :=
    accessible.respects_raiseException _ _
  split
  case h_1 => exact accessible.respects_load (.inl rfl) _ _
  case h_2 => exact accessible.respects_load (.inl rfl) _ _
  case h_3 => exact respects_ite raises (accessible.respects_load (.inr (.inl rfl)) _ _)
  case h_4 => exact respects_ite raises (accessible.respects_load (.inr (.inl rfl)) _ _)
  case h_5 => exact respects_ite raises (accessible.respects_load (.inr (.inr rfl)) _ _)
  case h_6 => exact accessible.respects_loadPart _ _
  case h_7 => exact accessible.respects_loadPart _ _
  case h_8 => exact accessible.respects_store (.inl rfl) _ _
  case h_9 => exact accessible.respects_store (.inr (.inl rfl)) _ _
  case h_10 => exact accessible.respects_store (.inr (.inr rfl)) _ _
  case h_11 => exact accessible.respects_storePart _ _ _
  case h_12 => exact accessible.respects_storePart _ _ _
  case h_13 => exact respects_throw _

/-- The switch of an instruction, by its three groups. -/
theorem Accessible.respects_operate (instr : Instruction)
    : Respects related (operate instr) := by
  unfold operate
  refine respects_get_bind (fun left right both => ?_)
  rw [accessible.registers both]
  dsimp only
  rw [compute_congr (accessible.registers both)]
  split
  all_goals
    first
    | exact accessible.respects_jump _ _ _ left right both
    | exact accessible.respects_transfer _ _ left right both
    | exact accessible.respects_compute _ _ _ left right both

/-- An instruction respects what its accesses to registers and memory respect. -/
theorem Accessible.respects_oneInstruction : Respects related oneInstruction :=
  respects_bind (accessible.respects_readRegister pcReg) (fun _ =>
    respects_bind (accessible.readMem _ (.inr (.inr rfl))) (fun _ =>
      respects_bind (accessible.respects_operate _) accessible.respects_finish))

end Accesses

end Nachos.Mips
