import Nachos.Lib.Words
import Nachos.Machine.Multiplication
import Nachos.UserProg.PageTable

/-! The simulated processor: registers, memory behind a page table, and one instruction. -/

namespace Nachos.Mips
open Bytes UserProg Routines Routine

-----------------------------------------------------------------------------------------
-- Instructions
-----------------------------------------------------------------------------------------

/-- The `OP_` values, with the two that call for further decoding. -/
inductive OpCode where
  | add | addi | addiu | addu | and | andi | beq | bgez | bgezal | bgtz | blez | bltz | bltzal
  | bne | div | divu | j | jal | jalr | jr | lb | lbu | lh | lhu | lui | lw | lwl | lwr | mfhi
  | mflo | mthi | mtlo | mult | multu | nor | or | ori | sb | sh | sll | sllv | slt | slti
  | sltiu | sltu | sra | srav | srl | srlv | sub | subu | sw | swl | swr | xor | xori | syscall
  | unimp | res | special | bcond
  deriving DecidableEq

inductive Format where
  | iFmt
  | jFmt
  | rFmt
  deriving DecidableEq

def opTable : List (OpCode × Format) :=
  [
    (.special, .rFmt), (.bcond, .iFmt), (.j, .jFmt), (.jal, .jFmt), (.beq, .iFmt),
    (.bne, .iFmt), (.blez, .iFmt), (.bgtz, .iFmt), (.addi, .iFmt), (.addiu, .iFmt),
    (.slti, .iFmt), (.sltiu, .iFmt), (.andi, .iFmt), (.ori, .iFmt), (.xori, .iFmt),
    (.lui, .iFmt), (.unimp, .iFmt), (.unimp, .iFmt), (.unimp, .iFmt), (.unimp, .iFmt),
    (.res, .iFmt), (.res, .iFmt), (.res, .iFmt), (.res, .iFmt), (.res, .iFmt), (.res, .iFmt),
    (.res, .iFmt), (.res, .iFmt), (.res, .iFmt), (.res, .iFmt), (.res, .iFmt), (.res, .iFmt),
    (.lb, .iFmt), (.lh, .iFmt), (.lwl, .iFmt), (.lw, .iFmt), (.lbu, .iFmt), (.lhu, .iFmt),
    (.lwr, .iFmt), (.res, .iFmt), (.sb, .iFmt), (.sh, .iFmt), (.swl, .iFmt), (.sw, .iFmt),
    (.res, .iFmt), (.res, .iFmt), (.swr, .iFmt), (.res, .iFmt), (.unimp, .iFmt),
    (.unimp, .iFmt), (.unimp, .iFmt), (.unimp, .iFmt), (.res, .iFmt), (.res, .iFmt),
    (.res, .iFmt), (.res, .iFmt), (.unimp, .iFmt), (.unimp, .iFmt), (.unimp, .iFmt),
    (.unimp, .iFmt), (.res, .iFmt), (.res, .iFmt), (.res, .iFmt), (.res, .iFmt)
  ]

def specialTable : List OpCode :=
  [
    .sll, .res, .srl, .sra, .sllv, .res, .srlv, .srav, .jr, .jalr, .res, .res, .syscall, .unimp,
    .res, .res, .mfhi, .mthi, .mflo, .mtlo, .res, .res, .res, .res, .mult, .multu, .div, .divu,
    .res, .res, .res, .res, .add, .addu, .sub, .subu, .and, .or, .xor, .nor, .res, .res, .slt,
    .sltu, .res, .res, .res, .res, .res, .res, .res, .res, .res, .res, .res, .res, .res, .res,
    .res, .res, .res, .res, .res, .res
  ]

/-- A decoded instruction. -/
structure Instruction where
  opCode : OpCode
  rs : BitVec 5
  rt : BitVec 5
  rd : BitVec 5
  extra : BitVec 32

/-- `Instruction::Decode`. Both tables have an entry for every index. -/
def decode (value : BitVec 32) : Instruction :=
  let (opCode, format) := opTable.getD (value.extractLsb' 26 6).toNat (.unimp, .iFmt)
  {
    opCode :=
      match opCode with
      | .special => specialTable.getD (value.extractLsb' 0 6).toNat .unimp
      | .bcond =>
          let i := value &&& 0x1f0000#32
          if i = 0#32 then .bltz
          else if i = 0x10000#32 then .bgez
          else if i = 0x100000#32 then .bltzal
          else if i = 0x110000#32 then .bgezal
          else .unimp
      | other => other
    rs := value.extractLsb' 21 5
    rt := value.extractLsb' 16 5
    rd := value.extractLsb' 11 5
    extra :=
      match format with
      | .iFmt =>
          let extra := value &&& 0xffff#32
          if extra &&& 0x8000#32 = 0#32 then extra else extra ||| 0xffff0000#32
      | .rFmt => value >>> 6 &&& 0x1f#32
      | .jFmt => value &&& 0x3ffffff#32
  }

-----------------------------------------------------------------------------------------
-- Registers
-----------------------------------------------------------------------------------------

/-- An index below `NumTotalRegs`. -/
abbrev Register := Fin 40

/-- A general purpose register by its number. -/
def gpr (number : BitVec 5) : Register := ⟨number.toNat, by omega⟩

def r31 : Register := 31

def hiReg : Register := 32

def loReg : Register := 33

def pcReg : Register := 34

def nextPCReg : Register := 35

def prevPCReg : Register := 36

def loadReg : Register := 37

def loadValueReg : Register := 38

def badVAddrReg : Register := 39

/-- The members of `Machine` that instructions work on. -/
structure Machine where
  registers : Register → BitVec 32
  mainMemory : Buffer
  pageTable : List TranslationEntry

/-- What instructions raise exceptions for. -/
inductive Trap where
  | syscall
  | memory (which : ExceptionType)
  | overflow
  | illegalInstr
  deriving DecidableEq

/-- Why an instruction does not end: it traps to the kernel, or the simulation stops. -/
inductive Halt where
  | raised (which : Trap)
  | stopped (fault : Fault)
  /-- The division of the host traps. -/
  | divideError
  deriving DecidableEq

def Machine.set (machine : Machine) (register : Register) (value : BitVec 32) : Machine :=
  { machine with registers := Function.update machine.registers register value }

def readRegister (register : Register) : Routine Halt Machine (BitVec 32) := do
  let machine ← get
  return machine.registers register

def writeRegister (register : Register) (value : BitVec 32) : Routine Halt Machine Unit := do
  let machine ← get
  Routine.set (machine.set register value)

/-- `registers[index] = value`. -/
def writeAt (index value : BitVec 32) : Routine Halt Machine Unit :=
  if inside : index.toNat < 40 then writeRegister ⟨index.toNat, inside⟩ value
  else throw (.stopped .outOfBounds)

/-- `DelayedLoad`: finish the load that is pending, and note another. -/
def delayedLoad (nextReg nextValue : BitVec 32) : Routine Halt Machine Unit := do
  let target ← readRegister loadReg
  let value ← readRegister loadValueReg
  writeAt target value
  writeRegister loadReg nextReg
  writeRegister loadValueReg nextValue
  writeRegister (gpr 0#5) 0#32

/-- `RaiseException` up to the call of the handler. -/
def raiseException {α : Type} (which : Trap) (badVAddr : BitVec 32)
    : Routine Halt Machine α := do
  writeRegister badVAddrReg badVAddr
  delayedLoad 0#32 0#32
  throw (.raised which)

-----------------------------------------------------------------------------------------
-- Memory
-----------------------------------------------------------------------------------------

/-- `Translate`, and the exception that its callers raise. -/
def physicalAddress (addr : BitVec 32) (size : Nat) (writing : Bool)
    : Routine Halt Machine Nat := do
  let machine ← get
  match translate machine.pageTable addr.toInt size writing with
  | .error fault => throw (.stopped fault)
  | .ok (.error which) => raiseException (.memory which) addr
  | .ok (.ok (physAddr, pageTable)) =>
      Routine.set { machine with pageTable }
      return physAddr

/-- The word in four bytes, the least significant first. -/
def wordAt (memory : Buffer) (address : Nat) : BitVec 32 :=
  Words.join (memory (address + 3)).toBitVec (memory (address + 2)).toBitVec
    (memory (address + 1)).toBitVec (memory address).toBitVec

/-- Byte `index` of a word. -/
def byteOf (value : BitVec 32) (index : Nat) : Byte := ⟨value.extractLsb' (8 * index) 8⟩

/-- `ReadMem`; a single byte is a signed character. -/
def readMem (addr : BitVec 32) (size : Nat) : Routine Halt Machine (BitVec 32) := do
  let physAddr ← physicalAddress addr size false
  let machine ← get
  let memory := machine.mainMemory
  match size with
  | 1 => return (memory physAddr).toBitVec.signExtend 32
  | 2 =>
      return ((memory (physAddr + 1)).toBitVec ++ (memory physAddr).toBitVec).setWidth 32
  | 4 => return wordAt memory physAddr
  | _ => throw (.stopped .assertion)

/-- `WriteMem`. -/
def writeMem (addr : BitVec 32) (size : Nat) (value : BitVec 32)
    : Routine Halt Machine Unit := do
  let physAddr ← physicalAddress addr size true
  let machine ← get
  let bytes := ofList [byteOf value 0, byteOf value 1, byteOf value 2, byteOf value 3]
  if size = 1 ∨ size = 2 ∨ size = 4 then
    Routine.set { machine with mainMemory := blit machine.mainMemory physAddr bytes size }
  else throw (.stopped .assertion)

-----------------------------------------------------------------------------------------
-- One instruction
-----------------------------------------------------------------------------------------

def signBit : BitVec 32 := 0x80000000#32

def indexToAddr (index : BitVec 32) : BitVec 32 := index <<< 2

/-- What an instruction leaves for its end: the next program counter, and the load that it
begins.
-/
structure Effect where
  pcAfter : BitVec 32
  nextLoadReg : BitVec 32
  nextLoadValue : BitVec 32

section Instructions

variable (instr : Instruction) (pcAfter : BitVec 32)

/-- The instruction begins no load. -/
def continueAt : Effect := { pcAfter, nextLoadReg := 0#32, nextLoadValue := 0#32 }

/-- The instruction begins a load into `rt`. -/
def loading (nextLoadValue : BitVec 32) : Effect :=
  { pcAfter, nextLoadReg := instr.rt.setWidth 32, nextLoadValue }

/-- Store a result and go on. -/
def result (register : Register) (value : BitVec 32) : Routine Halt Machine Effect := do
  writeRegister register value
  return continueAt pcAfter

/-- Store the results in `HiReg` and `LoReg` and go on. -/
def results (hi lo : BitVec 32) : Routine Halt Machine Effect := do
  writeRegister loReg lo
  writeRegister hiReg hi
  return continueAt pcAfter

/-- The case of `OP_DIV`; a quotient that does not fit makes the host trap. -/
def divide (rs rt : BitVec 32) : Routine Halt Machine Effect :=
  if rt = 0#32 then results pcAfter 0#32 0#32
  else if rs = signBit ∧ rt = -1#32 then throw .divideError
  else results pcAfter (rs.srem rt) (rs.sdiv rt)

/-- The case of `OP_DIVU`. -/
def divideUnsigned (rs rt : BitVec 32) : Routine Halt Machine Effect :=
  if rt = 0#32 then results pcAfter 0#32 0#32
  else results pcAfter (rs.umod rt) (rs.udiv rt)

/-- A branch, relative to the instruction after it. -/
def branch (nextPC : BitVec 32) (taken : Bool) : Routine Halt Machine Effect :=
  return continueAt (if taken then nextPC + indexToAddr instr.extra else pcAfter)

/-- The value that a partial load starts from: the one that `rt` is about to have. -/
def forwarded (machine : Machine) : BitVec 32 :=
  if machine.registers loadReg = instr.rt.setWidth 32 then machine.registers loadValueReg
  else machine.registers (gpr instr.rt)

/-- The value that `OP_LWL` loads, from the one before and the word at the address, by the distance
of the address from the end of the word.
-/
def lwl (distance : Nat) (nextLoadValue value : BitVec 32) : BitVec 32 :=
  match distance with
  | 0 => value
  | 1 => nextLoadValue &&& 0xff#32 ||| value <<< 8
  | 2 => nextLoadValue &&& 0xffff#32 ||| value <<< 16
  | 3 => nextLoadValue &&& 0xffffff#32 ||| value <<< 24
  | _ => nextLoadValue

/-- The value that `OP_LWR` loads. -/
def lwr (distance : Nat) (nextLoadValue value : BitVec 32) : BitVec 32 :=
  match distance with
  | 0 => nextLoadValue &&& 0xffffff00#32 ||| value.sshiftRight 24 &&& 0xff#32
  | 1 => nextLoadValue &&& 0xffff0000#32 ||| value.sshiftRight 16 &&& 0xffff#32
  | 2 => nextLoadValue &&& 0xff000000#32 ||| value.sshiftRight 8 &&& 0xffffff#32
  | 3 => value
  | _ => nextLoadValue

/-- The word that `OP_SWL` stores, from the one in memory and the register. -/
def swl (distance : Nat) (value rt : BitVec 32) : BitVec 32 :=
  match distance with
  | 0 => rt
  | 1 => value &&& 0xff000000#32 ||| rt.sshiftRight 8 &&& 0xffffff#32
  | 2 => value &&& 0xffff0000#32 ||| rt.sshiftRight 16 &&& 0xffff#32
  | 3 => value &&& 0xffffff00#32 ||| rt.sshiftRight 24 &&& 0xff#32
  | _ => value

/-- The word that `OP_SWR` stores. -/
def swr (distance : Nat) (value rt : BitVec 32) : BitVec 32 :=
  match distance with
  | 0 => value &&& 0xffffff#32 ||| rt <<< 24
  | 1 => value &&& 0xffff#32 ||| rt <<< 16
  | 2 => value &&& 0xff#32 ||| rt <<< 8
  | 3 => rt
  | _ => value

/-- The cases of `OP_LWL` and `OP_LWR`. -/
def loadPart (merge : Nat → BitVec 32 → BitVec 32 → BitVec 32) (address : BitVec 32)
    : Routine Halt Machine Effect := do
  let byte := address &&& 0x3#32
  let value ← readMem (address - byte) 4
  let machine ← get
  return loading instr pcAfter (merge (3#32 - byte).toNat (forwarded instr machine) value)

/-- The cases of `OP_SWL` and `OP_SWR`. -/
def storePart (merge : Nat → BitVec 32 → BitVec 32 → BitVec 32) (rt address : BitVec 32)
    : Routine Halt Machine Effect := do
  let byte := address &&& 0x3#32
  let value ← readMem (address - byte) 4
  writeMem (address - byte) 4 (merge (3#32 - byte).toNat value rt)
  return continueAt pcAfter

/-- The cases of the instructions that compute. -/
def compute (rs rt : BitVec 32) (machine : Machine) : Routine Halt Machine Effect :=
  let rd := result pcAfter (gpr instr.rd)
  let immediate := result pcAfter (gpr instr.rt)
  let flag (condition : Bool) : BitVec 32 := if condition then 1#32 else 0#32
  match instr.opCode with
  | .add =>
      let sum := rs + rt
      if (rs ^^^ rt) &&& signBit = 0#32 ∧ (rs ^^^ sum) &&& signBit ≠ 0#32 then
        raiseException .overflow 0#32
      else rd sum
  | .addi =>
      let sum := rs + instr.extra
      if (rs ^^^ instr.extra) &&& signBit = 0#32 ∧ (instr.extra ^^^ sum) &&& signBit ≠ 0#32 then
        raiseException .overflow 0#32
      else immediate sum
  | .addiu => immediate (rs + instr.extra)
  | .addu => rd (rs + rt)
  | .and => rd (rs &&& rt)
  | .andi => immediate (rs &&& (instr.extra &&& 0xffff#32))
  | .div => divide pcAfter rs rt
  | .divu => divideUnsigned pcAfter rs rt
  | .lui => immediate (instr.extra <<< 16)
  | .mfhi => rd (machine.registers hiReg)
  | .mflo => rd (machine.registers loReg)
  | .mthi => result pcAfter hiReg rs
  | .mtlo => result pcAfter loReg rs
  | .mult =>
      let (hi, lo) := Machine.mult rs rt true
      results pcAfter hi lo
  | .multu =>
      let (hi, lo) := Machine.mult rs rt false
      results pcAfter hi lo
  | .nor => rd (~~~(rs ||| rt))
  | .or => rd (rs ||| rt)
  | .ori => immediate (rs ||| (instr.extra &&& 0xffff#32))
  | .sll => rd (rt <<< instr.extra.toNat)
  | .sllv => rd (rt <<< (rs &&& 0x1f#32).toNat)
  | .slt => rd (flag (rs.slt rt))
  | .slti => immediate (flag (rs.slt instr.extra))
  | .sltiu => immediate (flag (rs.ult instr.extra))
  | .sltu => rd (flag (rs.ult rt))
  -- All four of these shift a signed integer.
  | .sra => rd (rt.sshiftRight instr.extra.toNat)
  | .srav => rd (rt.sshiftRight (rs &&& 0x1f#32).toNat)
  | .srl => rd (rt.sshiftRight instr.extra.toNat)
  | .srlv => rd (rt.sshiftRight (rs &&& 0x1f#32).toNat)
  | .sub =>
      let diff := rs - rt
      if (rs ^^^ rt) &&& signBit ≠ 0#32 ∧ (rs ^^^ diff) &&& signBit ≠ 0#32 then
        raiseException .overflow 0#32
      else rd diff
  | .subu => rd (rs - rt)
  | .xor => rd (rs ^^^ rt)
  | .xori => immediate (rs ^^^ (instr.extra &&& 0xffff#32))
  | .syscall => raiseException .syscall 0#32
  | .res | .unimp => raiseException .illegalInstr 0#32
  | _ => throw (.stopped .assertion)

/-- The cases of the instructions that branch and jump. -/
def jump (rs rt nextPC : BitVec 32) : Routine Halt Machine Effect :=
  let branch := branch instr pcAfter nextPC
  let target := pcAfter &&& 0xf0000000#32 ||| indexToAddr instr.extra
  match instr.opCode with
  | .beq => branch (rs = rt)
  | .bne => branch (rs ≠ rt)
  | .bgez => branch (rs &&& signBit = 0#32)
  | .bltz => branch (rs &&& signBit ≠ 0#32)
  | .bgtz => branch (BitVec.slt 0#32 rs)
  | .blez => branch (rs.sle 0#32)
  | .bgezal => do
      writeRegister r31 (nextPC + 4#32)
      let rs ← readRegister (gpr instr.rs)
      branch (rs &&& signBit = 0#32)
  | .bltzal => do
      writeRegister r31 (nextPC + 4#32)
      let rs ← readRegister (gpr instr.rs)
      branch (rs &&& signBit ≠ 0#32)
  | .j => return continueAt target
  | .jal => do
      writeRegister r31 (nextPC + 4#32)
      return continueAt target
  | .jr => return continueAt rs
  | .jalr => do
      writeRegister (gpr instr.rd) (nextPC + 4#32)
      let rs ← readRegister (gpr instr.rs)
      return continueAt rs
  | _ => throw (.stopped .assertion)

/-- The cases of the instructions that load and store, at an address. -/
def transfer (rt address : BitVec 32) : Routine Halt Machine Effect :=
  let load := loading instr pcAfter
  match instr.opCode with
  | .lb => do
      let value ← readMem address 1
      return load (if value &&& 0x80#32 ≠ 0#32 then value ||| 0xffffff00#32
        else value &&& 0xff#32)
  | .lbu => do
      let value ← readMem address 1
      return load (value &&& 0xff#32)
  | .lh =>
      if address &&& 0x1#32 ≠ 0#32 then raiseException (.memory .addressErrorException) address
      else do
        let value ← readMem address 2
        return load (if value &&& 0x8000#32 ≠ 0#32 then value ||| 0xffff0000#32
          else value &&& 0xffff#32)
  | .lhu =>
      if address &&& 0x1#32 ≠ 0#32 then raiseException (.memory .addressErrorException) address
      else do
        let value ← readMem address 2
        return load (value &&& 0xffff#32)
  | .lw =>
      if address &&& 0x3#32 ≠ 0#32 then raiseException (.memory .addressErrorException) address
      else do
        let value ← readMem address 4
        return load value
  | .lwl => loadPart instr pcAfter lwl address
  | .lwr => loadPart instr pcAfter lwr address
  | .sb => do
      writeMem address 1 rt
      return continueAt pcAfter
  | .sh => do
      writeMem address 2 rt
      return continueAt pcAfter
  | .sw => do
      writeMem address 4 rt
      return continueAt pcAfter
  | .swl => storePart pcAfter swl rt address
  | .swr => storePart pcAfter swr rt address
  | _ => throw (.stopped .assertion)

/-- The switch of `OneInstruction`. -/
def operate : Routine Halt Machine Effect := do
  let machine ← get
  let rs := machine.registers (gpr instr.rs)
  let rt := machine.registers (gpr instr.rt)
  let nextPC := machine.registers nextPCReg
  let pcAfter := nextPC + 4#32
  match instr.opCode with
  | .beq | .bne | .bgez | .bltz | .bgtz | .blez | .bgezal | .bltzal | .j | .jal | .jr | .jalr =>
      jump instr pcAfter rs rt nextPC
  | .lb | .lbu | .lh | .lhu | .lw | .lwl | .lwr | .sb | .sh | .sw | .swl | .swr =>
      transfer instr pcAfter rt (rs + instr.extra)
  | _ => compute instr pcAfter rs rt machine

end Instructions

/-- The end of `OneInstruction`. -/
def finish (effect : Effect) : Routine Halt Machine Unit := do
  delayedLoad effect.nextLoadReg effect.nextLoadValue
  let pc ← readRegister pcReg
  writeRegister prevPCReg pc
  let nextPC ← readRegister nextPCReg
  writeRegister pcReg nextPC
  writeRegister nextPCReg effect.pcAfter

/-- `OneInstruction`. -/
def oneInstruction : Routine Halt Machine Unit := do
  let pc ← readRegister pcReg
  let raw ← readMem pc 4
  let effect ← operate (decode raw)
  finish effect

-----------------------------------------------------------------------------------------
-- Registers and memory after each part
-----------------------------------------------------------------------------------------

section Runs

variable {machine after : Machine} {register : Register} {value : BitVec 32}

@[simp]
theorem registers_set_self (machine : Machine) (register : Register) (value : BitVec 32)
    : (machine.set register value).registers register = value :=
  Function.update_self ..

theorem registers_set_of_ne {other : Register} (apart : other ≠ register)
    : (machine.set register value).registers other = machine.registers other :=
  Function.update_of_ne apart ..

theorem gpr_injective {left right : BitVec 5} (same : gpr left = gpr right) : left = right :=
  BitVec.eq_of_toNat_eq (Fin.mk.inj same)

/-- The other registers come after the general purpose ones. -/
theorem gpr_ne {special : Register} (above : 32 ≤ special.val) (number : BitVec 5)
    : gpr number ≠ special := by
  rintro rfl
  exact absurd number.isLt (not_lt.mpr above)

theorem registers_set_gpr {number other : BitVec 5}
    : (machine.set (gpr number) value).registers (gpr other)
      = if other = number then value else machine.registers (gpr other) := by
  by_cases same : other = number
  · rw [same, if_pos rfl, registers_set_self]
  · rw [if_neg same, registers_set_of_ne (fun equal => same (gpr_injective equal))]

/-- A register is stored in one place. -/
theorem registers_set_gpr_special {special : Register} (above : 32 ≤ special.val)
    (number : BitVec 5)
    : (machine.set (gpr number) value).registers special = machine.registers special :=
  registers_set_of_ne (gpr_ne above number).symm

theorem registers_set_special_gpr {special : Register} (above : 32 ≤ special.val)
    (number : BitVec 5)
    : (machine.set special value).registers (gpr number) = machine.registers (gpr number) :=
  registers_set_of_ne (gpr_ne above number)

/-- The machine after `DelayedLoad` has finished a load into `pending`. -/
def Machine.loaded (machine : Machine) (pending : BitVec 5) (nextReg nextValue : BitVec 32)
    : Machine :=
  (((machine.set (gpr pending) (machine.registers loadValueReg)).set loadReg nextReg).set
    loadValueReg nextValue).set (gpr 0#5) 0#32

/-- The machine at the next instruction. -/
def Machine.advanced (machine : Machine) (pcAfter : BitVec 32) : Machine :=
  ((machine.set prevPCReg (machine.registers pcReg)).set pcReg
    (machine.registers nextPCReg)).set nextPCReg pcAfter

/-- A register that is given by a number below 32 is a general purpose one. -/
theorem run_writeAt {number : BitVec 5} (value : BitVec 32)
    : (writeAt (number.setWidth 32) value).run machine = (.ok (), machine.set (gpr number) value) := by
  have index : (number.setWidth 32).toNat = number.toNat :=
    BitVec.toNat_setWidth_of_le (by decide)
  have inside : (number.setWidth 32).toNat < 40 := by
    rw [index]
    omega
  have target : (⟨(number.setWidth 32).toNat, inside⟩ : Register) = gpr number := Fin.ext index
  rw [writeAt, dif_pos inside, target]
  rfl

/-- The pending load arrives, and the next one is noted. Witness: the register of the load is a
general purpose one.
-/
theorem run_delayedLoad {pending : BitVec 5}
    (loads : machine.registers loadReg = pending.setWidth 32) (nextReg nextValue : BitVec 32)
    : (delayedLoad nextReg nextValue).run machine
      = (.ok (), machine.loaded pending nextReg nextValue) := by
  have target : (readRegister loadReg).run machine = (.ok (pending.setWidth 32), machine) := by
    rw [← loads]
    rfl
  have value
      : (readRegister loadValueReg).run machine
        = (.ok (machine.registers loadValueReg), machine) :=
    rfl
  rw [delayedLoad, run_bind_ok target, run_bind_ok value, run_bind_ok (run_writeAt _)]
  rfl

theorem run_finish {pending : BitVec 5}
    (loads : machine.registers loadReg = pending.setWidth 32) (effect : Effect)
    : (finish effect).run machine
      = (.ok (),
          (machine.loaded pending effect.nextLoadReg effect.nextLoadValue).advanced
            effect.pcAfter) := by
  rw [finish, run_bind_ok (run_delayedLoad loads _ _)]
  rfl

/-- An exception finishes the load that is pending. -/
theorem run_raiseException {β : Type} {pending : BitVec 5}
    (loads : machine.registers loadReg = pending.setWidth 32) (which : Trap)
    (badVAddr : BitVec 32)
    : (raiseException which badVAddr : Routine Halt Machine β).run machine
      = (.error (.raised which),
          (machine.set badVAddrReg badVAddr).loaded pending 0#32 0#32) := by
  have kept : (machine.set badVAddrReg badVAddr).registers loadReg = pending.setWidth 32 := by
    rw [registers_set_of_ne (by decide), loads]
  have noted
      : (writeRegister badVAddrReg badVAddr).run machine
        = (.ok (), machine.set badVAddrReg badVAddr) :=
    rfl
  rw [raiseException, run_bind_ok noted, run_bind_ok (run_delayedLoad kept _ _)]
  rfl

/-- The general purpose registers after the load that was pending. -/
theorem registers_loaded_gpr (machine : Machine) (pending number : BitVec 5)
    (nextReg nextValue : BitVec 32)
    : (machine.loaded pending nextReg nextValue).registers (gpr number)
      = if number = 0#5 then 0#32
        else if number = pending then machine.registers loadValueReg
        else machine.registers (gpr number) := by
  rw [Machine.loaded, registers_set_gpr, registers_set_special_gpr (by decide),
    registers_set_special_gpr (by decide), registers_set_gpr]

theorem registers_loaded_of_ne {special : Register} (above : 32 ≤ special.val)
    (others : special ≠ loadReg ∧ special ≠ loadValueReg) (pending : BitVec 5)
    (nextReg nextValue : BitVec 32)
    : (machine.loaded pending nextReg nextValue).registers special
      = machine.registers special := by
  rw [Machine.loaded, registers_set_gpr_special above, registers_set_of_ne others.2,
    registers_set_of_ne others.1, registers_set_gpr_special above]

/-- The load that is pending afterwards. -/
theorem registers_loaded_load (machine : Machine) (pending : BitVec 5)
    (nextReg nextValue : BitVec 32)
    : (machine.loaded pending nextReg nextValue).registers loadReg = nextReg
      ∧ (machine.loaded pending nextReg nextValue).registers loadValueReg = nextValue := by
  rw [Machine.loaded]
  constructor
  · rw [registers_set_gpr_special (by decide), registers_set_of_ne (by decide),
      registers_set_self]
  · rw [registers_set_gpr_special (by decide), registers_set_self]

/-- Only the program counters change on the way to the next instruction. -/
theorem registers_advanced_of_ne {register : Register}
    (others : register ≠ pcReg ∧ register ≠ nextPCReg ∧ register ≠ prevPCReg)
    (pcAfter : BitVec 32)
    : (machine.advanced pcAfter).registers register = machine.registers register := by
  rw [Machine.advanced, registers_set_of_ne others.2.1, registers_set_of_ne others.1,
    registers_set_of_ne others.2.2]

theorem registers_advanced_gpr (machine : Machine) (pcAfter : BitVec 32) (number : BitVec 5)
    : (machine.advanced pcAfter).registers (gpr number) = machine.registers (gpr number) :=
  registers_advanced_of_ne
    ⟨gpr_ne (by decide) number, gpr_ne (by decide) number, gpr_ne (by decide) number⟩ pcAfter

theorem registers_advanced_pc (machine : Machine) (pcAfter : BitVec 32)
    : (machine.advanced pcAfter).registers pcReg = machine.registers nextPCReg := by
  rw [Machine.advanced, registers_set_of_ne (by decide), registers_set_self]

/-- An address that translates. -/
theorem run_physicalAddress {addr : BitVec 32} {size physAddr : Nat} {writing : Bool}
    {pageTable : List TranslationEntry}
    (translated
      : translate machine.pageTable addr.toInt size writing = .ok (.ok (physAddr, pageTable)))
    : (physicalAddress addr size writing).run machine
      = (.ok physAddr, { machine with pageTable }) := by
  have unfolded
      : (physicalAddress addr size writing).run machine
        = (match translate machine.pageTable addr.toInt size writing with
          | .error fault => throw (.stopped fault)
          | .ok (.error which) => raiseException (.memory which) addr
          | .ok (.ok (physAddr, pageTable)) => do
              Routine.set { machine with pageTable }
              return physAddr : Routine Halt Machine Nat).run machine :=
    rfl
  rw [unfolded, translated]
  rfl

/-- An exception ends the instruction. -/
theorem not_ok_of_raiseException {β : Type} {which : Trap} {badVAddr : BitVec 32} {done : β}
    : (raiseException which badVAddr : Routine Halt Machine β).run machine ≠ (.ok done, after) := by
  intro returned
  obtain ⟨_, _, _, returned⟩ := of_run_bind_ok returned
  obtain ⟨_, _, _, returned⟩ := of_run_bind_ok returned
  exact nomatch congrArg Prod.fst returned

/-- An address that was used had a translation. -/
theorem exists_of_physicalAddress {addr : BitVec 32} {size physAddr : Nat} {writing : Bool}
    (returned : (physicalAddress addr size writing).run machine = (.ok physAddr, after))
    : ∃ pageTable,
        translate machine.pageTable addr.toInt size writing = .ok (.ok (physAddr, pageTable))
        ∧ after = { machine with pageTable } := by
  rw [physicalAddress, run_bind_ok (run_get machine)] at returned
  cases translated : translate machine.pageTable addr.toInt size writing with
  | error fault =>
      rw [translated] at returned
      exact nomatch congrArg Prod.fst returned
  | ok outcome =>
      rw [translated] at returned
      cases outcome with
      | error which => exact absurd returned not_ok_of_raiseException
      | ok pair =>
          obtain ⟨found, pageTable⟩ := pair
          obtain ⟨same, rfl⟩ := Prod.mk.inj returned
          obtain rfl := Except.ok.inj same
          exact ⟨pageTable, rfl, rfl⟩

/-- Reading memory changes no more than the page table. -/
theorem exists_of_readMem {addr : BitVec 32} {size : Nat}
    (returned : (readMem addr size).run machine = (.ok value, after))
    : ∃ physAddr pageTable,
        translate machine.pageTable addr.toInt size false = .ok (.ok (physAddr, pageTable))
        ∧ after = { machine with pageTable } := by
  obtain ⟨physAddr, middle, translated, returned⟩ := of_run_bind_ok returned
  obtain ⟨pageTable, found, rfl⟩ := exists_of_physicalAddress translated
  refine ⟨physAddr, pageTable, found, ?_⟩
  rw [run_bind_ok (run_get _)] at returned
  split at returned
  · exact (Prod.mk.inj returned).2.symm
  · exact (Prod.mk.inj returned).2.symm
  · exact (Prod.mk.inj returned).2.symm
  · exact nomatch congrArg Prod.fst returned

end Runs

end Nachos.Mips
