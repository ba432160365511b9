import Nachos.Machine.Computing

/-! Every computing instruction of the processor, held against the architecture. -/

namespace Nachos.Mips
open Bytes Routines Routine

-----------------------------------------------------------------------------------------
-- Decoding
-----------------------------------------------------------------------------------------

/-- What `Decode` stores for the format of an instruction. -/
def extraOf (value : BitVec 32) : Format → BitVec 32
  | .iFmt => (value.extractLsb' 0 16).signExtend 32
  | .rFmt => (value.extractLsb' 6 5).setWidth 32
  | .jFmt => value &&& 0x3ffffff#32

theorem shamt_eq (value : BitVec 32)
    : value >>> 6 &&& 0x1f#32 = (value.extractLsb' 6 5).setWidth 32 := by
  apply BitVec.eq_of_toNat_eq
  rw [@Words.toNat_and_low _ 0x1f#32 5 rfl, BitVec.toNat_setWidth_of_le (by decide)]
  simp

/-- The field `extra` depends on the format in the opcode table, by cases on it. -/
theorem decode_extra (value : BitVec 32)
    : (decode value).extra
      = extraOf value (opTable.getD (value.extractLsb' 26 6).toNat (.unimp, .iFmt)).2 := by
  unfold decode
  generalize opTable.getD (value.extractLsb' 26 6).toNat (.unimp, .iFmt) = entry
  obtain ⟨_, format⟩ := entry
  cases format with
  | iFmt => exact Words.signExtend_low_half value
  | rFmt => exact shamt_eq value
  | jFmt => rfl

/-- An instruction has its code and its format from one entry of the table, from the second table,
or from the branch conditions.
-/
theorem decode_cases (value : BitVec 32)
    : (∃ format,
        ((decode value).opCode, format) ∈ opTable ∧ (decode value).extra = extraOf value format)
      ∨ ((decode value).opCode ∈ specialTable ∧ (decode value).extra = extraOf value .rFmt)
      ∨ (decode value).opCode ∈ [OpCode.bltz, .bgez, .bltzal, .bgezal, .unimp] := by
  have inside : (value.extractLsb' 26 6).toNat < opTable.length :=
    (value.extractLsb' 26 6).isLt
  have inside' : (value.extractLsb' 0 6).toNat < specialTable.length :=
    (value.extractLsb' 0 6).isLt
  have special : ∀ entry ∈ opTable, entry.1 = .special → entry.2 = .rFmt := by decide
  have member := List.getElem_mem inside
  rw [decode_extra, decode, List.getD_eq_getElem _ _ inside, List.getD_eq_getElem _ _ inside']
  generalize opTable[(value.extractLsb' 26 6).toNat] = entry at member
  obtain ⟨opCode, format⟩ := entry
  cases opCode with
  | special =>
      obtain rfl : format = .rFmt := special _ member rfl
      exact .inr (.inl ⟨List.getElem_mem inside', rfl⟩)
  | bcond =>
      right
      right
      dsimp only
      split_ifs <;> decide
  | _ => exact .inl ⟨format, member, rfl⟩

/-- Instructions with an immediate operand. -/
def OpCode.HasImmediate (op : OpCode) : Prop :=
  op ∈ [.addi, .addiu, .andi, .lui, .ori, .slti, .sltiu, .xori]

instance (op : OpCode) : Decidable op.HasImmediate :=
  inferInstanceAs (Decidable (op ∈ _))

/-- Instructions with an immediate value have its sign extension in `extra`, by search in the
tables of opcodes.
-/
theorem extra_of_hasImmediate {value : BitVec 32} (immediate : (decode value).opCode.HasImmediate)
    : (decode value).extra = (value.extractLsb' 0 16).signExtend 32 := by
  have table : ∀ entry ∈ opTable, entry.1.HasImmediate → entry.2 = .iFmt := by decide
  have others : ∀ op ∈ specialTable, ¬op.HasImmediate := by decide
  have branches
      : ∀ op ∈ [OpCode.bltz, .bgez, .bltzal, .bgezal, .unimp], ¬op.HasImmediate := by
    decide
  rcases decode_cases value with ⟨format, member, extra⟩ | ⟨member, _⟩ | member
  · obtain rfl : format = .iFmt := table _ member immediate
    exact extra
  · exact absurd immediate (others _ member)
  · exact absurd immediate (branches _ member)

/-- Instructions with the amount of a shift in their word. -/
def OpCode.HasShamt (op : OpCode) : Prop := op ∈ [.sll, .sra, .srl]

instance (op : OpCode) : Decidable op.HasShamt := inferInstanceAs (Decidable (op ∈ _))

/-- Shifts by a constant have it in `extra`, by search in the tables of opcodes. -/
theorem extra_of_hasShamt {value : BitVec 32} (shifts : (decode value).opCode.HasShamt)
    : (decode value).extra.toNat = (value.extractLsb' 6 5).toNat := by
  have table : ∀ entry ∈ opTable, ¬entry.1.HasShamt := by decide
  have branches : ∀ op ∈ [OpCode.bltz, .bgez, .bltzal, .bgezal, .unimp], ¬op.HasShamt := by
    decide
  rcases decode_cases value with ⟨format, member, _⟩ | ⟨_, extra⟩ | member
  · exact absurd shifts (table _ member)
  · rw [extra]
    exact BitVec.toNat_setWidth_of_le (by decide)
  · exact absurd shifts (branches _ member)

/-- The instruction that a word is decoded to, with its code and its extra bits. -/
def instructionOf (value : BitVec 32) (opCode : OpCode) (extra : BitVec 32) : Instruction where
  opCode
  rs := value.extractLsb' 21 5
  rt := value.extractLsb' 16 5
  rd := value.extractLsb' 11 5
  extra

section Decoded

variable {word : BitVec 32} {op : OpCode}

theorem decode_eq (code : (decode word).opCode = op)
    : decode word = instructionOf word op (decode word).extra := by
  subst code
  rfl

theorem decode_eq_of_hasImmediate (code : (decode word).opCode = op) (immediate : op.HasImmediate)
    : decode word = instructionOf word op ((word.extractLsb' 0 16).signExtend 32) := by
  subst code
  rw [← extra_of_hasImmediate immediate]
  rfl

end Decoded

-----------------------------------------------------------------------------------------
-- Instructions by their codes
-----------------------------------------------------------------------------------------

section Codes

variable {machine fetched : Machine} {word extra : BitVec 32} {op : OpCode}

/-- The computation of an instruction with the registers that it names. -/
def computation (machine fetched : Machine) (instr : Instruction) : Routine Halt Machine Effect :=
  compute instr (machine.registers nextPCReg + 4#32) (machine.registers (gpr instr.rs))
    (machine.registers (gpr instr.rt)) fetched

theorem Machine.Fetches.run_operate (fetches : machine.Fetches word fetched)
    (decoded : decode word = instructionOf word op extra) (computes : op.Computes)
    : (operate (decode word)).run fetched
      = (computation machine fetched (instructionOf word op extra)).run fetched := by
  rw [decoded, Mips.run_operate computes, fetches.registers_eq]
  rfl

/-- An instruction with a result conforms when it is the expected one, or goes to register 0. -/
theorem Machine.Fetches.conforms_iff_of_stored (fetches : machine.Fetches word fetched)
    (decoded : decode word = instructionOf word op extra) (computes : op.Computes)
    {dest : BitVec 5} {value expected pcAfter : BitVec 32}
    (computed
      : computation machine fetched (instructionOf word op extra)
        = result pcAfter (gpr dest) value)
    (prescribes
      : prescribed op word machine.visible = some (· = machine.visible.put dest expected))
    : Conforms machine word ↔ dest = 0#5 ∨ value = expected := by
  have code : (decode word).opCode = op := decoded ▸ rfl
  have ran := fetches.run_operate decoded computes
  rw [computed] at ran
  exact fetches.conforms_iff_of_result (code ▸ prescribes) ran

theorem Machine.Fetches.conforms_of_stored (fetches : machine.Fetches word fetched)
    (decoded : decode word = instructionOf word op extra) (computes : op.Computes)
    {dest : BitVec 5} {value expected pcAfter : BitVec 32}
    (computed
      : computation machine fetched (instructionOf word op extra)
        = result pcAfter (gpr dest) value)
    (prescribes
      : prescribed op word machine.visible = some (· = machine.visible.put dest expected))
    (same : value = expected)
    : Conforms machine word :=
  (fetches.conforms_iff_of_stored decoded computes computed prescribes).mpr (.inr same)

/-- An instruction that traps exactly when its result does not fit. -/
theorem Machine.Fetches.conforms_of_checked (fetches : machine.Fetches word fetched)
    (decoded : decode word = instructionOf word op extra) (computes : op.Computes)
    {dest : BitVec 5} {value pcAfter : BitVec 32} {exact : Int} {overflows : Prop}
    [Decidable overflows]
    (computed
      : computation machine fetched (instructionOf word op extra)
        = if overflows then raiseException .overflow 0#32
          else result pcAfter (gpr dest) value)
    (prescribes
      : prescribed op word machine.visible
        = if CInt.InRange exact then
            some (· = machine.visible.put dest (BitVec.ofInt 32 exact))
          else none)
    (detects : overflows ↔ ¬CInt.InRange exact) (same : value = BitVec.ofInt 32 exact)
    : Conforms machine word := by
  have code : (decode word).opCode = op := decoded ▸ rfl
  by_cases fits : CInt.InRange exact
  · rw [if_neg (fun overflow => detects.mp overflow fits)] at computed
    rw [if_pos fits] at prescribes
    exact fetches.conforms_of_stored decoded computes computed prescribes same
  · rw [if_pos (detects.mpr fits)] at computed
    rw [if_neg fits] at prescribes
    have ran := fetches.run_operate decoded computes
    rw [computed] at ran
    exact fetches.conforms_of_overflow (code ▸ prescribes) ran

/-- Bits one by one: immediate operands have zeros in their upper halves. -/
theorem conforms_of_logical (fetches : machine.Fetches word fetched)
    (code : (decode word).opCode = op)
    (logical : op ∈ [OpCode.and, .andi, .lui, .nor, .or, .ori, .xor, .xori])
    : Conforms machine word := by
  cases op with
  | and | nor | or | xor => exact fetches.conforms_of_stored (decode_eq code) trivial rfl rfl rfl
  | andi =>
      exact fetches.conforms_of_stored (decode_eq_of_hasImmediate code (by decide)) trivial rfl rfl
        (congrArg (HAnd.hAnd _) (Words.signExtend_and_low_half _))
  | ori =>
      exact fetches.conforms_of_stored (decode_eq_of_hasImmediate code (by decide)) trivial rfl rfl
        (congrArg (HOr.hOr _) (Words.signExtend_and_low_half _))
  | xori =>
      exact fetches.conforms_of_stored (decode_eq_of_hasImmediate code (by decide)) trivial rfl rfl
        (congrArg (HXor.hXor _) (Words.signExtend_and_low_half _))
  | lui =>
      exact fetches.conforms_of_stored (decode_eq_of_hasImmediate code (by decide)) trivial rfl rfl
        (Words.signExtend_shiftLeft_half _)
  | _ => exact absurd logical (by decide)

theorem flag_eq_ite (condition : Prop) [Decidable condition]
    : (if decide condition = true then 1#32 else 0#32) = if condition then 1#32 else 0#32 := by
  simp only [decide_eq_true_eq]

/-- Comparisons: the immediate operand of both kinds has the sign of its upper bit. -/
theorem conforms_of_comparison (fetches : machine.Fetches word fetched)
    (code : (decode word).opCode = op) (compares : op ∈ [OpCode.slt, .slti, .sltiu, .sltu])
    : Conforms machine word := by
  cases op with
  | slt | sltu =>
      exact fetches.conforms_of_stored (decode_eq code) trivial rfl rfl (flag_eq_ite _)
  | slti | sltiu =>
      exact fetches.conforms_of_stored (decode_eq_of_hasImmediate code (by decide)) trivial rfl rfl
        (flag_eq_ite _)
  | _ => exact absurd compares (by decide)

/-- Sums and differences that wrap. -/
theorem conforms_of_wrapping (fetches : machine.Fetches word fetched)
    (code : (decode word).opCode = op) (wraps : op ∈ [OpCode.addiu, .addu, .subu])
    : Conforms machine word := by
  cases op with
  | addiu =>
      exact fetches.conforms_of_stored (decode_eq_of_hasImmediate code (by decide)) trivial rfl rfl
        (Words.ofInt_add _ _).symm
  | addu =>
      exact fetches.conforms_of_stored (decode_eq code) trivial rfl rfl
        (Words.ofNat_add _ _).symm
  | subu =>
      exact fetches.conforms_of_stored (decode_eq code) trivial rfl rfl
        (Words.ofInt_sub _ _).symm
  | _ => exact absurd wraps (by decide)

/-- Sums and differences that trap when they do not fit. -/
theorem conforms_of_trapping (fetches : machine.Fetches word fetched)
    (code : (decode word).opCode = op) (traps : op ∈ [OpCode.add, .addi, .sub])
    : Conforms machine word := by
  cases op with
  | add =>
      exact fetches.conforms_of_checked (decode_eq code) trivial rfl rfl
        (Words.add_overflows_iff _ _) (Words.ofInt_add _ _).symm
  | addi =>
      -- The sum is held against the sign of the second operand here.
      apply fetches.conforms_of_checked (decode_eq_of_hasImmediate code (by decide)) trivial rfl
        rfl _ (Words.ofInt_add _ _).symm
      rw [BitVec.xor_comm, BitVec.add_comm, Int.add_comm]
      exact Words.add_overflows_iff _ _
  | sub =>
      exact fetches.conforms_of_checked (decode_eq code) trivial rfl rfl
        (Words.sub_overflows_iff _ _) (Words.ofInt_sub _ _).symm
  | _ => exact absurd traps (by decide)

theorem low_five_bits (value : BitVec 32) : (value &&& 0x1f#32).toNat = value.toNat % 32 :=
  @Words.toNat_and_low value 0x1f#32 5 rfl

/-- Shifts to the left, and shifts to the right that keep the sign. -/
theorem conforms_of_shift (fetches : machine.Fetches word fetched)
    (code : (decode word).opCode = op) (shifts : op ∈ [OpCode.sll, .sllv, .sra, .srav])
    : Conforms machine word := by
  cases op with
  | sll =>
      apply fetches.conforms_of_stored (decode_eq code) trivial rfl rfl
      rw [instructionOf, Words.shiftLeft_eq, extra_of_hasShamt (code ▸ by decide)]
      rfl
  | sllv =>
      apply fetches.conforms_of_stored (decode_eq code) trivial rfl rfl
      rw [Words.shiftLeft_eq, low_five_bits]
      rfl
  | sra =>
      apply fetches.conforms_of_stored (decode_eq code) trivial rfl rfl
      rw [instructionOf, Words.sshiftRight_eq, extra_of_hasShamt (code ▸ by decide)]
      rfl
  | srav =>
      apply fetches.conforms_of_stored (decode_eq code) trivial rfl rfl
      rw [Words.sshiftRight_eq, low_five_bits]
      rfl
  | _ => exact absurd shifts (by decide)

/-- The shifts to the right that should not keep the sign, but do. -/
theorem conforms_iff_of_srl (fetches : machine.Fetches word fetched)
    (code : (decode word).opCode = .srl)
    : Conforms machine word
      ↔ 0 ≤ (machine.registers (gpr (word.extractLsb' 16 5))).toInt
        ∨ word.extractLsb' 6 5 = 0#5
        ∨ word.extractLsb' 11 5 = 0#5 := by
  have amount := extra_of_hasShamt (code ▸ by decide : (decode word).opCode.HasShamt)
  have none : word.extractLsb' 6 5 = 0#5 ↔ (word.extractLsb' 6 5).toNat = 0 :=
    BitVec.toNat_inj.symm
  have stored := fetches.conforms_iff_of_stored (decode_eq code) trivial rfl rfl
  dsimp only [instructionOf] at stored
  rw [amount] at stored
  rw [stored, none, ← or_assoc, or_comm]
  exact or_congr_left (Words.sshiftRight_eq_div_iff _ _)

/-- The arithmetic shift of the code is the logical one only for a word that is not negative, or by
no bits, or when the result is dropped.
-/
theorem conforms_iff_of_srlv (fetches : machine.Fetches word fetched)
    (code : (decode word).opCode = .srlv)
    : Conforms machine word
      ↔ 0 ≤ (machine.registers (gpr (word.extractLsb' 16 5))).toInt
        ∨ (machine.registers (gpr (word.extractLsb' 21 5))).toNat % 32 = 0
        ∨ word.extractLsb' 11 5 = 0#5 := by
  have stored := fetches.conforms_iff_of_stored (decode_eq code) trivial rfl rfl
  dsimp only [instructionOf] at stored
  rw [low_five_bits] at stored
  rw [stored, ← or_assoc, or_comm]
  exact or_congr_left (Words.sshiftRight_eq_div_iff _ _)

/-- Moves from and to HI and LO. -/
theorem conforms_of_move (fetches : machine.Fetches word fetched)
    (code : (decode word).opCode = op) (moves : op ∈ [OpCode.mfhi, .mflo, .mthi, .mtlo])
    : Conforms machine word := by
  have kept := fetches.registers_eq
  cases op with
  | mfhi | mflo =>
      exact fetches.conforms_of_stored (decode_eq code) trivial rfl rfl (congrFun kept _)
  | mthi =>
      have prescribes
          : prescribed (decode word).opCode word machine.visible
            = some (·
              = { machine.visible with hi := machine.registers (gpr (word.extractLsb' 21 5)) }) := by
        rw [code]
        rfl
      have ran := fetches.run_operate (decode_eq code) trivial
      apply (fetches.conforms_iff_of_moved (fetched.set hiReg _) prescribes
        (fun register other _ => registers_set_of_ne other) ran).mpr
      rw [registers_set_self, registers_set_of_ne (by decide), kept]
      rfl
  | mtlo =>
      have prescribes
          : prescribed (decode word).opCode word machine.visible
            = some (·
              = { machine.visible with lo := machine.registers (gpr (word.extractLsb' 21 5)) }) := by
        rw [code]
        rfl
      have ran := fetches.run_operate (decode_eq code) trivial
      apply (fetches.conforms_iff_of_moved (fetched.set loReg _) prescribes
        (fun register _ other => registers_set_of_ne other) ran).mpr
      rw [registers_set_self, registers_set_of_ne (by decide), kept]
      rfl
  | _ => exact absurd moves (by decide)

/-- An instruction that makes the host trap does not conform. -/
theorem Machine.Fetches.not_conforms_of_divideError (fetches : machine.Fetches word fetched)
    {allowed : Visible → Prop}
    (prescribes : prescribed (decode word).opCode word machine.visible = some allowed)
    (computed : (operate (decode word)).run fetched = (.error .divideError, fetched))
    : ¬Conforms machine word := by
  have start
      : (readRegister pcReg).run machine = (.ok (machine.registers pcReg), machine) :=
    rfl
  have ran : oneInstruction.run machine = (.error .divideError, fetched) := by
    rw [oneInstruction, run_bind_ok start, run_bind_ok fetches.read, run_bind_error computed]
  rw [Conforms, prescribes]
  rintro ⟨after, returned, _⟩
  cases congrArg Prod.fst (ran.symm.trans returned)

/-- The division by the host, unless it is by zero. -/
theorem conforms_iff_of_div (fetches : machine.Fetches word fetched)
    (code : (decode word).opCode = .div)
    : Conforms machine word
      ↔ ¬(machine.registers (gpr (word.extractLsb' 21 5)) = BitVec.intMin 32
          ∧ machine.registers (gpr (word.extractLsb' 16 5)) = -1#32) := by
  have ran := fetches.run_operate (decode_eq code) trivial
  have prescribes
      : prescribed (decode word).opCode word machine.visible
        = prescribed .div word machine.visible := by
    rw [code]
  change _ = (divide _ (machine.registers (gpr (word.extractLsb' 21 5)))
    (machine.registers (gpr (word.extractLsb' 16 5)))).run fetched at ran
  change _ = quotients machine.visible (machine.registers (gpr (word.extractLsb' 21 5)))
    (machine.registers (gpr (word.extractLsb' 16 5))) at prescribes
  generalize machine.registers (gpr (word.extractLsb' 21 5)) = rs at ran prescribes ⊢
  generalize machine.registers (gpr (word.extractLsb' 16 5)) = rt at ran prescribes ⊢
  unfold divide at ran
  unfold quotients at prescribes
  by_cases zero : rt = 0#32
  · rw [if_pos zero] at ran prescribes
    refine iff_of_true ((fetches.conforms_iff_of_results prescribes ran).mpr rfl) ?_
    rintro ⟨_, least⟩
    exact absurd (zero.symm.trans least) (by decide)
  · rw [if_neg zero] at ran prescribes
    by_cases least : rs = signBit ∧ rt = -1#32
    · rw [if_pos least] at ran
      exact iff_of_false (fetches.not_conforms_of_divideError prescribes ran) (not_not.mpr least)
    · rw [if_neg least] at ran
      refine iff_of_true ((fetches.conforms_iff_of_results prescribes ran).mpr ?_) least
      rw [← Words.ofInt_tdiv, ← Words.ofInt_tmod]

/-- Unsigned division conforms for every divisor, zero included. -/
theorem conforms_of_divu (fetches : machine.Fetches word fetched)
    (code : (decode word).opCode = .divu)
    : Conforms machine word := by
  have ran := fetches.run_operate (decode_eq code) trivial
  have prescribes
      : prescribed (decode word).opCode word machine.visible
        = prescribed .divu word machine.visible := by
    rw [code]
  change _ = (divideUnsigned _ (machine.registers (gpr (word.extractLsb' 21 5)))
    (machine.registers (gpr (word.extractLsb' 16 5)))).run fetched at ran
  change _ = quotientsUnsigned machine.visible (machine.registers (gpr (word.extractLsb' 21 5)))
    (machine.registers (gpr (word.extractLsb' 16 5))) at prescribes
  generalize machine.registers (gpr (word.extractLsb' 21 5)) = rs at ran prescribes
  generalize machine.registers (gpr (word.extractLsb' 16 5)) = rt at ran prescribes
  unfold divideUnsigned at ran
  unfold quotientsUnsigned at prescribes
  by_cases zero : rt = 0#32
  · rw [if_pos zero] at ran prescribes
    exact (fetches.conforms_iff_of_results prescribes ran).mpr rfl
  · rw [if_neg zero] at ran prescribes
    apply (fetches.conforms_iff_of_results prescribes ran).mpr
    rw [← Words.ofNat_div, ← Words.ofNat_mod]

/-- The computing instructions do what the architecture prescribes, but for two: logical shifts to
the right of negative numbers, and the one quotient that does not fit.
-/
theorem conforms_iff_representable (fetches : machine.Fetches word fetched)
    (computes : (decode word).opCode.Computes)
    : Conforms machine word ↔ Representable machine word := by
  rw [Representable]
  cases code : (decode word).opCode with
  | add | addi | sub => exact iff_of_true (conforms_of_trapping fetches code (by decide)) trivial
  | addiu | addu | subu =>
      exact iff_of_true (conforms_of_wrapping fetches code (by decide)) trivial
  | and | andi | lui | nor | or | ori | xor | xori =>
      exact iff_of_true (conforms_of_logical fetches code (by decide)) trivial
  | slt | slti | sltiu | sltu =>
      exact iff_of_true (conforms_of_comparison fetches code (by decide)) trivial
  | sll | sllv | sra | srav =>
      exact iff_of_true (conforms_of_shift fetches code (by decide)) trivial
  | mfhi | mflo | mthi | mtlo =>
      exact iff_of_true (conforms_of_move fetches code (by decide)) trivial
  | divu => exact iff_of_true (conforms_of_divu fetches code) trivial
  | div => exact conforms_iff_of_div fetches code
  | srl => exact conforms_iff_of_srl fetches code
  | srlv => exact conforms_iff_of_srlv fetches code
  | _ =>
      rw [code] at computes
      exact computes.elim

end Codes

/-- A machine with one page, an instruction at its start, and values in registers 1 and 2. -/
def running (word first second : BitVec 32) : Machine where
  registers register :=
    if register = gpr 1#5 then first else if register = gpr 2#5 then second else 0#32
  mainMemory := ofList [byteOf word 0, byteOf word 1, byteOf word 2, byteOf word 3]
  pageTable :=
    [
      {
        virtualPage := 0
        physicalPage := 0
        valid := true
        readOnly := false
        use := true
        dirty := false
      }
    ]

/-- The machine of the witnesses fetches its word: the four bytes are joined again. -/
theorem running_fetches (word first second : BitVec 32)
    : (running word first second).Fetches word (running word first second) where
  zero := rfl
  idle := rfl
  read := by
    have read
        : (readMem 0#32 4).run (running word first second)
          = (.ok (Words.join (word.extractLsb' 24 8) (word.extractLsb' 16 8)
              (word.extractLsb' 8 8) (word.extractLsb' 0 8)), running word first second) :=
      rfl
    rwa [Words.join_bytes] at read

/-- `srl $2, $1, 4` of a number that is not negative. -/
theorem conforms_iff_representable_of_srl
    : Conforms (running 0x00011102#32 0x123#32 0#32) 0x00011102#32
      ↔ Representable (running 0x00011102#32 0x123#32 0#32) 0x00011102#32 :=
  conforms_iff_representable (running_fetches _ _ _) trivial

/-- `srl $2, $1, 4` of a negative number, and `div $1, $2` of the least integer by -1. -/
theorem not_conforms_of_negative
    : ((decode 0x00011102#32).opCode = .srl
        ∧ (running 0x00011102#32 0x80000000#32 0#32).Fetches 0x00011102#32
          (running 0x00011102#32 0x80000000#32 0#32)
        ∧ ¬Conforms (running 0x00011102#32 0x80000000#32 0#32) 0x00011102#32)
      ∧ (decode 0x0022001a#32).opCode = .div
        ∧ (running 0x0022001a#32 0x80000000#32 0xffffffff#32).Fetches 0x0022001a#32
          (running 0x0022001a#32 0x80000000#32 0xffffffff#32)
        ∧ ¬Conforms (running 0x0022001a#32 0x80000000#32 0xffffffff#32) 0x0022001a#32 := by
  refine ⟨⟨by decide, running_fetches _ _ _, ?_⟩, by decide, running_fetches _ _ _, ?_⟩
  · rw [conforms_iff_of_srl (running_fetches _ _ _) (by decide)]
    decide
  · rw [conforms_iff_of_div (running_fetches _ _ _) (by decide)]
    decide

end Nachos.Mips
