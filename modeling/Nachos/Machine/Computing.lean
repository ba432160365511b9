import Nachos.Machine.Mips

/-! The instructions that compute, against what the MIPS-I architecture prescribes for them:
when the simulated processor does the same.
-/

namespace Nachos.Mips
open Routines Routine

-----------------------------------------------------------------------------------------
-- Architecture
-----------------------------------------------------------------------------------------

/-- The registers that the architecture knows. -/
structure Visible where
  general : BitVec 5 → BitVec 32
  hi : BitVec 32
  lo : BitVec 32

/-- Store a result; register 0 stays zero. -/
def Visible.put (before : Visible) (dest : BitVec 5) (value : BitVec 32) : Visible :=
  if dest = 0#5 then before
  else { before with general := Function.update before.general dest value }

/-- The arithmetic, logical, shift, comparison and division instructions, and the moves from and to
HI and LO.
-/
def OpCode.Computes : OpCode → Prop
  | .add | .addi | .addiu | .addu | .and | .andi | .div | .divu | .lui | .mfhi | .mflo | .mthi
  | .mtlo | .nor | .or | .ori | .sll | .sllv | .slt | .slti | .sltiu | .sltu | .sra | .srav
  | .srl | .srlv | .sub | .subu | .xor | .xori => True
  | _ => False

/-- Quotient and remainder of signed numbers, rounded toward zero; anything for a zero divisor. -/
def quotients (before : Visible) (rs rt : BitVec 32) : Option (Visible → Prop) :=
  if rt = 0#32 then some (fun after => after.general = before.general)
  else
    some (·
      = {
        before with
        lo := BitVec.ofInt 32 (rs.toInt.tdiv rt.toInt)
        hi := BitVec.ofInt 32 (rs.toInt.tmod rt.toInt)
      })

def quotientsUnsigned (before : Visible) (rs rt : BitVec 32) : Option (Visible → Prop) :=
  if rt = 0#32 then some (fun after => after.general = before.general)
  else
    some (·
      = {
        before with
        lo := BitVec.ofNat 32 (rs.toNat / rt.toNat)
        hi := BitVec.ofNat 32 (rs.toNat % rt.toNat)
      })

/-- What the registers may be after a computing instruction by the architecture, from the fields of
its word: nothing when it traps on a signed overflow.
-/
def prescribed (op : OpCode) (word : BitVec 32) (before : Visible)
    : Option (Visible → Prop) :=
  let rs := before.general (word.extractLsb' 21 5)
  let rt := before.general (word.extractLsb' 16 5)
  let shamt := (word.extractLsb' 6 5).toNat
  let signed := (word.extractLsb' 0 16).signExtend 32
  let unsigned := (word.extractLsb' 0 16).setWidth 32
  let stores (dest : BitVec 5) (value : BitVec 32) := some (· = before.put dest value)
  let rd := stores (word.extractLsb' 11 5)
  let immediate := stores (word.extractLsb' 16 5)
  let traps (stores : BitVec 32 → Option (Visible → Prop)) (exact : Int) :=
    if CInt.InRange exact then stores (BitVec.ofInt 32 exact) else none
  let flag (condition : Prop) [Decidable condition] : BitVec 32 :=
    if condition then 1#32 else 0#32
  match op with
  | .add => traps rd (rs.toInt + rt.toInt)
  | .addi => traps immediate (rs.toInt + signed.toInt)
  | .addiu => immediate (BitVec.ofInt 32 (rs.toInt + signed.toInt))
  | .addu => rd (BitVec.ofNat 32 (rs.toNat + rt.toNat))
  | .and => rd (rs &&& rt)
  | .andi => immediate (rs &&& unsigned)
  | .div => quotients before rs rt
  | .divu => quotientsUnsigned before rs rt
  | .lui => immediate (word.extractLsb' 0 16 ++ 0#16)
  | .mfhi => rd before.hi
  | .mflo => rd before.lo
  | .mthi => some (· = { before with hi := rs })
  | .mtlo => some (· = { before with lo := rs })
  | .nor => rd (~~~(rs ||| rt))
  | .or => rd (rs ||| rt)
  | .ori => immediate (rs ||| unsigned)
  | .sll => rd (BitVec.ofNat 32 (rt.toNat * 2 ^ shamt))
  | .sllv => rd (BitVec.ofNat 32 (rt.toNat * 2 ^ (rs.toNat % 32)))
  | .slt => rd (flag (rs.toInt < rt.toInt))
  | .slti => immediate (flag (rs.toInt < signed.toInt))
  | .sltiu => immediate (flag (rs.toNat < signed.toNat))
  | .sltu => rd (flag (rs.toNat < rt.toNat))
  | .sra => rd (BitVec.ofInt 32 (rt.toInt / 2 ^ shamt))
  | .srav => rd (BitVec.ofInt 32 (rt.toInt / 2 ^ (rs.toNat % 32)))
  | .srl => rd (BitVec.ofNat 32 (rt.toNat / 2 ^ shamt))
  | .srlv => rd (BitVec.ofNat 32 (rt.toNat / 2 ^ (rs.toNat % 32)))
  | .sub => traps rd (rs.toInt - rt.toInt)
  | .subu => rd (BitVec.ofInt 32 (rs.toInt - rt.toInt))
  | .xor => rd (rs ^^^ rt)
  | .xori => immediate (rs ^^^ unsigned)
  | _ => none

def Machine.visible (machine : Machine) : Visible where
  general number := machine.registers (gpr number)
  hi := machine.registers hiReg
  lo := machine.registers loReg

/-- The processor does with a word what the architecture prescribes: the prescribed registers, with
zero in register 0 and the next instruction next, or an exception with all registers kept.
-/
def Conforms (machine : Machine) (word : BitVec 32) : Prop :=
  match prescribed (decode word).opCode word machine.visible with
  | none =>
      ∃ after,
        oneInstruction.run machine = (.error (.raised .overflow), after)
        ∧ after.visible = machine.visible
  | some allowed =>
      ∃ after,
        oneInstruction.run machine = (.ok (), after)
        ∧ allowed after.visible
        ∧ after.registers (gpr 0#5) = 0#32
        ∧ after.registers pcReg = machine.registers nextPCReg

/-- The instruction does not divide the least integer by -1, and shifts no bits out of a negative
number to the right as if it were not negative, but into register 0.
-/
def Representable (machine : Machine) (word : BitVec 32) : Prop :=
  let instr := decode word
  let rs := machine.registers (gpr instr.rs)
  let rt := machine.registers (gpr instr.rt)
  match instr.opCode with
  | .div => ¬(rs = BitVec.intMin 32 ∧ rt = -1#32)
  | .srl => 0 ≤ rt.toInt ∨ (word.extractLsb' 6 5) = 0#5 ∨ instr.rd = 0#5
  | .srlv => 0 ≤ rt.toInt ∨ rs.toNat % 32 = 0 ∨ instr.rd = 0#5
  | _ => True

/-- An instruction word is next, no load is pending, and register 0 is zero. -/
structure Machine.Fetches (machine : Machine) (word : BitVec 32) (fetched : Machine) : Prop where
  zero : machine.registers (gpr 0#5) = 0#32
  idle : machine.registers loadReg = 0#32
  read : (readMem (machine.registers pcReg) 4).run machine = (.ok word, fetched)

variable {machine fetched : Machine} {word : BitVec 32}

-----------------------------------------------------------------------------------------
-- Ends of instructions
-----------------------------------------------------------------------------------------

theorem Machine.Fetches.registers_eq (fetches : machine.Fetches word fetched)
    : fetched.registers = machine.registers := by
  obtain ⟨_, _, _, rfl⟩ := exists_of_readMem fetches.read
  rfl

/-- Computing instructions are neither branches nor accesses to memory, by cases on them. -/
theorem run_operate {instr : Instruction} (computes : instr.opCode.Computes) (machine : Machine)
    : (operate instr).run machine
      = (compute instr (machine.registers nextPCReg + 4#32) (machine.registers (gpr instr.rs))
          (machine.registers (gpr instr.rt)) machine).run machine := by
  rw [operate, run_bind_ok (run_get machine)]
  dsimp only
  generalize instr.opCode = op at computes
  cases op <;> first | rfl | exact computes.elim

/-- An instruction that stores values and goes on ends with them. -/
theorem Machine.Fetches.run (fetches : machine.Fetches word fetched) {middle : Machine}
    {pcAfter : BitVec 32} (idle : middle.registers loadReg = 0#32)
    (computed
      : (operate (decode word)).run fetched = (.ok (continueAt pcAfter), middle))
    : oneInstruction.run machine
      = (.ok (), (middle.loaded 0#5 0#32 0#32).advanced pcAfter) := by
  have start
      : (readRegister pcReg).run machine = (.ok (machine.registers pcReg), machine) :=
    rfl
  rw [oneInstruction, run_bind_ok start, run_bind_ok fetches.read, run_bind_ok computed]
  exact run_finish idle _

/-- What is visible after the load that was pending: register 0 is zero again. -/
theorem visible_loaded (machine : Machine)
    : (machine.loaded 0#5 0#32 0#32).visible
      = {
        machine.visible with
        general := fun number => if number = 0#5 then 0#32 else machine.registers (gpr number)
      } := by
  have general
      : (fun number => (machine.loaded 0#5 0#32 0#32).registers (gpr number))
        = fun number => if number = 0#5 then 0#32 else machine.registers (gpr number) := by
    funext number
    rw [registers_loaded_gpr]
    by_cases same : number = 0#5
    · rw [if_pos same, if_pos same]
    · rw [if_neg same, if_neg same, if_neg same]
  rw [Machine.visible, general, registers_loaded_of_ne (by decide) (by decide),
    registers_loaded_of_ne (by decide) (by decide)]
  rfl

theorem visible_advanced (machine : Machine) (pcAfter : BitVec 32)
    : (machine.advanced pcAfter).visible = machine.visible := by
  rw [Machine.visible, registers_advanced_of_ne (by decide),
    registers_advanced_of_ne (by decide)]
  simp only [registers_advanced_gpr]
  rfl

/-- Where register 0 is zero in the values, it is enough that the others have them. -/
theorem cleared_eq {registers : Register → BitVec 32} {general : BitVec 5 → BitVec 32}
    (zero : general 0#5 = 0#32)
    (elsewhere : ∀ number ≠ 0#5, registers (gpr number) = general number)
    : (fun number => if number = 0#5 then 0#32 else registers (gpr number)) = general := by
  funext number
  by_cases first : number = 0#5
  · rw [if_pos first, first, zero]
  · rw [if_neg first, elsewhere number first]

/-- A set of results conforms when the registers are allowed at the next instruction. -/
theorem Machine.Fetches.conforms_iff (fetches : machine.Fetches word fetched)
    {allowed : Visible → Prop} {middle : Machine} {pcAfter : BitVec 32}
    (prescribes : prescribed (decode word).opCode word machine.visible = some allowed)
    (idle : middle.registers loadReg = 0#32)
    (next : middle.registers nextPCReg = machine.registers nextPCReg)
    (computed : (operate (decode word)).run fetched = (.ok (continueAt pcAfter), middle))
    : Conforms machine word
      ↔ allowed
          {
            middle.visible with
            general := fun number =>
              if number = 0#5 then 0#32 else middle.registers (gpr number)
          } := by
  have ran := fetches.run idle computed
  rw [Conforms, prescribes]
  constructor
  · rintro ⟨after, returned, here, _⟩
    obtain rfl := (Prod.mk.inj (ran.symm.trans returned)).2
    rwa [visible_advanced, visible_loaded] at here
  · intro here
    refine ⟨_, ran, ?_, ?_, ?_⟩
    · rwa [visible_advanced, visible_loaded]
    · rw [registers_advanced_gpr, registers_loaded_gpr]
      exact if_pos rfl
    · rw [registers_advanced_pc, registers_loaded_of_ne (by decide) (by decide), next]

/-- An instruction with a result in a general purpose register. -/
theorem Machine.Fetches.conforms_iff_of_result (fetches : machine.Fetches word fetched)
    {dest : BitVec 5} {value expected pcAfter : BitVec 32}
    (prescribes
      : prescribed (decode word).opCode word machine.visible
        = some (· = machine.visible.put dest expected))
    (computed
      : (operate (decode word)).run fetched = (result pcAfter (gpr dest) value).run fetched)
    : Conforms machine word ↔ dest = 0#5 ∨ value = expected := by
  have same := fetches.registers_eq
  rw [fetches.conforms_iff prescribes
    ((registers_set_gpr_special (by decide) dest).trans (same ▸ fetches.idle))
    ((registers_set_gpr_special (by decide) dest).trans (same ▸ rfl)) computed]
  have hi : (fetched.set (gpr dest) value).registers hiReg = machine.registers hiReg :=
    (registers_set_gpr_special (by decide) dest).trans (same ▸ rfl)
  have lo : (fetched.set (gpr dest) value).registers loReg = machine.registers loReg :=
    (registers_set_gpr_special (by decide) dest).trans (same ▸ rfl)
  rw [Machine.visible, hi, lo, Visible.put]
  by_cases nowhere : dest = 0#5
  · -- A result for register 0 is lost.
    rw [if_pos nowhere]
    refine iff_of_true ?_ (.inl nowhere)
    have lost (number : BitVec 5) (other : number ≠ 0#5)
        : (fetched.set (gpr dest) value).registers (gpr number)
          = machine.visible.general number := by
      rw [registers_set_gpr, if_neg (nowhere ▸ other), same]
      rfl
    rw [cleared_eq fetches.zero lost]
    rfl
  · rw [if_neg nowhere, or_iff_right nowhere]
    have written (number : BitVec 5) (_ : number ≠ 0#5)
        : (fetched.set (gpr dest) value).registers (gpr number)
          = Function.update machine.visible.general dest value number := by
      rw [registers_set_gpr, same]
      by_cases here : number = dest
      · rw [if_pos here, here, Function.update_self]
      · rw [if_neg here, Function.update_of_ne here]
        rfl
    have zero : Function.update machine.visible.general dest value 0#5 = 0#32 :=
      (Function.update_of_ne (Ne.symm nowhere) ..).trans fetches.zero
    rw [cleared_eq zero written]
    constructor
    · intro equal
      have values
          : Function.update machine.visible.general dest value dest
            = Function.update machine.visible.general dest expected dest :=
        congrFun (congrArg Visible.general equal) dest
      rwa [Function.update_self, Function.update_self] at values
    · rintro rfl
      rfl

/-- An instruction with results in HI and LO only. -/
theorem Machine.Fetches.conforms_iff_of_moved (fetches : machine.Fetches word fetched)
    {allowed : Visible → Prop} (middle : Machine) {pcAfter : BitVec 32}
    (prescribes : prescribed (decode word).opCode word machine.visible = some allowed)
    (kept
      : ∀ register : Register, register ≠ hiReg → register ≠ loReg
        → middle.registers register = fetched.registers register)
    (computed : (operate (decode word)).run fetched = (.ok (continueAt pcAfter), middle))
    : Conforms machine word
      ↔ allowed
          {
            machine.visible with
            hi := middle.registers hiReg
            lo := middle.registers loReg
          } := by
  have same := fetches.registers_eq
  rw [fetches.conforms_iff prescribes
    ((kept _ (by decide) (by decide)).trans (same ▸ fetches.idle))
    ((kept _ (by decide) (by decide)).trans (same ▸ rfl)) computed]
  have others (number : BitVec 5) (_ : number ≠ 0#5)
      : middle.registers (gpr number) = machine.visible.general number := by
    rw [kept _ (gpr_ne (by decide) number) (gpr_ne (by decide) number), same]
    rfl
  rw [cleared_eq fetches.zero others]
  rfl

/-- An instruction that writes `hi` and `lo` conforms when the architecture allows these results. -/
theorem Machine.Fetches.conforms_iff_of_results (fetches : machine.Fetches word fetched)
    {allowed : Visible → Prop} {hi lo pcAfter : BitVec 32}
    (prescribes : prescribed (decode word).opCode word machine.visible = some allowed)
    (computed
      : (operate (decode word)).run fetched = (results pcAfter hi lo).run fetched)
    : Conforms machine word ↔ allowed { machine.visible with hi, lo } := by
  have moved :=
    fetches.conforms_iff_of_moved ((fetched.set loReg lo).set hiReg hi) prescribes
      (fun register notHi notLo => by
        rw [registers_set_of_ne notHi, registers_set_of_ne notLo])
      computed
  rwa [registers_set_self, registers_set_of_ne (by decide), registers_set_self] at moved

/-- An instruction that traps on an overflow. -/
theorem Machine.Fetches.conforms_of_overflow (fetches : machine.Fetches word fetched)
    (prescribes : prescribed (decode word).opCode word machine.visible = none)
    (computed
      : (operate (decode word)).run fetched
        = (raiseException .overflow 0#32 : Routine Halt Machine Effect).run fetched)
    : Conforms machine word := by
  have same := fetches.registers_eq
  have start
      : (readRegister pcReg).run machine = (.ok (machine.registers pcReg), machine) :=
    rfl
  have idle : fetched.registers loadReg = (0#5).setWidth 32 := same ▸ fetches.idle
  rw [run_raiseException idle] at computed
  have ran
      : oneInstruction.run machine
        = (.error (.raised .overflow), (fetched.set badVAddrReg 0#32).loaded 0#5 0#32 0#32) := by
    rw [oneInstruction, run_bind_ok start, run_bind_ok fetches.read, run_bind_error computed]
  have others (number : BitVec 5) (_ : number ≠ 0#5)
      : (fetched.set badVAddrReg 0#32).registers (gpr number) = machine.visible.general number := by
    rw [registers_set_special_gpr (by decide), same]
    rfl
  rw [Conforms, prescribes]
  refine ⟨_, ran, ?_⟩
  rw [visible_loaded, cleared_eq fetches.zero others, Machine.visible, registers_set_of_ne (by decide),
    registers_set_of_ne (by decide), same]
  rfl

end Nachos.Mips
