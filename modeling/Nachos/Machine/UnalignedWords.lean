import Mathlib.Tactic.IntervalCases
import Nachos.Machine.Translation

/-! Words at any address: the pairs of instructions that store and load one in two parts. -/

namespace Nachos.Mips
open Bytes UserProg Routines Routine

-----------------------------------------------------------------------------------------
-- Bytes of the parts
-----------------------------------------------------------------------------------------

section Parts

variable {distance index : Nat} (before value : BitVec 32)

theorem byteOf_wordAt (memory : Buffer) (place : Nat) (inside : index < 4)
    : byteOf (wordAt memory place) index = memory (place + index) := by
  interval_cases index <;> simp [byteOf, wordAt]

/-- The upper bytes of a load come from the beginning of the word. -/
theorem byteOf_lwl (near : distance < 4) (inside : index < 4)
    : byteOf (lwl distance before value) index
      = if distance ≤ index then byteOf value (index - distance) else byteOf before index := by
  interval_cases distance <;> interval_cases index <;>
    simp [byteOf, lwl, BitVec.extractLsb'_or, BitVec.extractLsb'_and,
      Words.extract_shiftLeft, Words.extract_shiftLeft_below, Words.and_byte]

/-- The lower bytes of a load come from the end of the word. -/
theorem byteOf_lwr (near : distance < 4) (inside : index < 4)
    : byteOf (lwr distance before value) index
      = if index ≤ distance then byteOf value (index + 3 - distance)
        else byteOf before index := by
  interval_cases distance <;> interval_cases index <;>
    simp [byteOf, lwr, BitVec.extractLsb'_or, BitVec.extractLsb'_and,
      Words.extract_sshiftRight, Words.and_byte]

/-- The upper bytes of a register go to the beginning of the word. -/
theorem byteOf_swl (near : distance < 4) (inside : index < 4)
    : byteOf (swl distance before value) index
      = if index + distance < 4 then byteOf value (index + distance) else byteOf before index := by
  interval_cases distance <;> interval_cases index <;>
    simp [byteOf, swl, BitVec.extractLsb'_or, BitVec.extractLsb'_and,
      Words.extract_sshiftRight, Words.and_byte]

/-- The lower bytes of a register go to the end of the word. -/
theorem byteOf_swr (near : distance < 4) (inside : index < 4)
    : byteOf (swr distance before value) index
      = if 3 ≤ index + distance then byteOf value (index + distance - 3)
        else byteOf before index := by
  interval_cases distance <;> interval_cases index <;>
    simp [byteOf, swr, BitVec.extractLsb'_or, BitVec.extractLsb'_and,
      Words.extract_shiftLeft, Words.extract_shiftLeft_below, Words.and_byte]

/-- A byte after a store of a word: one of its four, or the one before. -/
theorem stored_apply (memory : Buffer) (place byte : Nat)
    : stored memory place value byte
      = if place ≤ byte ∧ byte < place + 4 then byteOf value (byte - place) else memory byte := by
  unfold stored blit
  split_ifs with inside
  · have small : byte - place < 4 := by omega
    generalize byte - place = index at small
    interval_cases index <;> rfl
  · rfl

/-- Memory after the upper part of a value is stored. -/
theorem stored_swl (memory : Buffer) (place byte : Nat) (near : distance < 4)
    : stored memory place (swl distance (wordAt memory place) value) byte
      = if place ≤ byte ∧ byte + distance < place + 4 then byteOf value (byte - place + distance)
        else memory byte := by
  rw [stored_apply]
  by_cases inside : place ≤ byte ∧ byte < place + 4
  · have small : byte - place < 4 := by omega
    rw [if_pos inside, byteOf_swl _ _ near small, byteOf_wordAt _ _ small]
    by_cases changed : byte - place + distance < 4
    · rw [if_pos changed, if_pos (by omega)]
    · rw [if_neg changed, if_neg (by omega), Nat.add_sub_of_le inside.1]
  · rw [if_neg inside, if_neg (by omega)]

/-- Memory after the lower part of a value is stored. -/
theorem stored_swr (memory : Buffer) (place byte : Nat) (near : distance < 4)
    : stored memory place (swr distance (wordAt memory place) value) byte
      = if place + 3 ≤ byte + distance ∧ byte < place + 4 then
          byteOf value (byte + distance - (place + 3))
        else memory byte := by
  rw [stored_apply]
  by_cases inside : place ≤ byte ∧ byte < place + 4
  · have small : byte - place < 4 := by omega
    rw [if_pos inside, byteOf_swr _ _ near small, byteOf_wordAt _ _ small]
    by_cases changed : 3 ≤ byte - place + distance
    · rw [if_pos changed, if_pos (by omega)]
      congr 1
      omega
    · rw [if_neg changed, if_neg (by omega), Nat.add_sub_of_le inside.1]
  · rw [if_neg inside, if_neg (by omega)]

end Parts

-----------------------------------------------------------------------------------------
-- Places of the parts
-----------------------------------------------------------------------------------------

section Places

variable {table : List TranslationEntry} {a : BitVec 32} {low high : Nat} {writing : Bool}

/-- The address of the word that an address is in. -/
def aligned (a : BitVec 32) : BitVec 32 := a - (a &&& 0x3#32)

theorem low_two_bits (a : BitVec 32) : (a &&& 0x3#32).toNat = a.toNat % 4 :=
  @Words.toNat_and_low a 0x3#32 2 rfl

theorem distance_eq (a : BitVec 32) : (3#32 - (a &&& 0x3#32)).toNat = 3 - a.toNat % 4 := by
  have three : (3#32).toNat = 3 := rfl
  rw [BitVec.toNat_sub, low_two_bits, three]
  omega

theorem toNat_aligned (a : BitVec 32) : (aligned a).toNat = a.toNat - a.toNat % 4 := by
  rw [aligned, BitVec.toNat_sub, low_two_bits]
  omega

/-- Where the four bytes from an address on are, when the word that it is in is at `low`, and the
word that the last of them is in at `high`.
-/
def placeOf (a : BitVec 32) (low high : Nat) (index : Nat) : Nat :=
  if a.toNat % 4 + index < 4 then low + (a.toNat % 4 + index)
  else high + (a.toNat % 4 + index - 4)

/-- The two words are the same, or have no byte in common. -/
theorem words_separate (lower : Translates table (aligned a) 4 writing low)
    (upper : Translates table (aligned (a + 3#32)) 4 writing high)
    : (a.toNat % 4 = 0 ∧ low = high)
      ∨ (a.toNat % 4 ≠ 0 ∧ (low + 4 ≤ high ∨ high + 4 ≤ low)) := by
  have small := a.isLt
  by_cases whole : a.toNat % 4 = 0
  · have same : aligned (a + 3#32) = aligned a := by
      apply BitVec.eq_of_toNat_eq
      rw [toNat_aligned, toNat_aligned, BitVec.toNat_add, BitVec.toNat_ofNat]
      omega
    rw [same] at upper
    exact .inl ⟨whole, lower.unique upper⟩
  · have offset := lower.mod_pageSize
    have offset' := upper.mod_pageSize
    rw [toNat_aligned, pageSize_eq] at offset offset'
    rw [BitVec.toNat_add, BitVec.toNat_ofNat] at offset'
    right
    refine ⟨whole, ?_⟩
    omega

/-- Both parts of a value, one after the other. -/
theorem stored_parts (separate : (a.toNat % 4 = 0 ∧ low = high)
      ∨ (a.toNat % 4 ≠ 0 ∧ (low + 4 ≤ high ∨ high + 4 ≤ low)))
    (memory : Buffer) (value : BitVec 32)
    {upper final : Buffer}
    (first
      : upper = stored memory high (swl (3 - (a + 3#32).toNat % 4) (wordAt memory high) value))
    (second : final = stored upper low (swr (3 - a.toNat % 4) (wordAt upper low) value))
    : (∀ index < 4, final (placeOf a low high index) = byteOf value index)
      ∧ ∀ byte, (∀ index < 4, byte ≠ placeOf a low high index) → final byte = memory byte := by
  have last : (a + 3#32).toNat % 4 = (a.toNat + 3) % 4 := by
    rw [BitVec.toNat_add, BitVec.toNat_ofNat]
    omega
  subst first second
  rw [last]
  constructor
  · intro index inside
    rw [stored_swr _ _ _ _ (by omega), stored_swl _ _ _ _ (by omega)]
    unfold placeOf
    split_ifs <;> first | omega | (congr 1; omega)
  · intro byte outside
    have notLow (index : Nat) (inside : index < 4) (first : a.toNat % 4 + index < 4)
        : byte ≠ low + (a.toNat % 4 + index) := by
      have apart := outside index inside
      rwa [placeOf, if_pos first] at apart
    have notHigh (index : Nat) (inside : index < 4) (later : ¬a.toNat % 4 + index < 4)
        : byte ≠ high + (a.toNat % 4 + index - 4) := by
      have apart := outside index inside
      rwa [placeOf, if_neg later] at apart
    rw [stored_swr _ _ _ _ (by omega), stored_swl _ _ _ _ (by omega)]
    split_ifs with lower upper
    · exact absurd (by omega) (notLow (byte - low - a.toNat % 4) (by omega) (by omega))
    · exact absurd (by omega) (notHigh (byte - high + 4 - a.toNat % 4) (by omega) (by omega))
    · rfl

/-- Both parts of a load, one after the other: the second sees the first. -/
theorem loaded_parts (a : BitVec 32) (low high : Nat) (memory : Buffer) (before : BitVec 32)
    {index : Nat} (inside : index < 4)
    : byteOf
        (lwr (3 - a.toNat % 4) (lwl (3 - (a + 3#32).toNat % 4) before (wordAt memory high))
          (wordAt memory low))
        index
      = memory (placeOf a low high index) := by
  have last : (a + 3#32).toNat % 4 = (a.toNat + 3) % 4 := by
    rw [BitVec.toNat_add, BitVec.toNat_ofNat]
    omega
  rw [last, byteOf_lwr _ _ (by omega) inside, byteOf_lwl _ _ (by omega) inside, placeOf]
  by_cases first : a.toNat % 4 + index < 4
  · rw [if_pos (by omega), if_pos first, byteOf_wordAt _ _ (by omega)]
    congr 1
    omega
  · rw [if_neg (by omega), if_neg first, if_pos (by omega), byteOf_wordAt _ _ (by omega)]
    congr 1
    omega

end Places

-----------------------------------------------------------------------------------------
-- Runs of one instruction
-----------------------------------------------------------------------------------------

section Instructions

variable {machine fetched middle : Machine} {pending : BitVec 5} {word : BitVec 32}

/-- An instruction is next, while a load is pending. -/
structure Machine.Begins (machine : Machine) (pending : BitVec 5) (word : BitVec 32)
    (fetched : Machine)
    : Prop where
  loads : machine.registers loadReg = pending.setWidth 32
  read : (readMem (machine.registers pcReg) 4).run machine = (.ok word, fetched)

/-- What an instruction without a result leaves: the load that was pending is finished, and another
one is pending.
-/
structure Follows (machine : Machine) (pending : BitVec 5) (nextReg nextValue : BitVec 32)
    (after : Machine)
    : Prop where
  general (number : BitVec 5)
    : after.registers (gpr number)
      = if number = 0#5 then 0#32
        else if number = pending then machine.registers loadValueReg
        else machine.registers (gpr number)
  loadReg : after.registers loadReg = nextReg
  loadValueReg : after.registers loadValueReg = nextValue

/-- An instruction that changes no register by itself. -/
theorem Machine.Begins.run (begins : machine.Begins pending word fetched) {effect : Effect}
    (operated : (operate (decode word)).run fetched = (.ok effect, middle))
    (kept : middle.registers = machine.registers)
    : ∃ after,
        oneInstruction.run machine = (.ok (), after)
        ∧ after.mainMemory = middle.mainMemory
        ∧ after.pageTable = middle.pageTable
        ∧ Follows machine pending effect.nextLoadReg effect.nextLoadValue after := by
  have start
      : (readRegister pcReg).run machine = (.ok (machine.registers pcReg), machine) :=
    rfl
  have loads : middle.registers Mips.loadReg = pending.setWidth 32 := kept ▸ begins.loads
  have ran
      : oneInstruction.run machine
        = (.ok (),
            (middle.loaded pending effect.nextLoadReg effect.nextLoadValue).advanced
              effect.pcAfter) := by
    rw [oneInstruction, run_bind_ok start, run_bind_ok begins.read, run_bind_ok operated]
    exact run_finish loads effect
  refine ⟨_, ran, rfl, rfl, ?_, ?_, ?_⟩
  · intro number
    rw [registers_advanced_gpr, registers_loaded_gpr, kept]
  · rw [registers_advanced_of_ne (by decide)]
    exact (registers_loaded_load ..).1
  · rw [registers_advanced_of_ne (by decide)]
    exact (registers_loaded_load ..).2

/-- The two stores of parts differ in how they merge, by cases on the code. -/
theorem run_operate_store {instr : Instruction} (stores : instr.opCode = .swl ∨ instr.opCode = .swr)
    (machine : Machine)
    : (operate instr).run machine
      = (storePart (machine.registers nextPCReg + 4#32)
          (if instr.opCode = .swl then swl else swr) (machine.registers (gpr instr.rt))
          (machine.registers (gpr instr.rs) + instr.extra)).run machine := by
  rw [operate, run_bind_ok (run_get machine)]
  dsimp only
  rcases stores with left | right
  · rw [left, if_pos rfl, transfer, left]
  · rw [right, if_neg (by decide), transfer, right]

/-- The two loads of parts differ in how they merge, by cases on the code. -/
theorem run_operate_load {instr : Instruction} (loads : instr.opCode = .lwl ∨ instr.opCode = .lwr)
    (machine : Machine)
    : (operate instr).run machine
      = (loadPart instr (machine.registers nextPCReg + 4#32)
          (if instr.opCode = .lwl then lwl else lwr)
          (machine.registers (gpr instr.rs) + instr.extra)).run machine := by
  rw [operate, run_bind_ok (run_get machine)]
  dsimp only
  rcases loads with left | right
  · rw [left, if_pos rfl, transfer, left]
  · rw [right, if_neg (by decide), transfer, right]

/-- A store of a part goes to the word that its address is in. -/
theorem Machine.Begins.store (begins : machine.Begins pending word fetched)
    (stores : (decode word).opCode = .swl ∨ (decode word).opCode = .swr) {address : BitVec 32}
    (addressed : machine.registers (gpr (decode word).rs) + (decode word).extra = address)
    {place : Nat} (translates : Translates machine.pageTable (aligned address) 4 true place)
    : ∃ after,
        oneInstruction.run machine = (.ok (), after)
        ∧ after.mainMemory
          = stored machine.mainMemory place
              ((if (decode word).opCode = .swl then swl else swr) (3 - address.toNat % 4)
                (wordAt machine.mainMemory place) (machine.registers (gpr (decode word).rt)))
        ∧ SameMapping machine.pageTable after.pageTable
        ∧ Follows machine pending 0#32 0#32 after := by
  obtain ⟨_, fetchTable, translated, rfl⟩ := exists_of_readMem begins.read
  have mapping := sameMapping_of_translate translated
  have operated := run_operate_store stores { machine with pageTable := fetchTable }
  dsimp only at operated
  rw [addressed] at operated
  generalize (if (decode word).opCode = .swl then swl else swr) = merge at operated ⊢
  obtain ⟨readTable, readMapping, read⟩ :=
    @run_readMem _ _ { machine with pageTable := fetchTable }
      ((mapping _ _ _ _).mp translates.read)
  obtain ⟨writtenTable, writtenMapping, written⟩ :=
    @run_writeMem _ _ { machine with pageTable := readTable }
      ((mapping.trans readMapping _ _ _ _).mp translates)
      (merge (3 - address.toNat % 4) (wordAt machine.mainMemory place)
        (machine.registers (gpr (decode word).rt)))
  rw [storePart, distance_eq, ← aligned, run_bind_ok read, run_bind_ok written] at operated
  obtain ⟨after, ran, kept, table, follows⟩ := begins.run operated rfl
  refine ⟨after, ran, kept, ?_, follows⟩
  rw [table]
  exact (mapping.trans readMapping).trans writtenMapping

/-- A load of a part comes from the word that its address is in, and stays pending. -/
theorem Machine.Begins.load (begins : machine.Begins pending word fetched)
    (loads : (decode word).opCode = .lwl ∨ (decode word).opCode = .lwr) {address : BitVec 32}
    (addressed : machine.registers (gpr (decode word).rs) + (decode word).extra = address)
    {place : Nat} (translates : Translates machine.pageTable (aligned address) 4 false place)
    : ∃ after,
        oneInstruction.run machine = (.ok (), after)
        ∧ after.mainMemory = machine.mainMemory
        ∧ SameMapping machine.pageTable after.pageTable
        ∧ Follows machine pending ((decode word).rt.setWidth 32)
            ((if (decode word).opCode = .lwl then lwl else lwr) (3 - address.toNat % 4)
              (forwarded (decode word) machine) (wordAt machine.mainMemory place))
            after := by
  obtain ⟨_, fetchTable, translated, rfl⟩ := exists_of_readMem begins.read
  have mapping := sameMapping_of_translate translated
  have operated := run_operate_load loads { machine with pageTable := fetchTable }
  dsimp only at operated
  rw [addressed] at operated
  generalize (if (decode word).opCode = .lwl then lwl else lwr) = merge at operated ⊢
  obtain ⟨readTable, readMapping, read⟩ :=
    @run_readMem _ _ { machine with pageTable := fetchTable } ((mapping _ _ _ _).mp translates)
  rw [loadPart, distance_eq, ← aligned, run_bind_ok read] at operated
  obtain ⟨after, ran, kept, table, follows⟩ := begins.run operated rfl
  refine ⟨after, ran, kept, ?_, follows⟩
  rw [table]
  exact mapping.trans readMapping

end Instructions

-----------------------------------------------------------------------------------------
-- Pairs of instructions
-----------------------------------------------------------------------------------------

/-- Two instructions on the register `rt` for the word at the address `a`: the one that is next has
the address of the last byte, and the one after it that of the first. A load may be pending, but not
one into the base register.
-/
structure Pair (machine fetched : Machine) (pending base rt : BitVec 5) (first second a : BitVec 32)
    : Prop where
  zero : machine.registers (gpr 0#5) = 0#32
  begins : machine.Begins pending first fetched
  bases : (decode first).rs = base ∧ (decode second).rs = base
  registers : (decode first).rt = rt ∧ (decode second).rt = rt
  addresses
    : machine.registers (gpr base) + (decode first).extra = a + 3#32
      ∧ machine.registers (gpr base) + (decode second).extra = a
  free : pending = base → pending = 0#5

/-- The next instruction is executed, and then `second` if that is the one after it, with a
result.
-/
def RunsBoth (machine : Machine) (second : BitVec 32) (result : Machine → Prop) : Prop :=
  ∃ middle,
    oneInstruction.run machine = (.ok (), middle)
    ∧ ∀ fetched,
        (readMem (middle.registers pcReg) 4).run middle = (.ok second, fetched)
        → ∃ after, oneInstruction.run middle = (.ok (), after) ∧ result after

section Pairs

variable {machine fetched middle : Machine} {pending base rt : BitVec 5}
  {first second a nextValue nextReg : BitVec 32}

/-- The base register keeps its value in between. -/
theorem Pair.base_kept (pair : Pair machine fetched pending base rt first second a)
    (follows : Follows machine pending nextReg nextValue middle)
    : middle.registers (gpr base) = machine.registers (gpr base) := by
  rw [follows.general]
  split_ifs with none loaded
  · rw [none, pair.zero]
  · exact absurd (loaded.trans (pair.free loaded.symm)) none
  · rfl

/-- A pair of stores puts the bytes of the register at the address. -/
theorem Pair.stores (pair : Pair machine fetched pending base rt first second a)
    (left : (decode first).opCode = .swl) (right : (decode second).opCode = .swr)
    {value : BitVec 32} (holds : machine.registers (gpr rt) = value)
    (loads : pending = rt → rt ≠ 0#5 → machine.registers loadValueReg = value) {low high : Nat}
    (lower : Translates machine.pageTable (aligned a) 4 true low)
    (upper : Translates machine.pageTable (aligned (a + 3#32)) 4 true high)
    : RunsBoth machine second fun after =>
        (∀ index < 4, after.mainMemory (placeOf a low high index) = byteOf value index)
        ∧ ∀ byte,
            (∀ index < 4, byte ≠ placeOf a low high index)
            → after.mainMemory byte = machine.mainMemory byte := by
  obtain ⟨middle, ran, half, mapping, follows⟩ :=
    pair.begins.store (.inl left) (pair.bases.1 ▸ pair.addresses.1) upper
  refine ⟨middle, ran, fun refetched read => ?_⟩
  have kept : middle.registers (gpr rt) = value := by
    rw [follows.general]
    split_ifs with none loaded
    · rw [← holds, none, pair.zero]
    · exact loads loaded.symm none
    · exact holds
  have begins : middle.Begins 0#5 second refetched := ⟨follows.loadReg, read⟩
  have addressed
      : middle.registers (gpr (decode second).rs) + (decode second).extra = a := by
    rw [pair.bases.2, pair.base_kept follows, pair.addresses.2]
  obtain ⟨after, ran, whole, _, _⟩ :=
    begins.store (.inr right) addressed ((mapping _ _ _ _).mp lower)
  refine ⟨after, ran, ?_⟩
  rw [if_pos left, pair.registers.1, holds] at half
  rw [if_neg (by rw [right]; decide), pair.registers.2, kept] at whole
  exact stored_parts (words_separate lower upper) _ _ half whole

/-- A pair of loads gets the bytes at the address, once its last load is finished. -/
theorem Pair.loads (pair : Pair machine fetched pending base rt first second a)
    (left : (decode first).opCode = .lwl) (right : (decode second).opCode = .lwr)
    (general : rt ≠ 0#5) {low high : Nat}
    (lower : Translates machine.pageTable (aligned a) 4 false low)
    (upper : Translates machine.pageTable (aligned (a + 3#32)) 4 false high)
    : RunsBoth machine second fun after =>
        ∀ nextReg nextValue,
          ∃ applied,
            (delayedLoad nextReg nextValue).run after = (.ok (), applied)
            ∧ ∀ index < 4,
                byteOf (applied.registers (gpr rt)) index
                = machine.mainMemory (placeOf a low high index) := by
  obtain ⟨middle, ran, memory, mapping, follows⟩ :=
    pair.begins.load (.inl left) (pair.bases.1 ▸ pair.addresses.1) upper
  refine ⟨middle, ran, fun refetched read => ?_⟩
  rw [if_pos left, pair.registers.1] at follows
  have begins : middle.Begins rt second refetched := ⟨follows.loadReg, read⟩
  have addressed
      : middle.registers (gpr (decode second).rs) + (decode second).extra = a := by
    rw [pair.bases.2, pair.base_kept follows, pair.addresses.2]
  obtain ⟨after, ran, _, _, follows'⟩ :=
    begins.load (.inr right) addressed ((mapping _ _ _ _).mp lower)
  refine ⟨after, ran, fun nextReg nextValue => ⟨after.loaded rt nextReg nextValue, ?_, ?_⟩⟩
  · exact run_delayedLoad (pair.registers.2 ▸ follows'.loadReg) nextReg nextValue
  -- The load that is pending is forwarded to the second instruction.
  have start
      : forwarded (decode second) middle
        = lwl (3 - (a + 3#32).toNat % 4) (forwarded (decode first) machine)
            (wordAt machine.mainMemory high) := by
    rw [forwarded, pair.registers.2, if_pos follows.loadReg, follows.loadValueReg]
  intro index inside
  rw [registers_loaded_gpr, if_neg general, if_pos rfl, follows'.loadValueReg,
    if_neg (by rw [right]; decide), start, memory]
  exact loaded_parts a low high _ _ inside

end Pairs

/-- A machine with one page that starts with two instructions, and a word in register 2. -/
def startingWith (first second : BitVec 32) : Machine where
  registers register :=
    if register = nextPCReg then 4#32
    else if register = gpr 2#5 then 0x04030201#32
    else 0#32
  mainMemory := stored (stored (fun offset => UInt8.ofNat offset) 4 second) 0 first
  pageTable :=
    [
      {
        virtualPage := 0
        physicalPage := 0
        valid := true
        readOnly := false
        use := true
        dirty := false
      }
    ]

end Nachos.Mips
