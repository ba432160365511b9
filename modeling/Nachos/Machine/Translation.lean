import Nachos.Machine.Mips

/-! Where the addresses of a program are in memory. Accesses leave the mapping as it is, and the
bytes of a word are next to each other.
-/

namespace Nachos.Mips
open Bytes UserProg Routines Routine

-----------------------------------------------------------------------------------------
-- Places of addresses
-----------------------------------------------------------------------------------------

/-- An address has a place in memory for an access. -/
def Translates (table : List TranslationEntry) (addr : BitVec 32) (size : Nat) (writing : Bool)
    (place : Nat)
    : Prop :=
  ∃ after, translate table addr.toInt size writing = .ok (.ok (place, after))

/-- Two page tables that differ in their use and dirty bits only. -/
def SameMapping (left right : List TranslationEntry) : Prop :=
  ∀ addr size writing place,
    Translates left addr size writing place ↔ Translates right addr size writing place

variable {table after : List TranslationEntry} {addr : BitVec 32} {size place : Nat}
  {writing : Bool}

theorem SameMapping.trans {first second third : List TranslationEntry}
    (one : SameMapping first second) (other : SameMapping second third)
    : SameMapping first third :=
  fun addr size writing place =>
    (one addr size writing place).trans (other addr size writing place)

theorem unsigned_toInt (addr : BitVec 32) : (CInt.unsigned addr.toInt).toNat = addr.toNat := by
  have small := addr.isLt
  unfold CInt.unsigned
  rw [BitVec.toInt_eq_toNat_cond]
  split <;> omega

/-- What an entry of the page table says about an access at an offset in its page. -/
def Allows (entry : TranslationEntry) (offset size : Nat) (writing : Bool) (place : Nat) : Prop :=
  entry.valid = true
  ∧ ¬(entry.readOnly = true ∧ writing = true)
  ∧ CInt.unsigned entry.physicalPage < numPhysPages
  ∧ place = (CInt.unsigned entry.physicalPage).toNat * pageSize + offset
  ∧ place + size ≤ memorySize

/-- A translation by its entry: it sets the bits of the entry, and does no more. -/
theorem translate_eq_iff
    : translate table addr.toInt size writing = .ok (.ok (place, after))
      ↔ ¬((size = 4 ∧ addr.toNat % 4 ≠ 0) ∨ (size = 2 ∧ addr.toNat % 2 ≠ 0))
        ∧ ∃ entry,
            table[addr.toNat / pageSize]? = some entry
            ∧ Allows entry (addr.toNat % pageSize) size writing place
            ∧ after = table.set (addr.toNat / pageSize) (entry.touch writing) := by
  unfold UserProg.translate
  rw [unsigned_toInt]
  dsimp only
  by_cases unaligned : (size = 4 ∧ addr.toNat % 4 ≠ 0) ∨ (size = 2 ∧ addr.toNat % 2 ≠ 0)
  · rw [if_pos unaligned]
    exact iff_of_false (by simp) (fun both => both.1 unaligned)
  rw [if_neg unaligned, and_iff_right unaligned]
  cases found : table[addr.toNat / pageSize]? with
  | none => simp
  | some entry =>
      simp only [Option.some.injEq, exists_eq_left', Allows]
      split_ifs with invalid readOnly frame inside
      · simp [invalid]
      · simp [readOnly]
      · refine iff_of_false (by simp) ?_
        omega
      · simp only [Except.ok.injEq, Prod.mk.injEq]
        constructor
        · rintro ⟨rfl, rfl⟩
          exact ⟨⟨eq_true_of_ne_false invalid, readOnly, by omega, rfl, inside⟩, rfl⟩
        · rintro ⟨⟨_, _, _, same, _⟩, rfl⟩
          exact ⟨same.symm, rfl⟩
      · refine iff_of_false (by simp) ?_
        rintro ⟨⟨_, _, _, rfl, fits⟩, _⟩
        exact inside fits

theorem translates_iff
    : Translates table addr size writing place
      ↔ ¬((size = 4 ∧ addr.toNat % 4 ≠ 0) ∨ (size = 2 ∧ addr.toNat % 2 ≠ 0))
        ∧ ∃ entry,
            table[addr.toNat / pageSize]? = some entry
            ∧ Allows entry (addr.toNat % pageSize) size writing place := by
  simp only [Translates, translate_eq_iff, exists_and_left]
  simp

/-- Setting the bits of an entry changes no translation. -/
theorem sameMapping_of_translate
    (translated : translate table addr.toInt size writing = .ok (.ok (place, after)))
    : SameMapping table after := by
  obtain ⟨_, entry, found, _, rfl⟩ := translate_eq_iff.mp translated
  intro other otherSize otherWriting otherPlace
  rw [translates_iff, translates_iff, List.getElem?_set]
  by_cases here : addr.toNat / pageSize = other.toNat / pageSize
  · have inside : addr.toNat / pageSize < table.length := (List.getElem?_eq_some_iff.mp found).1
    rw [if_pos here, if_pos inside, ← here, found]
    simp [Allows, TranslationEntry.touch]
  · rw [if_neg here]

/-- An address has one place. -/
theorem Translates.unique {other : Nat} (here : Translates table addr size writing place)
    (there : Translates table addr size writing other)
    : place = other := by
  obtain ⟨after, here⟩ := here
  obtain ⟨after', there⟩ := there
  rw [here] at there
  simpa using (Prod.mk.inj (Except.ok.inj (Except.ok.inj there))).1

/-- What can be written can be read. -/
theorem Translates.read (written : Translates table addr size true place)
    : Translates table addr size false place := by
  obtain ⟨aligned, entry, found, valid, _, rest⟩ := translates_iff.mp written
  exact translates_iff.mpr ⟨aligned, entry, found, valid, by simp, rest⟩

/-- Words are aligned in memory as well, at the offset that they have in their page. -/
theorem Translates.mod_pageSize (translates : Translates table addr size writing place)
    : place % pageSize = addr.toNat % pageSize := by
  obtain ⟨_, entry, _, _, _, _, rfl, _⟩ := translates_iff.mp translates
  rw [Nat.mul_comm, Nat.mul_add_mod, Nat.mod_mod]

/-- The bytes of a word. -/
theorem Translates.byte (word : Translates table addr 4 writing place) (index : BitVec 32)
    (inside : index.toNat < 4)
    : Translates table (addr + index) 1 writing (place + index.toNat) := by
  obtain ⟨aligned, entry, found, valid, writable, frame, rfl, fits⟩ := translates_iff.mp word
  have whole : (addr + index).toNat = addr.toNat + index.toNat := by
    have small := addr.isLt
    rw [BitVec.toNat_add]
    omega
  have page : (addr.toNat + index.toNat) / pageSize = addr.toNat / pageSize := by
    rw [pageSize_eq]
    omega
  have offset
      : (addr.toNat + index.toNat) % pageSize = addr.toNat % pageSize + index.toNat := by
    rw [pageSize_eq]
    omega
  rw [translates_iff, whole, page, offset]
  exact ⟨by omega, entry, found, valid, writable, frame, by omega, by omega⟩

-----------------------------------------------------------------------------------------
-- Accesses to words
-----------------------------------------------------------------------------------------

variable {machine : Machine}

/-- A word is read where it is. -/
theorem run_readMem (translates : Translates machine.pageTable addr 4 false place)
    : ∃ table,
        SameMapping machine.pageTable table
        ∧ (readMem addr 4).run machine
          = (.ok (wordAt machine.mainMemory place), { machine with pageTable := table }) := by
  obtain ⟨table, translated⟩ := translates
  refine ⟨table, sameMapping_of_translate translated, ?_⟩
  rw [readMem, run_bind_ok (run_physicalAddress translated)]
  rfl

/-- The bytes of memory after a word is stored. -/
def stored (memory : Buffer) (place : Nat) (value : BitVec 32) : Buffer :=
  blit memory place (ofList [byteOf value 0, byteOf value 1, byteOf value 2, byteOf value 3]) 4

/-- A word is written where it is. -/
theorem run_writeMem (translates : Translates machine.pageTable addr 4 true place)
    (value : BitVec 32)
    : ∃ table,
        SameMapping machine.pageTable table
        ∧ (writeMem addr 4 value).run machine
          = (.ok (),
              {
                machine with
                mainMemory := stored machine.mainMemory place value
                pageTable := table
              }) := by
  obtain ⟨table, translated⟩ := translates
  refine ⟨table, sameMapping_of_translate translated, ?_⟩
  rw [writeMem, run_bind_ok (run_physicalAddress translated)]
  rfl

end Nachos.Mips
