import Nachos.Machine.Uniformity

/-! What an instruction depends on. It reads and writes the registers, the page table and the
frames that the page table maps; the rest of memory neither matters to it nor changes.
-/

namespace Nachos.Mips
open Bytes UserProg Routines Routine

-----------------------------------------------------------------------------------------
-- Machines that differ outside some frames
-----------------------------------------------------------------------------------------

/-- An address in one of some frames. -/
def Reaches (frames : List Int) (address : Nat) : Prop :=
  ∃ frame ∈ frames, CInt.unsigned frame = (address / pageSize : Nat)

/-- Two machines with the same registers, page table and frames that it maps, the first of which
has the other bytes of a given memory.
-/
structure Alike (frames : List Int) (rest : Buffer) (left right : Machine) : Prop where
  registers : left.registers = right.registers
  pageTable : left.pageTable = right.pageTable
  maps : AddrSpace.validFrames left.pageTable = frames
  inside : ∀ address, Reaches frames address → left.mainMemory address = right.mainMemory address
  outside : ∀ address, ¬Reaches frames address → left.mainMemory address = rest address

variable {frames : List Int} {rest : Buffer} {left right : Machine} {table : List TranslationEntry}
  {addr : BitVec 32} {size place : Nat} {writing : Bool}

/-- A register that is set in both keeps them alike. -/
theorem Alike.set (both : Alike frames rest left right) (register : Register) (value : BitVec 32)
    : Alike frames rest (left.set register value) (right.set register value) where
  registers := by
    rw [Machine.set, Machine.set, both.registers]
  pageTable := both.pageTable
  maps := both.maps
  inside := both.inside
  outside := both.outside

/-- An access sets the bits of an entry on both sides. -/
theorem Alike.touch (both : Alike frames rest left right)
    (translated
      : translate left.pageTable addr.toInt size writing = .ok (.ok (place, table)))
    : Alike frames rest { left with pageTable := table } { right with pageTable := table } where
  registers := both.registers
  pageTable := rfl
  maps := by
    obtain ⟨_, entry, found, _, rfl⟩ := translate_eq_iff.mp translated
    exact (AddrSpace.validFrames_touch found writing).trans both.maps
  inside := both.inside
  outside := both.outside

/-- The bytes of an access are all in the frame of its page. -/
theorem reaches_of_translate
    (translated : translate left.pageTable addr.toInt size writing = .ok (.ok (place, table)))
    (sized : size = 1 ∨ size = 2 ∨ size = 4) {i : Nat} (within : i < size)
    : Reaches (AddrSpace.validFrames left.pageTable) (place + i) := by
  obtain ⟨aligned, entry, found, ⟨valid, _, _, rfl, _⟩, _⟩ := translate_eq_iff.mp translated
  have member : entry ∈ left.pageTable.filter (fun entry => entry.valid) :=
    List.mem_filter.mpr ⟨List.mem_of_getElem? found, valid⟩
  refine ⟨entry.physicalPage, List.mem_map.mpr ⟨entry, member, rfl⟩, ?_⟩
  have offset : addr.toNat % pageSize + i < pageSize := by
    rw [pageSize_eq]
    omega
  have same
      : ((CInt.unsigned entry.physicalPage).toNat * pageSize + addr.toNat % pageSize + i) / pageSize
        = (CInt.unsigned entry.physicalPage).toNat := by
    rw [Nat.add_assoc, Nat.mul_comm, Nat.mul_add_div (by decide), Nat.div_eq_of_lt offset,
      Nat.add_zero]
  rw [same, Int.toNat_of_nonneg]
  exact Int.emod_nonneg _ (by decide)

-----------------------------------------------------------------------------------------
-- Memory
-----------------------------------------------------------------------------------------

theorem uniform_alike : Uniform (Alike frames rest) where
  registers both := both.registers
  set both := both.set

/-- Addresses are translated by the page table, which both share, and its flags change alike. -/
theorem respects_physicalAddress (addr : BitVec 32) (size : Nat) (writing : Bool)
    : Respects (Alike frames rest) (physicalAddress addr size writing) := by
  refine respects_get_bind (fun left right both => ?_)
  rw [← both.pageTable]
  cases translated : translate left.pageTable addr.toInt size writing with
  | error fault => exact ⟨rfl, both⟩
  | ok outcome =>
      cases outcome with
      | error which => exact uniform_alike.respects_raiseException (.memory which) addr left right both
      | ok pair => exact ⟨rfl, both.touch translated⟩

/-- A read finds the same bytes, since the translation leads into the frames. -/
theorem respects_readMem (addr : BitVec 32) (sized : size = 1 ∨ size = 2 ∨ size = 4)
    : Respects (Alike frames rest) (readMem addr size) := by
  intro left right both
  refine (respects_physicalAddress addr size false left right both).bind_of ?_
  intro place after final ranLeft _ kept
  obtain ⟨table, translated, rfl⟩ := exists_of_physicalAddress ranLeft
  have same {i : Nat} (within : i < size)
      : left.mainMemory (place + i) = final.mainMemory (place + i) :=
    kept.inside _ (both.maps ▸ reaches_of_translate translated sized within)
  have first : left.mainMemory place = final.mainMemory place :=
    @same 0 (by omega)
  obtain rfl | rfl | rfl := sized
  · exact ⟨congrArg (fun byte : Byte => Except.ok (byte.toBitVec.signExtend 32)) first, kept⟩
  · refine ⟨?_, kept⟩
    change Except.ok (((left.mainMemory (place + 1)).toBitVec
      ++ (left.mainMemory place).toBitVec).setWidth 32) = _
    rw [first, same (by decide)]
    rfl
  · refine ⟨?_, kept⟩
    change Except.ok (wordAt left.mainMemory place) = _
    rw [wordAt, first, same (by decide), same (by decide), same (by decide)]
    rfl

/-- A store changes bytes that are reached. -/
theorem Alike.blit (both : Alike frames rest left right) {count : Nat} (source : Buffer)
    (reached : ∀ i < count, Reaches frames (place + i))
    : Alike frames rest { left with mainMemory := Bytes.blit left.mainMemory place source count }
        { right with mainMemory := Bytes.blit right.mainMemory place source count } where
  registers := both.registers
  pageTable := both.pageTable
  maps := both.maps
  inside address within := by
    by_cases hit : place ≤ address ∧ address < place + count
    · exact (blit_inside _ _ hit.1 hit.2).trans (blit_inside _ _ hit.1 hit.2).symm
    · have outside : address < place ∨ place + count ≤ address := by omega
      exact (blit_outside _ _ outside).trans
        ((both.inside address within).trans (blit_outside _ _ outside).symm)
  outside address unreached := by
    have outside : address < place ∨ place + count ≤ address := by
      by_contra hit
      obtain ⟨i, rfl⟩ := Nat.exists_eq_add_of_le (show place ≤ address by omega)
      exact unreached (reached i (by omega))
    exact (blit_outside _ _ outside).trans (both.outside address unreached)

/-- A store goes into the frames, where both have the same bytes before and after. -/
theorem respects_writeMem (addr : BitVec 32) (sized : size = 1 ∨ size = 2 ∨ size = 4)
    (value : BitVec 32)
    : Respects (Alike frames rest) (writeMem addr size value) := by
  intro left right both
  refine (respects_physicalAddress addr size true left right both).bind_of ?_
  intro place after final ranLeft _ kept
  obtain ⟨table, translated, rfl⟩ := exists_of_physicalAddress ranLeft
  have reached (i : Nat) (within : i < size) : Reaches frames (place + i) :=
    both.maps ▸ reaches_of_translate translated sized within
  refine respects_get_bind (fun left right both => ?_) _ _ kept
  rw [if_pos sized, if_pos sized]
  exact ⟨rfl, both.blit _ reached⟩

theorem accessible_alike : Accessible (Alike frames rest) where
  toUniform := uniform_alike
  readMem addr _ sized := respects_readMem addr sized
  writeMem addr _ sized value := respects_writeMem addr sized value

end Nachos.Mips
