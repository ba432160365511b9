import Mathlib.Data.Int.Interval
import Mathlib.Data.List.GetD
import Nachos.FileSys.FileHeader

/-! Well-formed header chains: what they say about a file, and that their images on disk
and their copies in memory agree.
-/

namespace Nachos.FileSys

open Bytes Routines

/-- Every field of a block fits a 32-bit word of its image. -/
structure HeaderBlock.Fits (block : HeaderBlock) : Prop where
  numBytes : CInt.InRange block.numBytes
  numSectors : CInt.InRange block.numSectors
  dataSectors
    : ∀ index (inside : index < numDirect), CInt.InRange block.dataSectors[index]
  next : CInt.InRange block.nextFileHeaderSector

/-- The data sectors in use of one block. -/
def HeaderBlock.sectors (block : HeaderBlock) : List Int :=
  block.dataSectors.toList.take block.numSectors.toNat

theorem HeaderBlock.sectors_length {block : HeaderBlock}
    (fits : block.numSectors.toNat ≤ numDirect)
    : block.sectors.length = block.numSectors.toNat := by
  rw [HeaderBlock.sectors, List.length_take, Vector.length_toList, Nat.min_eq_left fits]

theorem HeaderBlock.getD_sectors {block : HeaderBlock} {index : Nat}
    (listed : index < block.numSectors.toNat)
    : block.sectors.getD index (-1) = block.dataSectors[index]?.getD (-1) := by
  rw [HeaderBlock.sectors, List.getD_eq_getElem?_getD, List.getElem?_take_of_lt listed,
    Vector.getElem?_toList]

namespace FileHeader

/-- Bytes in a file by the sizes of its blocks. -/
def size : FileHeader → Int
  | .last block _ => block.numBytes
  | .link block next => block.numBytes + next.size

/-- The data sectors of a file in the order of its bytes. -/
def sectors : FileHeader → List Int
  | .last block _ => block.sectors
  | .link block next => block.sectors ++ next.sectors

/-- The sectors of the headers after the first. -/
def chain : FileHeader → List Int
  | .last _ _ => []
  | .link block next => block.nextFileHeaderSector :: next.chain

/-- All sectors of a file whose first header stands in `sector`. -/
def footprint (sector : Int) (header : FileHeader) : List Int :=
  (sector :: header.chain) ++ header.sectors

/-- Chains as `allocate` builds them: every block but the last is full, and the last has
neither a further header nor a pointer to one.
-/
def WellFormed : FileHeader → Prop
  | .last block pointer =>
      pointer = 0
      ∧ block.Fits
      ∧ block.nextFileHeaderSector = -1
      ∧ 0 ≤ block.numBytes
      ∧ block.numBytes ≤ maxFileSize
      ∧ block.numSectors = CInt.divRoundUp block.numBytes sectorSize
  | .link block next =>
      block.Fits
      ∧ block.nextFileHeaderSector ≠ -1
      ∧ block.numBytes = maxFileSize
      ∧ block.numSectors = numDirect
      ∧ 0 < next.size
      ∧ next.WellFormed

/-- The disk holds the chain from `sector` on. -/
def StoredAt (disk : Disk) : Int → FileHeader → Prop
  | sector, .last block pointer => ofImage (disk sector) = (pointer, block)
  | sector, .link block next =>
      (ofImage (disk sector)).2 = block ∧ next.StoredAt disk block.nextFileHeaderSector

-----------------------------------------------------------------------------------------
-- Sizes and sectors
-----------------------------------------------------------------------------------------

/-- By cases on whether the header is the last of its chain. -/
theorem WellFormed.size_nonneg {header : FileHeader} (valid : header.WellFormed)
    : 0 ≤ header.size := by
  cases header with
  | last block pointer => exact valid.2.2.2.1
  | link block next =>
      obtain ⟨_, _, full, _, positive, _⟩ := valid
      simp only [size, full]
      omega

/-- The size of a well-formed chain is the length it reports. -/
theorem WellFormed.fileLength {header : FileHeader} (valid : header.WellFormed)
    : header.fileLength = .ok header.size := by
  induction header with
  | last block pointer => simp [FileHeader.fileLength, size, valid.2.2.1]
  | link block next ih =>
      obtain ⟨_, linked, _, _, _, rest⟩ := valid
      simp only [FileHeader.fileLength, if_neg linked, ih rest, size]
      rfl

/-- A full block lists a whole table of data sectors. -/
theorem WellFormed.link_sectors_length {block : HeaderBlock} {next : FileHeader}
    (valid : (FileHeader.link block next).WellFormed)
    : block.sectors.length = numDirect := by
  have count : block.numSectors.toNat = numDirect := by
    rw [valid.2.2.2.1]
    rfl
  rw [HeaderBlock.sectors_length (Nat.le_of_eq count), count]

/-- A well-formed chain lists one data sector for each 128 bytes begun. -/
theorem WellFormed.sectors_length {header : FileHeader} (valid : header.WellFormed)
    : header.sectors.length = ((header.size + 127) / sectorSize).toNat := by
  induction header with
  | last block pointer =>
      obtain ⟨_, _, _, nonneg, small, count⟩ := valid
      rw [CInt.divRoundUp_of_nonneg nonneg (by decide)] at count
      simp only [maxFileSize_eq, sectorSize_eq] at small count
      have fits : block.numSectors.toNat ≤ numDirect := by
        rw [numDirect_eq]
        omega
      rw [sectors, HeaderBlock.sectors_length fits, size, sectorSize_eq]
      omega
  | link block next ih =>
      obtain ⟨_, _, full, _, positive, rest⟩ := id valid
      have length := ih rest
      simp only [sectors, size, List.length_append, valid.link_sectors_length, full, length]
      simp only [maxFileSize_eq, numDirect_eq, sectorSize_eq] at *
      omega

/-- Inside the file an offset is found in the flat list of data sectors, by induction
along the chain: each full block accounts for one table of sectors.
-/
theorem WellFormed.byteToSector_inside {header : FileHeader} (valid : header.WellFormed)
    {offset : Int} (nonneg : 0 ≤ offset) (inside : offset < header.size)
    : header.byteToSector offset
      = .ok (header.sectors.getD (offset / sectorSize).toNat (-1)) := by
  induction header generalizing offset with
  | last block pointer =>
      obtain ⟨_, _, _, _, small, count⟩ := id valid
      rw [size] at inside
      rw [CInt.divRoundUp_of_nonneg (by omega) (by decide)] at count
      simp only [maxFileSize_eq, sectorSize_eq] at small count
      have direct : offset / sectorSize < numDirect := by
        simp only [numDirect_eq, sectorSize_eq]
        omega
      have listed : (offset / sectorSize).toNat < block.numSectors.toNat := by
        rw [sectorSize_eq]
        omega
      have length : FileHeader.fileLength (.last block pointer) = .ok block.numBytes :=
        valid.fileLength
      simp only [byteToSector, length, CInt.divRoundDown_of_nonneg nonneg]
      change (if _ then _ else _) = _
      rw [if_neg (by omega), if_pos direct, sectors, HeaderBlock.getD_sectors listed]
  | link block next ih =>
      obtain ⟨_, _, full, count, positive, rest⟩ := id valid
      rw [size, full] at inside
      have length
          : FileHeader.fileLength (.link block next) = .ok (maxFileSize + next.size) := by
        rw [valid.fileLength, size, full]
      have table := valid.link_sectors_length
      simp only [byteToSector, length, CInt.divRoundDown_of_nonneg nonneg]
      change (if _ then _ else _) = _
      rw [if_neg (by omega)]
      split
      · rename_i direct
        have listed : (offset / sectorSize).toNat < numDirect := by
          simp only [numDirect_eq, sectorSize_eq] at direct ⊢
          omega
        rw [sectors, List.getD_append _ _ _ _ (by rw [table]; exact listed),
          HeaderBlock.getD_sectors (by rw [count]; exact listed)]
      · rename_i beyond
        simp only [numDirect_eq, sectorSize_eq, maxFileSize_eq] at beyond inside table ⊢
        rw [ih rest (by omega) (by omega), sectors,
          List.getD_append_right _ _ _ _ (by omega), table]
        congr 2
        rw [sectorSize_eq]
        omega

/-- Outside the file there is no sector. -/
theorem WellFormed.byteToSector_outside {header : FileHeader} (valid : header.WellFormed)
    {offset : Int} (outside : offset < 0 ∨ header.size ≤ offset)
    : header.byteToSector offset = .ok (-1) := by
  cases header with
  | last block pointer =>
      simp only [byteToSector, valid.fileLength]
      exact if_pos (by omega)
  | link block next =>
      simp only [byteToSector, valid.fileLength]
      exact if_pos (by omega)

/-- The sector of an offset inside the file is one of the file's data sectors. -/
theorem WellFormed.sector_mem {header : FileHeader} (valid : header.WellFormed)
    {offset : Int} (nonneg : 0 ≤ offset) (inside : offset < header.size)
    : header.sectors.getD (offset / sectorSize).toNat (-1) ∈ header.sectors := by
  have listed : (offset / sectorSize).toNat < header.sectors.length := by
    rw [valid.sectors_length]
    simp only [sectorSize_eq] at *
    omega
  rw [List.getD_eq_getElem _ _ listed]
  exact List.getElem_mem listed

-----------------------------------------------------------------------------------------
-- Images
-----------------------------------------------------------------------------------------

/-- The `int` at word `word` of an image is that word of the header. -/
theorem intAt_image {pointer : Nat} {block : HeaderBlock} {word : Nat}
    (inside : word < 32) (fits : CInt.InRange (imageWord pointer block word))
    : intAt (image pointer block).bytes (4 * word) = imageWord pointer block word := by
  apply intAt_eq_of_bytes fits
  intro index small
  rw [image, Sector.bytes_ofBuffer _ (by rw [sectorSize_eq]; omega)]
  congr 1
  · congr 1
    omega
  · omega

/-- Word `index + 3` of an image is entry `index` of the table. -/
theorem imageWord_table {pointer : Nat} {block : HeaderBlock} {index : Nat}
    (inside : index < numDirect)
    : imageWord pointer block (index + 3) = block.dataSectors[index] := by
  rw [imageWord, if_neg (by omega), if_neg (by omega), if_neg (by omega), if_pos (by omega),
    Nat.add_sub_cancel, Vector.getElem?_eq_getElem inside, Option.getD_some]

/-- The block of an image is the block it was made from. -/
theorem ofImage_image (pointer : Nat) {block : HeaderBlock} (fits : block.Fits)
    : (ofImage (image pointer block)).2 = block := by
  have bytes : intAt (image pointer block).bytes 4 = block.numBytes :=
    @intAt_image pointer block 1 (by omega) fits.numBytes
  have count : intAt (image pointer block).bytes 8 = block.numSectors :=
    @intAt_image pointer block 2 (by omega) fits.numSectors
  have next : intAt (image pointer block).bytes 124 = block.nextFileHeaderSector :=
    @intAt_image pointer block 31 (by omega) fits.next
  have table : Vector.ofFn (fun index : Fin numDirect =>
      intAt (image pointer block).bytes (12 + 4 * index)) = block.dataSectors := by
    apply Vector.ext
    intro index inside
    have small : index + 3 < 32 := by
      rw [numDirect_eq] at inside
      omega
    have word : imageWord pointer block (index + 3) = block.dataSectors[index] :=
      imageWord_table inside
    have read := intAt_image small (by rw [word]; exact fits.dataSectors index inside)
    have place : 12 + 4 * index = 4 * (index + 3) := by omega
    rw [Vector.getElem_ofFn, place, read, word]
  have position : 12 + 4 * numDirect = 124 := rfl
  rw [ofImage, table, position, bytes, count, next]

/-- The pointer of an image is the pointer it was made from. -/
theorem ofImage_image_pointer {pointer : Nat} (small : pointer < 4294967296)
    (block : HeaderBlock)
    : (ofImage (image pointer block)).1 = pointer := by
  apply wordAt_eq_of_bytes small
  intro index bound
  rw [image, Sector.bytes_ofBuffer _ (by rw [sectorSize_eq]; omega)]
  have word : (0 + index) / 4 = 0 := by omega
  have byte : (0 + index) % 4 = index := by omega
  simp only [word, byte, imageWord, if_pos, intByte, CInt.unsigned]
  congr 1
  omega

/-- Which chain a sector holds depends only on the sectors of the chain. -/
theorem StoredAt.congr {disk other : Disk} {sector : Int} {header : FileHeader}
    (stored : header.StoredAt disk sector)
    (same : ∀ s ∈ sector :: header.chain, other s = disk s)
    : header.StoredAt other sector := by
  induction header generalizing sector with
  | last block pointer =>
      rw [StoredAt, same sector (by simp)]
      exact stored
  | link block next ih =>
      refine ⟨?_, ih stored.2 (fun s member => same s ?_)⟩
      · rw [same sector (by simp)]
        exact stored.1
      · exact List.mem_cons_of_mem _ member

-----------------------------------------------------------------------------------------
-- Reading and writing chains
-----------------------------------------------------------------------------------------

/-- Reading a stored chain returns it and leaves the disk alone, by induction on the
chain; each header takes one unit of fuel.
-/
theorem run_fetchFromFuel {disk : Disk} {sector : Int} {header : FileHeader} {fuel : Nat}
    (valid : header.WellFormed) (stored : header.StoredAt disk sector)
    (inside : ∀ s ∈ sector :: header.chain, IsSector s)
    (enough : header.chain.length < fuel)
    : (fetchFromFuel fuel sector).run disk = (.ok header, disk) := by
  induction header generalizing sector fuel with
  | last block pointer =>
      obtain ⟨fuel, rfl⟩ : ∃ rest, fuel = rest + 1 := ⟨fuel - 1, by omega⟩
      rw [fetchFromFuel, Routine.run_bind_ok (run_readSector (inside sector (by simp)) disk)]
      rw [StoredAt] at stored
      simp only [stored]
      rw [if_neg (by simpa using valid.2.2.1), Routine.run_pure]
  | link block next ih =>
      rw [chain, List.length_cons] at enough
      obtain ⟨fuel, rfl⟩ : ∃ rest, fuel = rest + 1 := ⟨fuel - 1, by omega⟩
      obtain ⟨_, linked, _, _, _, rest⟩ := valid
      have tail
          : (fetchFromFuel fuel block.nextFileHeaderSector).run disk = (.ok next, disk) :=
        ih rest stored.2 (fun s member => inside s (List.mem_cons_of_mem _ member)) (by omega)
      rw [fetchFromFuel, Routine.run_bind_ok (run_readSector (inside sector (by simp)) disk)]
      have block' : (ofImage (disk sector)).2 = block := stored.1
      simp only [block']
      rw [if_pos (by simpa using linked), Routine.run_bind_ok tail, Routine.run_pure]

/-- The headers of a chain in distinct sectors are fewer than the sectors of the disk. -/
theorem chain_length_lt {sector : Int} {header : FileHeader}
    (inside : ∀ s ∈ sector :: header.chain, IsSector s)
    (distinct : (sector :: header.chain).Nodup)
    : header.chain.length < numSectors := by
  have subset : (sector :: header.chain).toFinset ⊆ Finset.Ico 0 (numSectors : Int) := by
    intro s member
    have bound := inside s (List.mem_toFinset.mp member)
    exact Finset.mem_Ico.mpr bound
  have bound := Finset.card_le_card subset
  rw [List.toFinset_card_of_nodup distinct, Int.card_Ico, List.length_cons] at bound
  omega

/-- Opening a stored chain in distinct sectors returns it. -/
theorem run_fetchFrom {disk : Disk} {sector : Int} {header : FileHeader}
    (valid : header.WellFormed) (stored : header.StoredAt disk sector)
    (inside : ∀ s ∈ sector :: header.chain, IsSector s)
    (distinct : (sector :: header.chain).Nodup)
    : (fetchFrom sector).run disk = (.ok header, disk) :=
  run_fetchFromFuel valid stored inside (chain_length_lt inside distinct)

/-- Writing a well-formed chain stores it and changes only the sectors of its headers, by
induction on the chain.
-/
theorem run_writeBack {address : Nat → Nat} {disk : Disk} {sector : Int}
    {header : FileHeader} (valid : header.WellFormed)
    (inside : ∀ s ∈ sector :: header.chain, IsSector s)
    (distinct : (sector :: header.chain).Nodup)
    : ∃ after,
        (header.writeBack address sector).run disk = (.ok (), after)
        ∧ header.StoredAt after sector
        ∧ ∀ s ∉ sector :: header.chain, after s = disk s := by
  induction header generalizing sector disk address with
  | last block pointer =>
      obtain ⟨null, fits, ended, _⟩ := valid
      refine ⟨Function.update disk sector (image pointer block), ?_, ?_, ?_⟩
      · rw [writeBack, Routine.run_bind_ok (run_writeSector (inside sector (by simp)) _ disk),
          if_neg (by simpa using ended), Routine.run_pure]
      · have small : pointer < 4294967296 := by omega
        rw [StoredAt, Function.update_self]
        exact Prod.ext (ofImage_image_pointer small block) (ofImage_image pointer fits)
      · intro s outside
        rw [Function.update_of_ne]
        simpa [chain] using outside
  | link block next ih =>
      obtain ⟨fits, linked, _, _, _, rest⟩ := valid
      obtain ⟨fresh, tailDistinct⟩ := List.nodup_cons.mp distinct
      let headed := Function.update disk sector (image (address 0) block)
      let deeper := fun depth => address (depth + 1)
      obtain ⟨after, written, stored, frame⟩ := @ih deeper headed block.nextFileHeaderSector
        rest (fun s member => inside s (List.mem_cons_of_mem _ member)) tailDistinct
      refine ⟨after, ?_, ⟨?_, stored⟩, ?_⟩
      · rw [writeBack, Routine.run_bind_ok (run_writeSector (inside sector (by simp)) _ disk),
          if_pos (by simpa using linked), written]
      · have head : headed sector = image (address 0) block := Function.update_self ..
        rw [frame sector fresh, head, ofImage_image _ fits]
      · intro s outside
        have apart := List.ne_and_not_mem_of_not_mem_cons outside
        exact (frame s apart.2).trans (Function.update_of_ne apart.1 ..)

end FileHeader

end Nachos.FileSys
