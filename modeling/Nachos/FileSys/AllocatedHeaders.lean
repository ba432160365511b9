import Nachos.FileSys.Allocation

/-! Headers that `allocate` made. Their images on disk give them back, for every length of the
chain; and they have the size that was asked for, unless that is negative.
-/

namespace Nachos.FileSys

open Bytes Routines

namespace FileHeader

variable {numBits : Nat}

/-- The blocks of a chain from the first header on. -/
def blocks : FileHeader → List HeaderBlock
  | .last block _ => [block]
  | .link block next => block :: next.blocks

/-- Every header with a sector for a next one points to it, and the last one has neither. -/
def LinksMatch : FileHeader → Prop
  | .last block pointer => pointer = 0 ∧ block.nextFileHeaderSector = -1
  | .link block next => block.nextFileHeaderSector ≠ -1 ∧ next.LinksMatch

/-- By induction along the chain. -/
theorem WellFormed.linksMatch {header : FileHeader} (valid : header.WellFormed)
    : header.LinksMatch := by
  induction header with
  | last block pointer => exact ⟨valid.1, valid.2.2.1⟩
  | link block next ih =>
      obtain ⟨_, linked, _, _, _, rest⟩ := valid
      exact ⟨linked, ih rest⟩

/-- Each block counts the sectors of its bytes, by induction along the chain. -/
theorem WellFormed.numSectors_eq {header : FileHeader} (valid : header.WellFormed)
    : ∀ block ∈ header.blocks,
        block.numSectors = CInt.divRoundUp block.numBytes sectorSize := by
  induction header with
  | last block pointer =>
      obtain ⟨_, _, _, _, _, count⟩ := valid
      intro other member
      rw [List.mem_singleton.mp member, count]
  | link block next ih =>
      obtain ⟨_, _, full, count, _, rest⟩ := valid
      intro other member
      rcases List.mem_cons.mp member with rfl | later
      · rw [full, count]
        rfl
      · exact ih rest other later

/-- What `allocate` returned is what `allocate_of_nonneg` says. -/
theorem Allocated.of_ok {freeMap after : Bitmap numBits} {fileSize : Int} {success : Bool}
    {header : FileHeader} (bits : numBits ≤ 2147483648) (nonneg : 0 ≤ fileSize)
    (fits : fileSize < 2147483648)
    (allocated : allocate freeMap fileSize = .ok (success, header, after))
    : Allocated freeMap fileSize (success, header, after) := by
  obtain ⟨result, returned, spec⟩ :=
    @allocate_of_nonneg numBits freeMap fileSize bits nonneg fits
  have same := Except.ok.inj (allocated.symm.trans returned)
  rwa [← same] at spec

-----------------------------------------------------------------------------------------
-- Images
-----------------------------------------------------------------------------------------

/-- A chain that `allocate` made, written and read back: the headers are the same, no pointer
from the disk is left in them, and no sector but theirs has changed. The first header's
sector was marked before, so that all headers stand in different sectors.
-/
theorem fetchFrom_writeBack {freeMap after : Bitmap numBits} {fileSize sector : Int}
    {header : FileHeader} (onDisk : numBits ≤ numSectors) (nonneg : 0 ≤ fileSize)
    (fits : fileSize < 2147483648)
    (allocated : allocate freeMap fileSize = .ok (true, header, after))
    (marked : freeMap.test sector = .ok true) (address : Nat → Nat) (disk : Disk)
    : ∃ written rebuilt,
        (header.writeBack address sector).run disk = (.ok (), written)
        ∧ (fetchFrom sector).run written = (.ok rebuilt, written)
        ∧ rebuilt.blocks = header.blocks
        ∧ rebuilt.LinksMatch
        ∧ (∀ offset, rebuilt.byteToSector offset = header.byteToSector offset)
        ∧ header.fileLength = .ok fileSize
        ∧ rebuilt.fileLength = .ok fileSize
        ∧ ∀ s ∉ sector :: header.chain, written s = disk s := by
  rw [numSectors_eq] at onDisk
  have spec := Allocated.of_ok (show numBits ≤ 2147483648 by omega) nonneg fits allocated
  have valid : header.WellFormed := spec.valid rfl
  have takes := spec.takes rfl
  have first : 0 ≤ sector ∧ sector < numBits := by
    unfold Bitmap.test at marked
    split at marked
    · assumption
    · exact nomatch marked
  have isMarked : freeMap.testBit sector.toNat = true := by
    rw [Bitmap.test_of_inside _ first] at marked
    exact Except.ok.inj marked
  have distinct : (sector :: header.chain).Nodup := by
    refine List.nodup_cons.mpr ⟨fun member => ?_, (List.nodup_append.mp takes.distinct).1⟩
    have clear := takes.clear sector (List.mem_append_left _ member)
    rw [isMarked] at clear
    exact nomatch clear
  have inside : ∀ s ∈ sector :: header.chain, IsSector s := by
    intro s member
    rw [IsSector, numSectors_eq]
    rcases List.mem_cons.mp member with rfl | further
    · omega
    · have bounds := takes.inside s (List.mem_append_left _ further)
      omega
  obtain ⟨written, ran, stored, frame⟩ :=
    @run_writeBack address disk sector header valid inside distinct
  have length : header.fileLength = .ok fileSize := by
    rw [valid.fileLength]
    exact congrArg _ (spec.size rfl)
  exact ⟨written, header, ran, run_fetchFrom valid stored inside distinct, rfl,
    valid.linksMatch, fun _ => rfl, length, length, frame⟩

/-- A file of 5000 bytes, which has two headers, on a map of 100 sectors. -/
theorem fetchFrom_writeBack_two_headers
    : ∃ header after,
        allocate ((Bitmap.new 100).markBit 0) 5000 = .ok (true, header, after)
        ∧ ∃ written rebuilt,
            (header.writeBack (fun _ => 4096) 0).run (fun _ => Sector.ofBuffer (fun _ => 0))
              = (.ok (), written)
            ∧ (fetchFrom 0).run written = (.ok rebuilt, written)
            ∧ rebuilt.blocks = header.blocks := by
  obtain ⟨⟨success, header, after⟩, returned, spec⟩ :=
    @allocate_of_nonneg 100 ((Bitmap.new 100).markBit 0) 5000 (by decide) (by decide) (by decide)
  have succeeded : success = true := spec.success_iff.mpr (by decide)
  subst succeeded
  obtain ⟨written, rebuilt, ran, fetched, same, _⟩ :=
    @fetchFrom_writeBack _ _ _ _ 0 _ (by decide) (by decide) (by decide) returned rfl
      (fun _ => 4096) (fun _ => Sector.ofBuffer (fun _ => 0))
  exact ⟨header, after, returned, written, rebuilt, ran, fetched, same⟩

-----------------------------------------------------------------------------------------
-- Offsets
-----------------------------------------------------------------------------------------

/-- The data sectors of a chain are those of its headers one after the other. -/
theorem sectors_eq_flatMap (header : FileHeader)
    : header.sectors = header.blocks.flatMap HeaderBlock.sectors := by
  induction header with
  | last block pointer => simp [sectors, blocks]
  | link block next ih => rw [sectors, blocks, List.flatMap_cons, ih]

/-- In a chain that `allocate` made, the sector of an offset is looked up in the flat list of
data sectors, which are all different.
-/
theorem byteToSector_flat {freeMap after : Bitmap numBits} {fileSize : Int}
    {header : FileHeader} (bits : numBits < 2147483648) (nonneg : 0 ≤ fileSize)
    (fits : fileSize < 2147483648)
    (allocated : allocate freeMap fileSize = .ok (true, header, after))
    : header.fileLength = .ok fileSize
      ∧ ((header.blocks.flatMap HeaderBlock.sectors).length : Int) = (fileSize + 127) / 128
      ∧ (header.blocks.flatMap HeaderBlock.sectors).Nodup
      ∧ ∀ offset, CInt.InRange offset →
          header.byteToSector offset
          = .ok
              (if 0 ≤ offset ∧ offset < fileSize then
                (header.blocks.flatMap HeaderBlock.sectors).getD (offset / 128).toNat (-1)
              else -1) := by
  have spec := Allocated.of_ok (le_of_lt bits) nonneg fits allocated
  have valid : header.WellFormed := spec.valid rfl
  have size : header.size = fileSize := spec.size rfl
  have taken := (spec.takes rfl).distinct
  rw [← sectors_eq_flatMap]
  refine ⟨valid.fileLength.trans (congrArg _ size), ?_, ?_, fun offset _ => ?_⟩
  · rw [valid.sectors_length, size, sectorSize_eq]
    omega
  · exact (List.nodup_append.mp taken).2.1
  · split
    · rename_i inside
      exact valid.byteToSector_inside inside.1 (size.symm ▸ inside.2)
    · rename_i outside
      refine valid.byteToSector_outside ?_
      rw [size]
      omega

/-- The chain of two headers for 5000 bytes. -/
theorem byteToSector_flat_two_headers
    : ∃ header after,
        allocate (Bitmap.new 100) 5000 = .ok (true, header, after)
        ∧ header.fileLength = .ok 5000
        ∧ ∀ offset, CInt.InRange offset →
            header.byteToSector offset
            = .ok
                (if 0 ≤ offset ∧ offset < 5000 then
                  (header.blocks.flatMap HeaderBlock.sectors).getD (offset / 128).toNat (-1)
                else -1) := by
  obtain ⟨⟨success, header, after⟩, returned, spec⟩ :=
    @allocate_of_nonneg 100 (Bitmap.new 100) 5000 (by decide) (by decide) (by decide)
  obtain rfl : success = true := spec.success_iff.mpr (by decide)
  obtain ⟨length, _, _, flat⟩ :=
    byteToSector_flat (by decide) (by decide) (by decide) returned
  exact ⟨header, after, returned, length, flat⟩

-----------------------------------------------------------------------------------------
-- Sizes
-----------------------------------------------------------------------------------------

/-- A header for a file of `fileSize` bytes, whose sectors were taken from the map. -/
structure AllocatedFor (freeMap after : Bitmap numBits) (header : FileHeader) (fileSize : Int)
    : Prop where
  length : header.fileLength = .ok fileSize
  counts
    : ∀ block ∈ header.blocks, block.numSectors = CInt.divRoundUp block.numBytes sectorSize
  dataSectors : (header.sectors.length : Int) = (fileSize + 127) / sectorSize
  headers : (header.chain.length : Int) = max ((fileSize + 3583) / maxFileSize - 1) 0
  taken : Bitmap.Takes freeMap after (header.chain ++ header.sectors)

/-- The request for `fileSize` bytes returns, and when it succeeds, with a header for that
size.
-/
def HonoursSize (freeMap : Bitmap numBits) (fileSize : Int) : Prop :=
  ∃ success header after,
    allocate freeMap fileSize = .ok (success, header, after)
    ∧ (success = true → AllocatedFor freeMap after header fileSize)

/-- A successful allocation is one for its size: the sectors needed for it are those of the headers
and those of the data.
-/
theorem Allocated.for {freeMap after : Bitmap numBits} {fileSize : Int} {header : FileHeader}
    (spec : Allocated freeMap fileSize (true, header, after))
    : AllocatedFor freeMap after header fileSize := by
  have valid : header.WellFormed := spec.valid rfl
  have size : header.size = fileSize := spec.size rfl
  have nonneg := valid.size_nonneg
  have total := valid.sectorsNeeded_eq
  have length := valid.sectors_length
  rw [size] at nonneg total length
  refine {
    length := valid.fileLength.trans (congrArg _ size)
    counts := valid.numSectors_eq
    dataSectors := ?_
    headers := ?_
    taken := spec.takes rfl
  }
  · rw [length, sectorSize_eq]
    omega
  · simp only [sectorsNeeded, sectorSize_eq, maxFileSize_eq] at *
    omega

/-- A negative size comes to one block, or to what it wraps to after the block. -/
theorem allocatedSize_of_negative {fileSize : Int} (negative : fileSize < 0)
    (fits : CInt.InRange fileSize)
    : allocatedSize fileSize
      = if fileSize < -2147483648 + maxFileSize then fileSize + 4294967296
        else maxFileSize := by
  unfold CInt.InRange at fits
  rw [allocatedSize, if_neg (by omega), CInt.wrap, CInt.unsigned, maxFileSize_eq]
  split <;> split <;> omega

/-- A negative size that succeeds gives a file of another size. -/
theorem not_honoursSize {freeMap : Bitmap numBits} {fileSize : Int}
    (bits : numBits ≤ 2147483648) (negative : fileSize < 0) (fits : CInt.InRange fileSize)
    (room : sectorsNeeded (allocatedSize fileSize) ≤ freeMap.numClear)
    : ¬HonoursSize freeMap fileSize := by
  rintro ⟨success, header, after, returned, honoured⟩
  obtain ⟨result, same, spec⟩ := @allocate_spec numBits freeMap fileSize bits fits
  obtain rfl := Except.ok.inj (returned.symm.trans same)
  have succeeded : success = true := spec.success_iff.mpr room
  have length := (honoured succeeded).length
  have valid : header.WellFormed := spec.valid succeeded
  have size : header.size = allocatedSize fileSize := spec.size succeeded
  rw [valid.fileLength, size] at length
  have nonneg := allocatedSize_nonneg fileSize
  have equal := Except.ok.inj length
  omega

/-- Which requests get what they ask for: all that are not negative, and of the others those
that fail, because they wrap to more than the disk holds or find no 28 clear sectors.
-/
theorem honoursSize_iff {freeMap : Bitmap numBits} {fileSize : Int}
    (onDisk : numBits ≤ numSectors) (fits : CInt.InRange fileSize)
    : HonoursSize freeMap fileSize
      ↔ 0 ≤ fileSize ∨ fileSize < -2147483648 + maxFileSize
        ∨ freeMap.numClear < numDirect := by
  rw [numSectors_eq] at onDisk
  have bits : numBits ≤ 2147483648 := by omega
  have most := freeMap.numClear_le
  obtain ⟨⟨success, header, after⟩, returned, spec⟩ :=
    @allocate_spec numBits freeMap fileSize bits fits
  rcases le_or_gt 0 fileSize with nonneg | negative
  · rw [allocatedSize_of_nonneg nonneg] at spec
    refine iff_of_true ⟨success, header, after, returned, fun succeeded => ?_⟩ (.inl nonneg)
    subst succeeded
    exact spec.for
  have total := allocatedSize_of_negative negative fits
  rw [maxFileSize_eq] at total ⊢
  rw [numDirect_eq]
  constructor
  · intro honours
    by_contra refused
    rw [if_neg (by omega)] at total
    refine not_honoursSize bits negative fits ?_ honours
    rw [total]
    change (28 : Int) ≤ _
    omega
  · intro condition
    refine ⟨success, header, after, returned, fun succeeded => ?_⟩
    have room := spec.success_iff.mp succeeded
    rw [total] at room
    exfalso
    unfold CInt.InRange at fits
    simp only [sectorsNeeded, sectorSize_eq, maxFileSize_eq] at room
    split at room <;> omega

theorem honoursSize_of_two_headers : HonoursSize (Bitmap.new 100) 5000 :=
  (honoursSize_iff (by decide) (by decide)).mpr (.inl (by decide))

/-- On an empty map a request for -1 bytes gives a file of 3584 bytes. -/
theorem negative_size_allocates : ¬HonoursSize (Bitmap.new 100) (-1) :=
  not_honoursSize (by decide) (by decide) (by decide) (by decide)

end FileHeader

end Nachos.FileSys
