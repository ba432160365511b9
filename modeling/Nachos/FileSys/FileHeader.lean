import Nachos.FileSys.Disk
import Nachos.KernelLib.Bitmap

/-! File headers: chains of one-sector blocks that list the data sectors of a file. -/

namespace Nachos.FileSys

open Bytes Routines

/-- Data sectors listed in one header block: a sector of words less the four other fields. -/
def numDirect : Nat := (sectorSize - 4 * 4) / 4

/-- Bytes described by one header block. -/
def maxFileSize : Nat := numDirect * sectorSize

@[simp]
theorem numDirect_eq : numDirect = 28 := rfl

@[simp]
theorem maxFileSize_eq : maxFileSize = 3584 := rfl

/-- The fields of a header besides its pointer to the next header in memory. -/
structure HeaderBlock where
  numBytes : Int
  numSectors : Int
  dataSectors : Vector Int numDirect
  nextFileHeaderSector : Int
  deriving DecidableEq

/-- A header in memory. Behind the pointer of a `link` stands the next header; the pointer
of a `last` block leads to no header, whatever its value.
-/
inductive FileHeader where
  | last (block : HeaderBlock) (nextFileHeader : Nat)
  | link (block : HeaderBlock) (nextFileHeader : FileHeader)
  deriving DecidableEq

namespace FileHeader

/-- The block of the first header of a chain. -/
def block : FileHeader → HeaderBlock
  | .last block _ => block
  | .link block _ => block

/-- What following a pointer that leads to no header does. -/
def badPointer (pointer : Nat) : Fault :=
  if pointer = 0 then .nullPointer else .danglingPointer

-----------------------------------------------------------------------------------------
-- Allocation and deallocation
-----------------------------------------------------------------------------------------

variable {numBits : Nat}

/-- The loop of `allocate` over the data sectors of one block. -/
def allocateSectors : Nat → Bitmap numBits → Except Fault (List Int × Bitmap numBits)
  | 0, freeMap => .ok ([], freeMap)
  | count + 1, freeMap =>
      let (sector, marked) := freeMap.findAndSet
      if sector ≥ 0 then do
        let (sectors, after) ← allocateSectors count marked
        .ok (sector :: sectors, after)
      else .error .assertion

/-- The block with the given sectors; entries past them keep the constructor's -1. -/
def blockOf (numBytes numSectors : Int) (sectors : List Int) (next : Int) : HeaderBlock :=
  {
    numBytes
    numSectors
    dataSectors := Vector.ofFn (fun index => sectors.getD index (-1))
    nextFileHeaderSector := next
  }

/-- The part of the requested size that one block takes: the comparison is unsigned. -/
def blockBytes (fileSize : Int) : Int :=
  if CInt.unsigned fileSize ≤ maxFileSize then fileSize else maxFileSize

/-- What is left of a size gets smaller with each header, which ends the recursion of `Allocate`. -/
theorem unsigned_rest_lt {fileSize : Int}
    (positive : 0 < CInt.wrap (fileSize - blockBytes fileSize))
    : (CInt.unsigned (CInt.wrap (fileSize - blockBytes fileSize))).toNat
      < (CInt.unsigned fileSize).toNat := by
  revert positive
  unfold blockBytes
  split
  · simp [CInt.wrap]
  · rename_i big
    simp only [CInt.wrap, CInt.unsigned, maxFileSize_eq] at big ⊢
    omega

/-- Give a new file its data sectors and further headers. The result carries whether the
space sufficed, and the header and map as they are then, also after a failure.
-/
def allocate (freeMap : Bitmap numBits) (fileSize : Int)
    : Except Fault (Bool × FileHeader × Bitmap numBits) :=
  let numBytes := blockBytes fileSize
  let rest := CInt.wrap (fileSize - numBytes)
  let count := CInt.divRoundUp numBytes sectorSize
  if freeMap.numClear < count then
    .ok (false, .last (blockOf numBytes count [] (-1)) 0, freeMap)
  else do
    let (sectors, filled) ← allocateSectors count.toNat freeMap
    if 0 < rest then
      let (next, linked) := filled.findAndSet
      if next = -1 then
        .ok (false, .last (blockOf numBytes count sectors next) 0, linked)
      else do
        let (success, tail, after) ← allocate linked rest
        .ok (success, .link (blockOf numBytes count sectors next) tail, after)
    else .ok (true, .last (blockOf numBytes count sectors (-1)) 0, filled)
termination_by (CInt.unsigned fileSize).toNat
decreasing_by exact unsigned_rest_lt ‹_›

/-- Clear the given sectors, each of which must be marked. -/
def deallocateSectors
    : List Int → Bitmap numBits → Except Fault (Bitmap numBits)
  | [], freeMap => .ok freeMap
  | sector :: rest, freeMap => do
      let marked ← freeMap.test sector
      if marked then
        let cleared ← freeMap.clear sector
        deallocateSectors rest cleared
      else .error .assertion

/-- The data sectors one block lists, which must fit its table. -/
def listedSectors (block : HeaderBlock) : Except Fault (List Int) :=
  if block.numSectors ≤ numDirect then
    .ok (block.dataSectors.toList.take block.numSectors.toNat)
  else .error .outOfBounds

/-- Clear the data sectors of the file, header by header. -/
def deallocate : FileHeader → Bitmap numBits → Except Fault (Bitmap numBits)
  | .last block pointer, freeMap => do
      let sectors ← listedSectors block
      let cleared ← deallocateSectors sectors freeMap
      if block.nextFileHeaderSector ≠ -1 then .error (badPointer pointer)
      else .ok cleared
  | .link block next, freeMap => do
      let sectors ← listedSectors block
      let cleared ← deallocateSectors sectors freeMap
      if block.nextFileHeaderSector ≠ -1 then next.deallocate cleared
      else .ok cleared

-----------------------------------------------------------------------------------------
-- Images on disk
-----------------------------------------------------------------------------------------

/-- The words of a header in memory order: pointer, sizes, data sectors, next sector. -/
def imageWord (pointer : Nat) (block : HeaderBlock) (word : Nat) : Int :=
  if word = 0 then pointer
  else if word = 1 then block.numBytes
  else if word = 2 then block.numSectors
  else if word < numDirect + 3 then block.dataSectors[word - 3]?.getD 0
  else block.nextFileHeaderSector

/-- The raw bytes of a header object. -/
def image (pointer : Nat) (block : HeaderBlock) : Sector :=
  Sector.ofBuffer (fun offset => intByte (imageWord pointer block (offset / 4)) (offset % 4))

/-- The pointer and block that raw bytes stand for. -/
def ofImage (sector : Sector) : Nat × HeaderBlock :=
  let bytes := sector.bytes
  (
    wordAt bytes 0,
    {
      numBytes := intAt bytes 4
      numSectors := intAt bytes 8
      dataSectors := Vector.ofFn (fun index => intAt bytes (12 + 4 * index))
      nextFileHeaderSector := intAt bytes (12 + 4 * numDirect)
    }
  )

/-- Read a chain of at most `fuel` headers from disk. -/
def fetchFromFuel : Nat → Int → DiskRoutine FileHeader
  | 0, _ => throw Fault.endless
  | fuel + 1, sector => do
      let raw ← readSector sector
      let (pointer, block) := ofImage raw
      if block.nextFileHeaderSector ≠ -1 then
        let next ← fetchFromFuel fuel block.nextFileHeaderSector
        return .link block next
      else return .last block pointer

/-- Read a chain of headers from disk. A chain of more headers than the disk has sectors
comes back to a sector it has passed, and the source's recursion does not end.
-/
def fetchFrom (sector : Int) : DiskRoutine FileHeader := fetchFromFuel numSectors sector

/-- Write a chain to disk; `address` gives the memory address of the header at each depth,
which the raw bytes of the header before it contain.
-/
def writeBack (address : Nat → Nat) : FileHeader → Int → DiskRoutine Unit
  | .last block pointer, sector => do
      writeSector sector (image pointer block)
      if block.nextFileHeaderSector ≠ -1 then throw (badPointer pointer) else pure ()
  | .link block next, sector => do
      writeSector sector (image (address 0) block)
      if block.nextFileHeaderSector ≠ -1 then
        next.writeBack (fun depth => address (depth + 1)) block.nextFileHeaderSector
      else pure ()

-----------------------------------------------------------------------------------------
-- Lengths and offsets
-----------------------------------------------------------------------------------------

/-- Bytes in the file. -/
def fileLength : FileHeader → Except Fault Int
  | .last block pointer =>
      if block.nextFileHeaderSector = -1 then .ok block.numBytes
      else .error (badPointer pointer)
  | .link block next =>
      if block.nextFileHeaderSector = -1 then .ok block.numBytes
      else do
        let rest ← next.fileLength
        .ok (block.numBytes + rest)

/-- The sector that stores the byte at `offset`, or -1 outside the file. -/
def byteToSector : FileHeader → Int → Except Fault Int
  | header@(.last block pointer), offset => do
      let length ← header.fileLength
      if offset < 0 ∨ offset ≥ length then .ok (-1)
      else if CInt.divRoundDown offset sectorSize < numDirect then
        .ok (block.dataSectors[(CInt.divRoundDown offset sectorSize).toNat]?.getD (-1))
      else if pointer = 0 then .ok (-1)
      else .error .danglingPointer
  | header@(.link block next), offset => do
      let length ← header.fileLength
      if offset < 0 ∨ offset ≥ length then .ok (-1)
      else if CInt.divRoundDown offset sectorSize < numDirect then
        .ok (block.dataSectors[(CInt.divRoundDown offset sectorSize).toNat]?.getD (-1))
      else next.byteToSector (offset - numDirect * sectorSize)

end FileHeader

end Nachos.FileSys
