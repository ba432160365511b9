import Nachos.FileSys.FileHeader

/-! Open files: the header kept in memory, a seek position, and transfers of any byte range.
-/

namespace Nachos.FileSys

open Bytes Routines

structure OpenFile where
  hdr : FileHeader
  seekPosition : Int
  deriving DecidableEq

namespace OpenFile

/-- The constructor: bring the header that stands in `sector` into memory. -/
def openAt (sector : Int) : DiskRoutine OpenFile := do
  let hdr ← FileHeader.fetchFrom sector
  return { hdr, seekPosition := 0 }

def seek (file : OpenFile) (position : Int) : OpenFile :=
  { file with seekPosition := position }

/-- Bytes in the file. -/
def length (file : OpenFile) : Except Fault Int := file.hdr.fileLength

/-- The allocation of the sector buffer of a transfer. -/
def newBuffer (numSectors : Int) : DiskRoutine Unit :=
  Routine.assert (0 ≤ CInt.wrap (numSectors * sectorSize)) Fault.badAlloc

/-- `bcopy` to or from the sector buffer must stay inside it. -/
def checkCopy (numSectors start numBytes : Int) : DiskRoutine Unit :=
  Routine.assert (0 ≤ start ∧ start + numBytes ≤ CInt.wrap (numSectors * sectorSize))
    Fault.outOfBounds

/-- The loop of `readAt`: `count` sectors of the file from number `first` on. -/
def readSectors (hdr : FileHeader) (first : Int) : Nat → Buffer → DiskRoutine Buffer
  | 0, buf => pure buf
  | count + 1, buf => do
      let filled ← readSectors hdr first count buf
      let sector ← Routine.lift (hdr.byteToSector (CInt.wrap ((first + count) * sectorSize)))
      let data ← readSector sector
      return blit filled (count * sectorSize) data.bytes sectorSize

/-- The loop of `writeAt`: `count` sectors of the file from number `first` on. -/
def writeSectors (hdr : FileHeader) (first : Int) (buf : Buffer) : Nat → DiskRoutine Unit
  | 0 => pure ()
  | count + 1 => do
      writeSectors hdr first buf count
      let sector ← Routine.lift (hdr.byteToSector (CInt.wrap ((first + count) * sectorSize)))
      writeSector sector
        (Sector.ofBuffer (fun offset => buf (count * sectorSize + offset)))

/-- The bytes left to transfer after the request is cut at the end of the file. -/
def clip (fileLength numBytes position : Int) : Int :=
  if CInt.wrap (position + numBytes) > fileLength then CInt.wrap (fileLength - position)
  else numBytes

def firstSector (position : Int) : Int := CInt.divRoundDown position sectorSize

def lastSector (numBytes position : Int) : Int :=
  CInt.divRoundDown (CInt.wrap (position + numBytes - 1)) sectorSize

/-- Copy up to `numBytes` bytes at `position` of the file to offset `start` of `into`. The
result carries the number of bytes read and the buffer.
-/
def readAt (file : OpenFile) (into : Buffer) (start : Nat) (numBytes position : Int)
    : DiskRoutine (Int × Buffer) := do
  let fileLength ← Routine.lift file.length
  if numBytes ≤ 0 ∨ position ≥ fileLength then
    return (0, into)
  else
    let count := clip fileLength numBytes position
    let first := firstSector position
    let last := lastSector count position
    let sectors := 1 + last - first
    newBuffer sectors
    let buf ← readSectors file.hdr first sectors.toNat (fun _ => 0)
    let skipped := position - first * sectorSize
    checkCopy sectors skipped count
    return (count, blit into start (fun offset => buf (skipped.toNat + offset)) count.toNat)

/-- Read one sector of the file into a sector buffer when it is only partly overwritten. -/
def fillSector (file : OpenFile) (partly : Bool) (buf : Buffer) (start : Nat) (sector : Int)
    : DiskRoutine Buffer :=
  if partly then do
    let (_, filled) ← file.readAt buf start sectorSize (sector * sectorSize)
    return filled
  else pure buf

/-- Copy up to `numBytes` bytes of `source` to `position` of the file. The first and last
sector are read first when they are only partly overwritten.
-/
def writeAt (file : OpenFile) (source : Buffer) (numBytes position : Int)
    : DiskRoutine Int := do
  let fileLength ← Routine.lift file.length
  if numBytes ≤ 0 ∨ position ≥ fileLength then
    return 0
  else
    let count := clip fileLength numBytes position
    let first := firstSector position
    let last := lastSector count position
    let sectors := 1 + last - first
    newBuffer sectors
    let firstAligned := decide (position = first * sectorSize)
    let lastAligned :=
      decide (CInt.wrap (position + count) = CInt.wrap ((last + 1) * sectorSize))
    let head ← file.fillSector (!firstAligned) (fun _ => 0) 0 first
    let buf ← file.fillSector (!lastAligned && (decide (first ≠ last) || firstAligned)) head
      ((last - first) * sectorSize).toNat last
    let skipped := position - first * sectorSize
    checkCopy sectors skipped count
    writeSectors file.hdr first (blit buf skipped.toNat source count.toNat) sectors.toNat
    return count

/-- Read from the seek position and advance it. -/
def read (file : OpenFile) (into : Buffer) (numBytes : Int)
    : DiskRoutine (Int × Buffer × OpenFile) := do
  let (result, buf) ← file.readAt into 0 numBytes file.seekPosition
  return (result, buf, file.seek (CInt.wrap (file.seekPosition + result)))

/-- Write at the seek position and advance it. -/
def write (file : OpenFile) (source : Buffer) (numBytes : Int)
    : DiskRoutine (Int × OpenFile) := do
  let result ← file.writeAt source numBytes file.seekPosition
  return (result, file.seek (CInt.wrap (file.seekPosition + result)))

end OpenFile

end Nachos.FileSys
