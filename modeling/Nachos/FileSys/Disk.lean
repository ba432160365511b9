import Nachos.Fault
import Nachos.Lib.Bytes
import Nachos.Lib.Routine

/-! The synchronous disk: numbered sectors of 128 bytes, read and written whole. -/

namespace Nachos.FileSys

open Bytes Routines

/-- Bytes in a disk sector. -/
def sectorSize : Nat := 128

/-- Sectors in a disk track. -/
def sectorsPerTrack : Nat := 32

/-- Tracks on the disk. -/
def numTracks : Nat := 16384

/-- Sectors on the disk. -/
def numSectors : Nat := sectorsPerTrack * numTracks

@[simp]
theorem sectorSize_eq : sectorSize = 128 := rfl

@[simp]
theorem numSectors_eq : numSectors = 524288 := rfl

abbrev Sector := Vector Byte sectorSize

/-- The bytes of a sector by offset. -/
def Sector.bytes (sector : Sector) : Buffer := fun offset => sector[offset]?.getD 0

/-- The first bytes of a buffer as a sector. -/
def Sector.ofBuffer (source : Buffer) : Sector := Vector.ofFn (fun offset => source offset)

@[simp]
theorem Sector.bytes_ofBuffer (source : Buffer) {offset : Nat} (inside : offset < sectorSize)
    : (Sector.ofBuffer source).bytes offset = source offset := by
  rw [Sector.bytes, Sector.ofBuffer, Vector.getElem?_eq_getElem inside, Vector.getElem_ofFn,
    Option.getD_some]

/-- Sector contents by sector number. -/
abbrev Disk := Int → Sector

/-- Sector numbers the disk accepts. -/
def IsSector (sector : Int) : Prop := 0 ≤ sector ∧ sector < numSectors

instance (sector : Int) : Decidable (IsSector sector) :=
  inferInstanceAs (Decidable (_ ∧ _))

/-- Kernel code that works on the disk. -/
abbrev DiskRoutine := Routine Fault Disk

def readSector (sector : Int) : DiskRoutine Sector := do
  Routine.assert (IsSector sector) Fault.assertion
  let disk ← Routine.get
  return disk sector

def writeSector (sector : Int) (data : Sector) : DiskRoutine Unit := do
  Routine.assert (IsSector sector) Fault.assertion
  let disk ← Routine.get
  Routine.set (Function.update disk sector data)

theorem run_readSector {sector : Int} (isSector : IsSector sector) (disk : Disk)
    : (readSector sector).run disk = (.ok (disk sector), disk) := by
  rw [readSector, Routine.run_bind_ok (Routine.run_assert_of isSector _ _),
    Routine.run_bind_ok (Routine.run_get _), Routine.run_pure]

theorem run_writeSector {sector : Int} (isSector : IsSector sector) (data : Sector) (disk : Disk)
    : (writeSector sector data).run disk = (.ok (), Function.update disk sector data) := by
  rw [writeSector, Routine.run_bind_ok (Routine.run_assert_of isSector _ _),
    Routine.run_bind_ok (Routine.run_get _), Routine.run_set]

/-- A sector off the disk is refused and nothing is written. -/
theorem run_writeSector_off {sector : Int} (off : ¬IsSector sector) (data : Sector)
    (disk : Disk)
    : (writeSector sector data).run disk = (.error .assertion, disk) := by
  rw [writeSector, Routine.run_bind_error (Routine.run_assert_not off _ _)]

/-- Reading changes nothing. -/
theorem keeps_readSector {property : Disk → Prop} (sector : Int)
    : Routine.Keeps property (readSector sector) :=
  Routine.keeps_bind (Routine.keeps_assert _ _)
    (fun _ => Routine.keeps_bind Routine.keeps_get (fun _ => Routine.keeps_pure _))

/-- Writing changes the given sector at most. -/
theorem keeps_writeSector {sector other : Int} (apart : other ≠ sector) (data value : Sector)
    : Routine.Keeps (fun disk => disk other = value) (writeSector sector data) := by
  intro disk holds
  by_cases isSector : IsSector sector
  · rw [run_writeSector isSector]
    exact (Function.update_of_ne apart ..).trans holds
  · rwa [run_writeSector_off isSector]

end Nachos.FileSys
