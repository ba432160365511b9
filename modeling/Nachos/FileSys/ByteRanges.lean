import Nachos.FileSys.Transfer

/-! Requests as byte ranges: what a read returns and what a write leaves on the disk. Behind
the end of a file the last sector of a write gets zeros.
-/

namespace Nachos.FileSys

open Bytes Routines

namespace OpenFile

/-- The sector that holds the byte at `offset`, as the header gives it. -/
theorem byteToSector_natCast {hdr : FileHeader} (valid : hdr.WellFormed) {offset : Nat}
    (inside : (offset : Int) < hdr.size)
    : hdr.byteToSector offset = .ok (hdr.sectors.getD (offset / sectorSize) (-1)) := by
  have found := valid.byteToSector_inside (Int.natCast_nonneg offset) inside
  rwa [← Int.natCast_ediv, Int.toNat_natCast] at found

/-- The bytes that a request moves lie in the file. -/
theorem transferCount_le {size numBytes position : Int} {offset : Nat}
    (low : position ≤ offset)
    (high : (offset : Int) < position + transferCount size numBytes position)
    : (offset : Int) < size := by
  unfold transferCount at high
  split at high <;> omega

/-- Reads and writes as accesses to the bytes `position` to `position + moved - 1` of a file:
a read returns them and changes nothing; a write replaces them, and what else it changes are
the bytes behind the end of the file in the last sector, which become zero when that
sector is written.
-/
theorem transfers_byteRange {file : OpenFile} (usable : file.hdr.Usable) (into source : Buffer)
    (start : Nat) {numBytes position : Int} (nonneg : 0 ≤ position)
    (fits : position + numBytes < 2147483648) (disk : Disk)
    : (file.readAt into start numBytes position).run disk
        = (.ok (transferCount file.hdr.size numBytes position,
            blit into start (fun offset => fileByte disk file.hdr (position.toNat + offset))
              (transferCount file.hdr.size numBytes position).toNat), disk)
      ∧ ∃ after,
          (file.writeAt source numBytes position).run disk
            = (.ok (transferCount file.hdr.size numBytes position), after)
          ∧ (∀ offset : Nat, (offset : Int) < file.hdr.size
              → fileByte after file.hdr offset
                = if position ≤ offset
                      ∧ offset < position + transferCount file.hdr.size numBytes position then
                    source (offset - position.toNat)
                  else fileByte disk file.hdr offset)
          ∧ (∀ s,
              (∀ offset : Nat,
                position ≤ offset
                → offset < position + transferCount file.hdr.size numBytes position
                → file.hdr.byteToSector offset ≠ .ok s)
              → after s = disk s)
          ∧ ∀ written offset : Nat,
              position ≤ written
              → written < position + transferCount file.hdr.size numBytes position
              → offset / sectorSize = written / sectorSize
              → file.hdr.size ≤ offset
              → fileByte after file.hdr offset = 0 := by
  refine ⟨run_readAt usable into start nonneg (fun _ => fits) disk, ?_⟩
  obtain ⟨after, run, frame, sectors⟩ := run_writeAt_sectors usable source nonneg (fun _ => fits) disk
  obtain ⟨same, again, _, contents⟩ := run_writeAt usable source nonneg (fun _ => fits) disk
  obtain rfl : same = after := (Prod.mk.inj (again.symm.trans run)).2
  refine ⟨same, run, contents, fun s outside => ?_, ?_⟩
  · apply frame
    intro offset low high equal
    apply outside offset low high
    rw [byteToSector_natCast usable.valid (transferCount_le low high), equal]
  · intro written offset low high place behind
    rw [sectors written offset low high place, byteAfter, if_neg ?_, if_neg (by omega)]
    intro range
    have reach := @transferCount_le file.hdr.size numBytes position offset (by omega) (by omega)
    omega

/-- An open file of one byte, which stands in sector 9. -/
def oneByte : OpenFile :=
  { hdr := .last (FileHeader.blockOf 1 1 [9] (-1)) 0, seekPosition := 0 }

/-- A file of one byte in one sector, to try the theorems on. -/
theorem usable_oneByte : oneByte.hdr.Usable where
  valid := by
    refine ⟨rfl, ?_, rfl, by decide, by decide, rfl⟩
    exact {
      numBytes := by decide
      numSectors := by decide
      dataSectors := by decide
      next := by decide
    }
  inside := by decide
  distinct := by decide

/-- An open file of 200 bytes in sectors 9 and 10. -/
def twoSectors : OpenFile :=
  { hdr := .last (FileHeader.blockOf 200 2 [9, 10] (-1)) 0, seekPosition := 0 }

/-- A file of two sectors, to try the theorems on. -/
theorem usable_twoSectors : twoSectors.hdr.Usable where
  valid := by
    refine ⟨rfl, ?_, rfl, by decide, by decide, rfl⟩
    exact {
      numBytes := by decide
      numSectors := by decide
      dataSectors := by decide
      next := by decide
    }
  inside := by decide
  distinct := by decide

/-- A disk full of sevens. -/
def sevens : Disk := fun _ => Sector.ofBuffer (fun _ => 7)

/-- Witness: bytes 100 to 149 of 200, the end of one sector and the beginning of another. -/
theorem transfers_byteRange_twoSectors
    : (twoSectors.readAt (fun _ => 0) 0 50 100).run sevens
        = (.ok (50,
            blit (fun _ => 0) 0 (fun offset => fileByte sevens twoSectors.hdr (100 + offset)) 50),
            sevens)
      ∧ ∃ after,
          (twoSectors.writeAt (fun _ => 1) 50 100).run sevens = (.ok 50, after)
          ∧ (∀ offset : Nat, (offset : Int) < 200
              → fileByte after twoSectors.hdr offset
                = if (100 : Int) ≤ offset ∧ (offset : Int) < 150 then 1
                  else fileByte sevens twoSectors.hdr offset)
          ∧ fileByte after twoSectors.hdr 255 = 0 := by
  obtain ⟨read, after, written, contents, _, cleared⟩ :=
    @transfers_byteRange twoSectors usable_twoSectors (fun _ => 0) (fun _ => 1) 0 50 100
      (by decide) (by decide) sevens
  exact ⟨read, after, written, contents,
    cleared 149 255 (by decide) (by decide) (by decide) (by decide)⟩

/-- A write keeps every byte that it was not asked to replace, also those behind the end of
the file in its last sector.
-/
def KeepsOtherBytes (file : OpenFile) (source : Buffer) (numBytes position : Int) (disk : Disk)
    : Prop :=
  ∀ moved after,
    (file.writeAt source numBytes position).run disk = (.ok moved, after)
    → ∀ offset < file.hdr.sectors.length * sectorSize,
        ¬(position ≤ offset ∧ offset < position + moved)
        → fileByte after file.hdr offset = fileByte disk file.hdr offset

/-- Writing the one byte of a file clears the rest of its sector. -/
theorem clears_behind_end
    : ¬oneByte.KeepsOtherBytes (fun _ => 1) 1 0 (fun _ => Sector.ofBuffer (fun _ => 7)) := by
  intro keeps
  obtain ⟨after, run, _, sectors⟩ := run_writeAt_sectors usable_oneByte (fun _ => 1) (le_refl 0)
    (fun _ => show (0 : Int) + 1 < 2147483648 by decide) (fun _ => Sector.ofBuffer (fun _ => 7))
  have cleared : fileByte after oneByte.hdr 1 = 0 :=
    sectors 0 1 (by decide) (by decide) (by decide)
  have kept := keeps _ after run 1 (by decide) (by decide)
  rw [cleared] at kept
  exact absurd kept (by decide)

end OpenFile

end Nachos.FileSys
