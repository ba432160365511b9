import Nachos.FileSys.ByteRanges

/-! Requests of any size. The sum of position and size is an `int`; from 2 to the 31 on it
wraps to a negative number, which is not past the end of the file, and the request is not
cut.
-/

namespace Nachos.FileSys

open Bytes Routines

namespace OpenFile

variable {file : OpenFile} {numBytes position : Int}

/-- Sectors of the buffer of a transfer. -/
def bufferSectors (fileLength numBytes position : Int) : Int :=
  1 + lastSector (clip fileLength numBytes position) position - firstSector position

/-- Whatever the disk holds, a read returns the bytes up to the end of the file. -/
def ReadsToEnd (file : OpenFile) (numBytes position : Int) : Prop :=
  ∀ (into : Buffer) (start : Nat) (disk : Disk),
    (file.readAt into start numBytes position).run disk
      = (.ok (min numBytes (file.hdr.size - position),
          blit into start (fun offset => fileByte disk file.hdr (position.toNat + offset))
            (min numBytes (file.hdr.size - position)).toNat), disk)

/-- Whatever the disk holds, a write replaces the bytes up to the end of the file. -/
def WritesToEnd (file : OpenFile) (numBytes position : Int) : Prop :=
  ∀ (source : Buffer) (disk : Disk), ∃ after,
    (file.writeAt source numBytes position).run disk
        = (.ok (min numBytes (file.hdr.size - position)), after)
      ∧ ∀ offset : Nat, (offset : Int) < file.hdr.size
          → fileByte after file.hdr offset
            = if position ≤ offset
                  ∧ offset < position + min numBytes (file.hdr.size - position) then
                source (offset - position.toNat)
              else fileByte disk file.hdr offset

/-- The buffer has the sectors that the bytes up to the end of the file stand in. -/
def BuffersCovered (file : OpenFile) (numBytes position : Int) : Prop :=
  bufferSectors file.hdr.size numBytes position
    = (position + min numBytes (file.hdr.size - position) - 1) / sectorSize
      - position / sectorSize + 1

/-- A request is cut at the end of the file and touches no sector but those it needs: where
it returns, no sector number was off the disk.
-/
structure ClipsSafely (file : OpenFile) (numBytes position : Int) : Prop where
  reads : file.ReadsToEnd numBytes position
  writes : file.WritesToEnd numBytes position
  buffer : file.BuffersCovered numBytes position

-----------------------------------------------------------------------------------------
-- Requests that are cut
-----------------------------------------------------------------------------------------

theorem transferCount_of_inside {size : Int} (positive : 0 < numBytes)
    (inside : position < size)
    : transferCount size numBytes position = min numBytes (size - position) :=
  if_neg (by omega)

/-- Requests without overflow are cut at the end of the file, from the reads and writes of all such
requests.
-/
theorem clipsSafely_of_lt (usable : file.hdr.Usable) (nonneg : 0 ≤ position)
    (inside : position < file.hdr.size) (positive : 0 < numBytes)
    (fits : position + numBytes < 2147483648)
    : file.ClipsSafely numBytes position := by
  have moved := transferCount_of_inside positive inside
  refine ⟨fun into start disk => ?_, fun source disk => ?_, ?_⟩
  · have read := run_readAt usable into start nonneg (fun _ => fits) disk
    rwa [moved] at read
  · obtain ⟨after, run, _, contents⟩ := run_writeAt usable source nonneg (fun _ => fits) disk
    rw [moved] at run contents
    exact ⟨after, run, contents⟩
  · have small := usable.size_lt
    have last
        : CInt.wrap (position + min numBytes (file.hdr.size - position) - 1)
          = position + min numBytes (file.hdr.size - position) - 1 :=
      CInt.wrap_of_lt (by omega) (by omega)
    rw [BuffersCovered, bufferSectors, clip_eq small nonneg fits positive inside, moved,
      lastSector, firstSector, last, CInt.divRoundDown_of_nonneg (by omega),
      CInt.divRoundDown_of_nonneg nonneg]
    omega

-----------------------------------------------------------------------------------------
-- Requests that are not cut
-----------------------------------------------------------------------------------------

/-- A sum past the range of `int` is negative, and the request stays as it is. -/
theorem clip_of_overflow {size : Int} (small : size ≤ 67108864) (nonneg : 0 ≤ position)
    (inside : position < size) (fits : numBytes < 2147483648)
    (past : 2147483648 ≤ position + numBytes)
    : clip size numBytes position = numBytes := by
  have wrapped : CInt.wrap (position + numBytes) = position + numBytes - 4294967296 := by
    unfold CInt.wrap
    omega
  rw [clip, wrapped, if_neg (by omega)]

/-- A read that returns has moved the bytes that were left after the cut. -/
theorem readAt_returns_clip {into buf : Buffer} {start : Nat} {moved : Int}
    {disk after : Disk} (valid : file.hdr.WellFormed) (nonempty : 0 < numBytes)
    (inside : position < file.hdr.size)
    (returned : (file.readAt into start numBytes position).run disk = (.ok (moved, buf), after))
    : moved = clip file.hdr.size numBytes position := by
  rw [readAt, length, valid.fileLength, Routine.run_bind_ok (Routine.run_lift _ _),
    if_neg (by omega)] at returned
  obtain ⟨_, _, _, returned⟩ := Routine.of_run_bind_ok returned
  obtain ⟨_, _, _, returned⟩ := Routine.of_run_bind_ok returned
  obtain ⟨_, _, _, returned⟩ := Routine.of_run_bind_ok returned
  rw [Routine.run_pure] at returned
  simp only [Prod.mk.injEq, Except.ok.injEq] at returned
  exact returned.1.1.symm

/-- A write that returns has moved the bytes that were left after the cut. -/
theorem writeAt_returns_clip {source : Buffer} {moved : Int} {disk after : Disk}
    (valid : file.hdr.WellFormed) (nonempty : 0 < numBytes) (inside : position < file.hdr.size)
    (returned : (file.writeAt source numBytes position).run disk = (.ok moved, after))
    : moved = clip file.hdr.size numBytes position := by
  rw [writeAt, length, valid.fileLength, Routine.run_bind_ok (Routine.run_lift _ _),
    if_neg (by omega)] at returned
  obtain ⟨_, _, _, returned⟩ := Routine.of_run_bind_ok returned
  obtain ⟨_, _, _, returned⟩ := Routine.of_run_bind_ok returned
  obtain ⟨_, _, _, returned⟩ := Routine.of_run_bind_ok returned
  obtain ⟨_, _, _, returned⟩ := Routine.of_run_bind_ok returned
  obtain ⟨_, _, _, returned⟩ := Routine.of_run_bind_ok returned
  rw [Routine.run_pure] at returned
  simp only [Prod.mk.injEq, Except.ok.injEq] at returned
  exact returned.1.symm

/-- A read whose sum overflows is not cut at the end: the number that it returns is another one. -/
theorem not_readsToEnd (usable : file.hdr.Usable) (nonneg : 0 ≤ position)
    (inside : position < file.hdr.size) (fits : numBytes < 2147483648)
    (past : 2147483648 ≤ position + numBytes)
    : ¬file.ReadsToEnd numBytes position := by
  intro reads
  have small := usable.size_lt
  have moved := readAt_returns_clip usable.valid (by omega) inside
    (reads (fun _ => 0) 0 (fun _ => Sector.ofBuffer (fun _ => 0)))
  rw [clip_of_overflow small nonneg inside fits past] at moved
  omega

/-- The same for a write. -/
theorem not_writesToEnd (usable : file.hdr.Usable) (nonneg : 0 ≤ position)
    (inside : position < file.hdr.size) (fits : numBytes < 2147483648)
    (past : 2147483648 ≤ position + numBytes)
    : ¬file.WritesToEnd numBytes position := by
  intro writes
  have small := usable.size_lt
  obtain ⟨_, run, _⟩ := writes (fun _ => 0) (fun _ => Sector.ofBuffer (fun _ => 0))
  have moved := writeAt_returns_clip usable.valid (by omega) inside run
  rw [clip_of_overflow small nonneg inside fits past] at moved
  omega

/-- The buffer is asked for 16 million sectors less those before the request, or for a
negative number of sectors.
-/
theorem bufferSectors_of_overflow {size : Int} (small : size ≤ 67108864)
    (nonneg : 0 ≤ position) (inside : position < size) (fits : numBytes < 2147483648)
    (past : 2147483648 ≤ position + numBytes)
    : bufferSectors size numBytes position
      = if position + numBytes = 2147483648 then 16777216 - position / sectorSize
        else 1 - (4294967297 - position - numBytes) / sectorSize - position / sectorSize := by
  rw [bufferSectors, clip_of_overflow small nonneg inside fits past, lastSector, firstSector,
    CInt.divRoundDown_of_nonneg nonneg]
  split
  · rename_i edge
    have last : CInt.wrap (position + numBytes - 1) = 2147483647 := by
      rw [edge]
      rfl
    rw [last]
    change 1 + 16777215 - _ = _
    omega
  · have last
        : CInt.wrap (position + numBytes - 1) = -(4294967297 - position - numBytes) := by
      unfold CInt.wrap
      omega
    rw [last, CInt.divRoundDown, Int.neg_tdiv, Int.tdiv_eq_ediv_of_nonneg (by omega)]
    omega

theorem not_buffersCovered (usable : file.hdr.Usable) (nonneg : 0 ≤ position)
    (inside : position < file.hdr.size) (fits : numBytes < 2147483648)
    (past : 2147483648 ≤ position + numBytes)
    : ¬file.BuffersCovered numBytes position := by
  have small := usable.size_lt
  rw [BuffersCovered, bufferSectors_of_overflow small nonneg inside fits past, sectorSize_eq]
  split <;> omega

/-- Reading on behind the last sector of a file gives the disk the sector -1, by induction on
the sectors that are left.
-/
theorem run_readSectors_behind {hdr : FileHeader} (usable : hdr.Usable)
    {first before count : Nat}
    (inside : before = 0 ∨ ((first + before - 1) * sectorSize : Nat) < hdr.size)
    (behind : hdr.size ≤ ((first + before) * sectorSize : Nat))
    (bounded : (first + before) * sectorSize < 2147483648) (more : before < count)
    (buf : Buffer) (disk : Disk)
    : (readSectors hdr first count buf).run disk = (.error .assertion, disk) := by
  induction count with
  | zero => exact absurd more (Nat.not_lt_zero _)
  | succ count ih =>
      rcases Nat.lt_succ_iff_lt_or_eq.mp more with later | rfl
      · exact Routine.run_bind_error (ih later) _
      · have offset
            : CInt.wrap ((first + before) * sectorSize) = ((first + before) * sectorSize : Nat) := by
          rw [CInt.wrap_of_lt (by positivity) (by exact_mod_cast bounded)]
          push_cast
          rfl
        have off : ¬IsSector (-1) := by decide
        rw [readSectors, Routine.run_bind_ok (run_readSectors usable inside buf disk), offset,
          usable.valid.byteToSector_outside (.inr behind),
          Routine.run_bind_ok (Routine.run_lift _ _)]
        exact Routine.run_bind_error
          (Routine.run_bind_error (Routine.run_assert_not off _ _) _) _

/-- At the edge of the range the buffer is there, but the disk is asked for the sector -1. -/
theorem run_readAt_of_edge (usable : file.hdr.Usable) (nonneg : sectorSize ≤ position)
    (inside : position < file.hdr.size) (edge : position + numBytes = 2147483648)
    (into : Buffer) (start : Nat) (disk : Disk)
    : (file.readAt into start numBytes position).run disk = (.error .assertion, disk) := by
  have small := usable.size_lt
  obtain ⟨position, rfl⟩ := Int.eq_ofNat_of_zero_le (show 0 ≤ position by omega)
  rw [sectorSize_eq] at nonneg
  have sectors := bufferSectors_of_overflow small (by omega) inside (by omega) edge.ge
  rw [bufferSectors, clip_of_overflow small (by omega) inside (by omega) edge.ge, if_pos edge,
    ← Int.natCast_ediv] at sectors
  rw [readAt, length, usable.valid.fileLength, Routine.run_bind_ok (Routine.run_lift _ _),
    if_neg (by omega), clip_of_overflow small (by omega) inside (by omega) edge.ge]
  simp only [sectors]
  have room
      : 0 ≤ CInt.wrap ((16777216 - ((position / sectorSize : Nat) : Int)) * sectorSize) := by
    rw [sectorSize_eq, CInt.wrap_of_lt] <;> omega
  have behind
      := @run_readSectors_behind file.hdr usable (position / sectorSize)
        (((file.hdr.size + 127) / 128).toNat - position / sectorSize)
        (16777216 - ((position / sectorSize : Nat) : Int)).toNat
  rw [newBuffer, Routine.run_bind_ok (Routine.run_assert_of room _ _), firstSector_natCast,
    Routine.run_bind_error]
  apply behind <;> rw [sectorSize_eq] <;> omega

/-- A request is cut safely exactly when position and size add up to less than 2 to the 31.
-/
theorem clipsSafely_iff (usable : file.hdr.Usable) (nonneg : 0 ≤ position)
    (inside : position < file.hdr.size) (positive : 0 < numBytes)
    (fits : numBytes < 2147483648)
    : file.ClipsSafely numBytes position ↔ position + numBytes < 2147483648 := by
  constructor
  · intro safe
    by_contra past
    exact not_readsToEnd usable nonneg inside fits (not_lt.mp past) safe.reads
  · exact clipsSafely_of_lt usable nonneg inside positive

theorem clipsSafely_of_oneByte : oneByte.ClipsSafely 2147483647 0 :=
  (clipsSafely_iff usable_oneByte (le_refl 0) (by decide) (by decide) (by decide)).mpr
    (by decide)

/-- The largest size at position 150 of that file asks for a buffer of negative size. -/
theorem largest_size_stops : ¬twoSectors.ClipsSafely 2147483647 150 := by
  intro safe
  have stopped
      : ((twoSectors.readAt (fun _ => 0) 0 2147483647 150).run
          (fun _ => Sector.ofBuffer (fun _ => 0))).1
        = .error .badAlloc :=
    rfl
  rw [safe.reads] at stopped
  exact nomatch stopped

end OpenFile

end Nachos.FileSys
