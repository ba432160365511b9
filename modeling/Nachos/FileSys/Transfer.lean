import Nachos.FileSys.HeaderChain
import Nachos.FileSys.OpenFile

/-! What transfers do to the bytes of a file: a read returns them, a write replaces the
requested ones and touches no sector outside the file.
-/

namespace Nachos.FileSys

open Bytes Routines

/-- The byte at `offset` of the file with the given header. -/
def fileByte (disk : Disk) (hdr : FileHeader) (offset : Nat) : Byte :=
  (disk (hdr.sectors.getD (offset / sectorSize) (-1))).bytes (offset % sectorSize)

/-- Bytes that a request moves in a file of `size` bytes. -/
def transferCount (size numBytes position : Int) : Int :=
  if numBytes ≤ 0 ∨ position ≥ size then 0 else min numBytes (size - position)

/-- A header whose data sectors are distinct sectors of the disk. -/
structure FileHeader.Usable (hdr : FileHeader) : Prop where
  valid : hdr.WellFormed
  inside : ∀ s ∈ hdr.sectors, IsSector s
  distinct : hdr.sectors.Nodup

/-- The bytes of a file depend only on its data sectors. -/
theorem fileByte_congr {disk other : Disk} {hdr : FileHeader} (valid : hdr.WellFormed)
    (same : ∀ s ∈ hdr.sectors, other s = disk s) {offset : Nat}
    (inside : (offset : Int) < hdr.size)
    : fileByte other hdr offset = fileByte disk hdr offset := by
  have member := valid.sector_mem (Int.natCast_nonneg offset) inside
  rw [← Int.natCast_ediv, Int.toNat_natCast] at member
  rw [fileByte, fileByte, same _ member]

/-- A file in distinct sectors of the disk has fewer than 2 to the 31 bytes. -/
theorem FileHeader.Usable.size_lt {hdr : FileHeader} (usable : hdr.Usable)
    : hdr.size ≤ 67108864 := by
  have subset : hdr.sectors.toFinset ⊆ Finset.Ico 0 (numSectors : Int) := by
    intro s member
    exact Finset.mem_Ico.mpr (usable.inside s (List.mem_toFinset.mp member))
  have bound := Finset.card_le_card subset
  rw [List.toFinset_card_of_nodup usable.distinct, Int.card_Ico,
    usable.valid.sectors_length] at bound
  simp only [sectorSize_eq, numSectors_eq] at bound
  omega

/-- Sector numbers of a file in order are different sectors. -/
theorem FileHeader.Usable.sector_inj {hdr : FileHeader} (usable : hdr.Usable)
    {left right : Nat} (leftInside : (left * sectorSize : Nat) < hdr.size)
    (rightInside : (right * sectorSize : Nat) < hdr.size)
    (same : hdr.sectors.getD left (-1) = hdr.sectors.getD right (-1))
    : left = right := by
  have length := usable.valid.sectors_length
  simp only [sectorSize_eq] at leftInside rightInside length
  have leftListed : left < hdr.sectors.length := by omega
  have rightListed : right < hdr.sectors.length := by omega
  rw [List.getD_eq_getElem _ _ leftListed, List.getD_eq_getElem _ _ rightListed] at same
  exact (usable.distinct.getElem_inj_iff).mp same

/-- The sectors of a file by their number. -/
theorem FileHeader.Usable.sector_mem {hdr : FileHeader} (usable : hdr.Usable) {sector : Nat}
    (inside : (sector * sectorSize : Nat) < hdr.size)
    : hdr.sectors.getD sector (-1) ∈ hdr.sectors := by
  have found := usable.valid.sector_mem (Int.natCast_nonneg _) inside
  rwa [← Int.natCast_ediv, Int.toNat_natCast, Nat.mul_div_cancel _ (by decide)] at found

/-- The bytes of a file from its start. -/
def Holds (disk : Disk) (hdr : FileHeader) (bytes : Buffer) (count : Nat) : Prop :=
  ∀ offset < count, fileByte disk hdr offset = bytes offset

theorem Holds.congr {disk other : Disk} {hdr : FileHeader} {bytes : Buffer} {count : Nat}
    (holds : Holds disk hdr bytes count) (valid : hdr.WellFormed) (reach : count ≤ hdr.size)
    (same : ∀ s ∈ hdr.sectors, other s = disk s)
    : Holds other hdr bytes count := by
  intro offset inside
  rw [fileByte_congr valid same (by omega), holds offset inside]

namespace OpenFile

-----------------------------------------------------------------------------------------
-- The loops over sectors
-----------------------------------------------------------------------------------------

/-- The sector an iteration of a transfer loop works on. -/
theorem byteToSector_step {hdr : FileHeader} (usable : hdr.Usable) {sector : Nat}
    (inside : (sector * sectorSize : Nat) < hdr.size)
    : hdr.byteToSector (CInt.wrap (sector * sectorSize))
      = .ok (hdr.sectors.getD sector (-1)) := by
  have bound := usable.size_lt
  have position : CInt.wrap (sector * sectorSize) = (sector * sectorSize : Nat) := by
    rw [CInt.wrap_of_lt (by positivity) (by push_cast at inside; omega)]
    push_cast
    rfl
  have number : (((sector * sectorSize : Nat) : Int) / sectorSize).toNat = sector := by
    simp only [sectorSize_eq]
    omega
  rw [position, usable.valid.byteToSector_inside (Int.natCast_nonneg _) inside, number]

/-- The last of some sectors of a file begins inside it, and so do those before. -/
theorem inside_succ {size : Int} {first count : Nat}
    (inside : count + 1 = 0 ∨ ((first + (count + 1) - 1) * sectorSize : Nat) < size)
    : ((first + count) * sectorSize : Nat) < size
      ∧ (count = 0 ∨ ((first + count - 1) * sectorSize : Nat) < size) := by
  have last : ((first + count) * sectorSize : Nat) < size := by
    rcases inside with none | inside
    · omega
    · exact inside
  refine ⟨last, ?_⟩
  simp only [sectorSize_eq] at last ⊢
  omega

/-- A sector copied behind the sectors before it extends the copied part of the file. -/
theorem blit_sector (disk : Disk) (hdr : FileHeader) (first count : Nat) (buf : Buffer)
    : blit
        (blit buf 0 (fun offset => fileByte disk hdr (first * sectorSize + offset))
          (count * sectorSize))
        (count * sectorSize) (disk (hdr.sectors.getD (first + count) (-1))).bytes sectorSize
      = blit buf 0 (fun offset => fileByte disk hdr (first * sectorSize + offset))
          ((count + 1) * sectorSize) := by
  funext offset
  rw [sectorSize_eq]
  rcases Nat.lt_or_ge offset (count * 128) with below | above
  · rw [blit_outside _ _ (.inl below), blit_inside _ _ (by omega) (by omega),
      blit_inside _ _ (by omega) (by omega)]
  rcases Nat.lt_or_ge offset ((count + 1) * 128) with here | beyond
  · have quotient : (first * 128 + offset) / 128 = first + count := by omega
    have remainder : (first * 128 + offset) % 128 = offset - count * 128 := by omega
    rw [blit_inside _ _ above (by omega), blit_inside _ _ (by omega) (by omega), fileByte,
      sectorSize_eq, Nat.sub_zero, quotient, remainder]
  · rw [blit_outside _ _ (.inr (by omega)), blit_outside _ _ (.inr (by omega)),
      blit_outside _ _ (.inr (by omega))]

/-- Reading sectors fills the buffer with the bytes of the file, by induction on their
number.
-/
theorem run_readSectors {hdr : FileHeader} (usable : hdr.Usable) {first count : Nat}
    (inside : count = 0 ∨ ((first + count - 1) * sectorSize : Nat) < hdr.size)
    (buf : Buffer) (disk : Disk)
    : (readSectors hdr first count buf).run disk
      = (.ok (blit buf 0 (fun offset => fileByte disk hdr (first * sectorSize + offset))
          (count * sectorSize)), disk) := by
  induction count with
  | zero => simp [readSectors]
  | succ count ih =>
      obtain ⟨last, earlier⟩ := inside_succ inside
      have place := byteToSector_step usable last
      have member := usable.sector_mem last
      push_cast at place
      rw [readSectors, Routine.run_bind_ok (ih earlier), place,
        Routine.run_bind_ok (Routine.run_lift _ _),
        Routine.run_bind_ok (run_readSector (usable.inside _ member) disk), Routine.run_pure]
      refine congrArg (fun filled => (Except.ok filled, disk)) ?_
      exact blit_sector disk hdr first count buf

/-- Writing sectors puts the buffer into them and changes no other sector, by induction on
their number.
-/
theorem run_writeSectors {hdr : FileHeader} (usable : hdr.Usable) {first count : Nat}
    (inside : count = 0 ∨ ((first + count - 1) * sectorSize : Nat) < hdr.size)
    (buf : Buffer) (disk : Disk)
    : ∃ after,
        (writeSectors hdr first buf count).run disk = (.ok (), after)
        ∧ (∀ s, (∀ number < count, s ≠ hdr.sectors.getD (first + number) (-1))
            → after s = disk s)
        ∧ ∀ number < count,
            after (hdr.sectors.getD (first + number) (-1))
              = Sector.ofBuffer (fun offset => buf (number * sectorSize + offset)) := by
  induction count with
  | zero => exact ⟨disk, rfl, fun _ _ => rfl, fun _ none => absurd none (Nat.not_lt_zero _)⟩
  | succ count ih =>
      obtain ⟨last, earlier⟩ := inside_succ inside
      have place := byteToSector_step usable last
      have member := usable.sector_mem last
      push_cast at place
      obtain ⟨written, run, frame, contents⟩ := ih earlier
      let data := Sector.ofBuffer (fun offset => buf (count * sectorSize + offset))
      refine ⟨Function.update written (hdr.sectors.getD (first + count) (-1)) data, ?_, ?_, ?_⟩
      · rw [writeSectors, Routine.run_bind_ok run, place,
          Routine.run_bind_ok (Routine.run_lift _ _),
          run_writeSector (usable.inside _ member)]
      · intro s outside
        rw [Function.update_of_ne (outside count (Nat.lt_succ_self _)),
          frame s (fun number below => outside number (Nat.lt_succ_of_lt below))]
      · intro number below
        rcases Nat.lt_succ_iff_lt_or_eq.mp below with before | rfl
        · have apart
              : hdr.sectors.getD (first + number) (-1)
                ≠ hdr.sectors.getD (first + count) (-1) := by
            intro same
            have equal := usable.sector_inj (by rw [sectorSize_eq] at last ⊢; omega) last same
            omega
          rw [Function.update_of_ne apart, contents number before]
        · exact Function.update_self ..

-----------------------------------------------------------------------------------------
-- Reading
-----------------------------------------------------------------------------------------

theorem firstSector_natCast (position : Nat)
    : firstSector position = (position / sectorSize : Nat) := by
  rw [firstSector, CInt.divRoundDown_of_nonneg (Int.natCast_nonneg _), Int.natCast_ediv]

theorem lastSector_natCast {count position : Nat} (some : 0 < count)
    (fits : position + count < 2147483648)
    : lastSector count position = ((position + count - 1) / sectorSize : Nat) := by
  have sum : (position : Int) + count - 1 = (position + count - 1 : Nat) := by omega
  rw [lastSector, sum, CInt.wrap_of_lt (Int.natCast_nonneg _) (by omega),
    CInt.divRoundDown_of_nonneg (Int.natCast_nonneg _), Int.natCast_ediv]

/-- A request inside the limits of `int` is cut at the end of the file. -/
theorem clip_eq {size numBytes position : Int} (small : size ≤ 67108864)
    (nonneg : 0 ≤ position) (fits : position + numBytes < 2147483648)
    (some : 0 < numBytes) (inside : position < size)
    : clip size numBytes position = transferCount size numBytes position := by
  have moved : transferCount size numBytes position = min numBytes (size - position) :=
    if_neg (by omega)
  have sum := CInt.wrap_of_lt (show 0 ≤ position + numBytes by omega) fits
  have rest := CInt.wrap_of_lt (show 0 ≤ size - position by omega) (by omega)
  rw [moved, clip, sum, rest]
  split <;> omega

/-- The sectors of a transfer of `count` bytes at `position`. -/
structure Span (hdr : FileHeader) (count position : Nat) : Prop where
  some : 0 < count
  inside : (position + count : Nat) ≤ hdr.size
  small : hdr.size ≤ 67108864

/-- Requests that move any byte span sectors of the file. -/
theorem span_of_request {hdr : FileHeader} (usable : hdr.Usable) {numBytes position : Int}
    (nonneg : 0 ≤ position) (some : 0 < numBytes) (inside : position < hdr.size)
    : Span hdr (transferCount hdr.size numBytes position).toNat position.toNat := by
  have small := usable.size_lt
  rw [transferCount, if_neg (by omega)]
  exact ⟨by omega, by omega, small⟩

namespace Span

variable {hdr : FileHeader} {count position : Nat}

theorem first_le_last (span : Span hdr count position)
    : position / sectorSize ≤ (position + count - 1) / sectorSize := by
  have some := span.some
  exact Nat.div_le_div_right (by omega)

/-- The number of sectors as the source computes it. -/
theorem sectors_eq (span : Span hdr count position)
    : (1 + lastSector count position - firstSector position)
      = ((position + count - 1) / sectorSize - position / sectorSize + 1 : Nat) := by
  have ordered := span.first_le_last
  have inside := span.inside
  have small := span.small
  rw [lastSector_natCast span.some (by omega), firstSector_natCast]
  omega

/-- The buffer for a span has a size that is not negative, so `new` returns. -/
theorem run_newBuffer (span : Span hdr count position) (disk : Disk)
    : (newBuffer (1 + lastSector count position - firstSector position)).run disk
      = (.ok (), disk) := by
  have inside := span.inside
  have small := span.small
  refine Routine.run_assert_of ?_ _ _
  rw [span.sectors_eq, CInt.wrap_of_lt (by positivity) ?_]
  · positivity
  · rw [sectorSize_eq]
    omega

theorem run_checkCopy (span : Span hdr count position) (disk : Disk)
    : (checkCopy (1 + lastSector count position - firstSector position)
        (position - firstSector position * sectorSize) count).run disk
      = (.ok (), disk) := by
  have inside := span.inside
  have small := span.small
  refine Routine.run_assert_of ?_ _ _
  rw [span.sectors_eq, firstSector_natCast, sectorSize_eq, CInt.wrap_of_lt] <;> omega

theorem skipped_eq (position : Nat)
    : (position - firstSector position * sectorSize : Int).toNat = position % sectorSize := by
  rw [firstSector_natCast, sectorSize_eq]
  omega

/-- The last of the sectors lies in the file. -/
theorem sectors_inside (span : Span hdr count position)
    : ((position / sectorSize
          + ((position + count - 1) / sectorSize - position / sectorSize + 1) - 1)
        * sectorSize : Nat)
      < hdr.size := by
  have some := span.some
  have inside := span.inside
  rw [sectorSize_eq]
  omega

end Span

/-- A read returns the bytes of the file from `position` on, as far as the file goes. -/
theorem run_readAt {file : OpenFile} (usable : file.hdr.Usable) (into : Buffer) (start : Nat)
    {numBytes position : Int} (nonneg : 0 ≤ position)
    (fits : position < file.hdr.size → position + numBytes < 2147483648) (disk : Disk)
    : (file.readAt into start numBytes position).run disk
      = (.ok (transferCount file.hdr.size numBytes position,
          blit into start (fun offset => fileByte disk file.hdr (position.toNat + offset))
            (transferCount file.hdr.size numBytes position).toNat), disk) := by
  rw [readAt, length, usable.valid.fileLength, Routine.run_bind_ok (Routine.run_lift _ _)]
  by_cases refused : numBytes ≤ 0 ∨ position ≥ file.hdr.size
  · rw [if_pos refused, transferCount, if_pos refused, Routine.run_pure]
    simp
  rw [if_neg refused]
  have some : 0 < numBytes := by omega
  have inside : position < file.hdr.size := by omega
  have span := span_of_request usable nonneg some inside
  rw [clip_eq usable.size_lt nonneg (fits inside) some inside]
  obtain ⟨position, rfl⟩ := Int.eq_ofNat_of_zero_le nonneg
  obtain ⟨count, moved⟩ := Int.eq_ofNat_of_zero_le
    (show 0 ≤ transferCount file.hdr.size numBytes position by
      have positive := span.some
      omega)
  rw [moved] at span ⊢
  rw [Int.toNat_natCast, Int.toNat_natCast] at span
  simp only [Int.toNat_natCast, Span.skipped_eq]
  rw [Routine.run_bind_ok (span.run_newBuffer disk), span.sectors_eq, Int.toNat_natCast,
    firstSector_natCast,
    Routine.run_bind_ok (run_readSectors usable (.inr span.sectors_inside) _ disk),
    ← span.sectors_eq, ← firstSector_natCast, Routine.run_bind_ok (span.run_checkCopy disk),
    Routine.run_pure]
  refine congrArg (fun filled => (Except.ok (_, filled), disk)) ?_
  refine blit_congr _ _ (fun offset small => ?_)
  have place : position / sectorSize * sectorSize + (position % sectorSize + offset)
      = position + offset := by
    rw [← Nat.add_assoc, Nat.div_add_mod']
  rw [blit_inside _ _ (Nat.zero_le _), Nat.sub_zero, place]
  rw [sectorSize_eq]
  omega

-----------------------------------------------------------------------------------------
-- Writing
-----------------------------------------------------------------------------------------

/-- A sector buffer after `fillSector`. -/
def filled (disk : Disk) (hdr : FileHeader) (partly : Bool) (buf : Buffer)
    (start sector : Nat)
    : Buffer :=
  if partly then
    blit buf start (fun offset => fileByte disk hdr (sector * sectorSize + offset))
      (min (sectorSize : Int) (hdr.size - sector * sectorSize)).toNat
  else buf

/-- The first or last sector of a write is read before when it is written in part, by cases on
that.
-/
theorem run_fillSector {file : OpenFile} (usable : file.hdr.Usable) (partly : Bool)
    (buf : Buffer) (start : Nat) {sector : Nat}
    (inside : (sector * sectorSize : Nat) < file.hdr.size) (disk : Disk)
    : (file.fillSector partly buf start sector).run disk
      = (.ok (filled disk file.hdr partly buf start sector), disk) := by
  cases partly with
  | false => rfl
  | true =>
      have small := usable.size_lt
      have room : (sector * sectorSize : Nat) + (sectorSize : Int) < 2147483648 := by
        rw [sectorSize_eq] at inside ⊢
        omega
      have read := run_readAt usable buf start (Int.natCast_nonneg _) (fun _ => room) disk
      have moved : transferCount file.hdr.size sectorSize (sector * sectorSize : Nat)
          = min (sectorSize : Int) (file.hdr.size - sector * sectorSize) := by
        rw [transferCount, if_neg (by rw [sectorSize_eq] at inside ⊢; omega)]
        push_cast
        rfl
      rw [moved, Int.toNat_natCast] at read
      push_cast at read
      rw [fillSector, if_pos rfl, Routine.run_bind_ok read, Routine.run_pure]
      rfl

theorem filled_inside (disk : Disk) (hdr : FileHeader) (buf : Buffer) {start sector index : Nat}
    (low : start ≤ index) (high : index < start + sectorSize)
    (inside : (sector * sectorSize + (index - start) : Nat) < hdr.size)
    : filled disk hdr true buf start sector index
      = fileByte disk hdr (sector * sectorSize + (index - start)) := by
  have reach : index < start + (min (sectorSize : Int) (hdr.size - sector * sectorSize)).toNat := by
    rw [sectorSize_eq] at *
    omega
  rw [filled, if_pos rfl, blit_inside _ _ low reach]

theorem filled_outside (disk : Disk) (hdr : FileHeader) (partly : Bool) (buf : Buffer)
    {start sector index : Nat} (outside : index < start)
    : filled disk hdr partly buf start sector index = buf index := by
  cases partly with
  | false => rfl
  | true => rw [filled, if_pos rfl, blit_outside _ _ (.inl outside)]

/-- Behind the end of the file a sector buffer is not filled. -/
theorem filled_beyond (disk : Disk) {hdr : FileHeader} (partly : Bool) (buf : Buffer)
    {start sector index : Nat} (low : start ≤ index)
    (beyond : hdr.size ≤ (sector * sectorSize + (index - start) : Nat))
    : filled disk hdr partly buf start sector index = buf index := by
  cases partly with
  | false => rfl
  | true =>
      rw [filled, if_pos rfl, blit_outside _ _ (.inr ?_)]
      rw [sectorSize_eq] at *
      omega

/-- The sector buffer of a write of `count` bytes before the new bytes go in. -/
def oldBuffer (disk : Disk) (hdr : FileHeader) (count position : Nat) : Buffer :=
  let first := position / sectorSize
  let last := (position + count - 1) / sectorSize
  filled disk hdr
    (!decide (position + count = (last + 1) * sectorSize)
      && (decide (first ≠ last) || decide (position = first * sectorSize)))
    (filled disk hdr (!decide (position = first * sectorSize)) (fun _ => 0) 0 first)
    ((last - first) * sectorSize) last

/-- The sector buffer of a write before the new bytes go in: outside the range to be
written it holds the bytes of the file. The cases are those of the alignment tests: bytes
in the last sector are filled with it, other bytes only occur before `position`.
-/
theorem oldBuffer_inside {hdr : FileHeader} {count position : Nat} (disk : Disk) {offset : Nat}
    (inside : (offset : Int) < hdr.size) (low : position / sectorSize * sectorSize ≤ offset)
    (high : offset < ((position + count - 1) / sectorSize + 1) * sectorSize)
    (kept : ¬(position ≤ offset ∧ offset < position + count))
    : oldBuffer disk hdr count position (offset - position / sectorSize * sectorSize)
      = fileByte disk hdr offset := by
  simp only [oldBuffer]
  generalize firstIs : position / sectorSize = first at *
  generalize lastIs : (position + count - 1) / sectorSize = last at *
  have headHolds (unaligned : position ≠ first * sectorSize)
      (near : offset < (first + 1) * sectorSize)
      : filled disk hdr (!decide (position = first * sectorSize)) (fun _ => 0) 0 first
          (offset - first * sectorSize)
        = fileByte disk hdr offset := by
    have place : first * sectorSize + (offset - first * sectorSize - 0) = offset := by omega
    simp only [unaligned, decide_false, Bool.not_false]
    rw [filled_inside _ _ _ (Nat.zero_le _), place]
    · rw [sectorSize_eq] at *
      omega
    · rwa [place]
  rcases Nat.lt_or_ge offset (last * sectorSize) with below | above
  · have before : offset - first * sectorSize < (last - first) * sectorSize := by
      rw [sectorSize_eq] at *
      omega
    rw [filled_outside _ _ _ _ before]
    apply headHolds <;> rw [sectorSize_eq] at * <;> omega
  have test : (!decide (position + count = (last + 1) * sectorSize)
        && (decide (first ≠ last) || decide (position = first * sectorSize))) = true
      ↔ position + count ≠ (last + 1) * sectorSize
        ∧ (first ≠ last ∨ position = first * sectorSize) := by
    simp only [Bool.and_eq_true, Bool.not_eq_true', decide_eq_false_iff_not, Bool.or_eq_true,
      decide_eq_true_eq, ne_eq]
  by_cases again : position + count ≠ (last + 1) * sectorSize
      ∧ (first ≠ last ∨ position = first * sectorSize)
  · have partly := test.mpr again
    have place : last * sectorSize + (offset - first * sectorSize - (last - first) * sectorSize)
        = offset := by
      rw [sectorSize_eq] at *
      omega
    rw [partly, filled_inside, place]
    · rw [sectorSize_eq] at *
      omega
    · rw [sectorSize_eq] at *
      omega
    · rwa [place]
  · have partly := Bool.eq_false_iff.mpr (again ∘ test.mp)
    rw [partly]
    apply headHolds <;> rw [sectorSize_eq] at * <;> omega

/-- Behind the end of the file that buffer has the zeros it started with. -/
theorem oldBuffer_beyond {hdr : FileHeader} {count position : Nat}
    (span : Span hdr count position) (disk : Disk) {offset : Nat}
    (beyond : hdr.size ≤ offset)
    : oldBuffer disk hdr count position (offset - position / sectorSize * sectorSize) = 0 := by
  have inside := span.inside
  have ordered := span.first_le_last
  simp only [oldBuffer]
  generalize firstIs : position / sectorSize = first at *
  generalize lastIs : (position + count - 1) / sectorSize = last at *
  rw [filled_beyond, filled_beyond _ _ _ (Nat.zero_le _)] <;>
    rw [sectorSize_eq] at * <;>
    omega

/-- The byte at `offset` of the sectors of a write after it: a new byte, a byte of the file,
or behind the end of the file zero.
-/
def byteAfter (disk : Disk) (hdr : FileHeader) (source : Buffer) (count position offset : Nat)
    : Byte :=
  if position ≤ offset ∧ offset < position + count then source (offset - position)
  else if (offset : Int) < hdr.size then fileByte disk hdr offset
  else 0

/-- The sector buffer of a write. -/
theorem newBuffer_eq {hdr : FileHeader} {count position : Nat}
    (span : Span hdr count position) (disk : Disk) (source : Buffer) {offset : Nat}
    (low : position / sectorSize * sectorSize ≤ offset)
    (high : offset < ((position + count - 1) / sectorSize + 1) * sectorSize)
    : blit (oldBuffer disk hdr count position) (position % sectorSize) source count
        (offset - position / sectorSize * sectorSize)
      = byteAfter disk hdr source count position offset := by
  have aligned := Nat.div_add_mod' position sectorSize
  unfold byteAfter
  split
  · have place
        : offset - position / sectorSize * sectorSize - position % sectorSize
          = offset - position := by
      omega
    rw [blit_inside _ _ (by omega) (by omega), place]
  · rename_i kept
    rw [blit_outside _ _ (by omega)]
    split
    · exact oldBuffer_inside disk ‹_› low high kept
    · exact oldBuffer_beyond span disk (by omega)

/-- A write that moves bytes puts its buffer into the sectors of its span. -/
theorem run_writeAt_of_span {file : OpenFile} (usable : file.hdr.Usable) (source : Buffer)
    {count position : Nat} {numBytes : Int} (span : Span file.hdr count position)
    (some : 0 < numBytes) (clipped : clip file.hdr.size numBytes position = count)
    (disk : Disk)
    : (file.writeAt source numBytes position).run disk
      = ((writeSectors file.hdr (position / sectorSize : Nat)
            (blit (oldBuffer disk file.hdr count position) (position % sectorSize) source count)
            ((position + count - 1) / sectorSize - position / sectorSize + 1)
          >>= fun _ => pure (count : Int)).run disk) := by
  have reach := span.inside
  have small := span.small
  have positive := span.some
  have sectors := span.sectors_eq
  have newBuffer := span.run_newBuffer disk
  have checkCopy := span.run_checkCopy disk
  rw [writeAt, length, usable.valid.fileLength, Routine.run_bind_ok (Routine.run_lift _ _),
    if_neg (by omega), clipped]
  rw [sectors] at newBuffer checkCopy
  simp only [sectors, Int.toNat_natCast, Span.skipped_eq, oldBuffer]
  rw [firstSector_natCast] at checkCopy ⊢
  rw [lastSector_natCast positive (by omega)]
  generalize firstIs : position / sectorSize = first at *
  generalize lastIs : (position + count - 1) / sectorSize = last at *
  have firstInside : (first * sectorSize : Nat) < file.hdr.size := by
    rw [sectorSize_eq] at *
    omega
  have endInside : (last * sectorSize : Nat) < file.hdr.size := by
    rw [sectorSize_eq] at *
    omega
  have firstTest : ((position : Int) = first * sectorSize) ↔ position = first * sectorSize := by
    rw [sectorSize_eq]
    omega
  have lastTest
      : (CInt.wrap ((position : Int) + count) = CInt.wrap (((last : Int) + 1) * sectorSize))
        ↔ position + count = (last + 1) * sectorSize := by
    rw [sectorSize_eq] at *
    rw [CInt.wrap_of_lt, CInt.wrap_of_lt] <;> omega
  have sameTest : ((first : Int) ≠ last) ↔ first ≠ last := by
    omega
  have start : (((last : Int) - first) * sectorSize).toNat = (last - first) * sectorSize := by
    rw [sectorSize_eq]
    omega
  rw [decide_eq_decide.mpr firstTest, decide_eq_decide.mpr lastTest,
    decide_eq_decide.mpr sameTest, start,
    Routine.run_bind_ok newBuffer,
    Routine.run_bind_ok (run_fillSector usable _ _ _ firstInside disk),
    Routine.run_bind_ok (run_fillSector usable _ _ _ endInside disk),
    Routine.run_bind_ok checkCopy]

/-- A write replaces the sectors that the bytes from `position` on stand in, as far as the
file goes, and changes no other sector.
-/
theorem run_writeAt_sectors {file : OpenFile} (usable : file.hdr.Usable) (source : Buffer)
    {numBytes position : Int} (nonneg : 0 ≤ position)
    (fits : position < file.hdr.size → position + numBytes < 2147483648) (disk : Disk)
    : ∃ after,
        (file.writeAt source numBytes position).run disk
          = (.ok (transferCount file.hdr.size numBytes position), after)
        ∧ (∀ s,
            (∀ offset : Nat,
              position ≤ offset
              → offset < position + transferCount file.hdr.size numBytes position
              → s ≠ file.hdr.sectors.getD (offset / sectorSize) (-1))
            → after s = disk s)
        ∧ ∀ written offset : Nat,
            position ≤ written
            → written < position + transferCount file.hdr.size numBytes position
            → offset / sectorSize = written / sectorSize
            → fileByte after file.hdr offset
              = byteAfter disk file.hdr source
                  (transferCount file.hdr.size numBytes position).toNat position.toNat
                  offset := by
  by_cases refused : numBytes ≤ 0 ∨ position ≥ file.hdr.size
  · have none : transferCount file.hdr.size numBytes position = 0 := if_pos refused
    rw [none]
    refine ⟨disk, ?_, fun _ _ => rfl, fun written offset low high => by omega⟩
    rw [writeAt, length, usable.valid.fileLength, Routine.run_bind_ok (Routine.run_lift _ _),
      if_pos refused, Routine.run_pure]
  have some : 0 < numBytes := by omega
  have inside : position < file.hdr.size := by omega
  have span := span_of_request usable nonneg some inside
  have clipped := clip_eq usable.size_lt nonneg (fits inside) some inside
  obtain ⟨position, rfl⟩ := Int.eq_ofNat_of_zero_le nonneg
  obtain ⟨count, moved⟩ := Int.eq_ofNat_of_zero_le
    (show 0 ≤ transferCount file.hdr.size numBytes position by
      have positive := span.some
      omega)
  rw [moved] at span clipped ⊢
  rw [Int.toNat_natCast, Int.toNat_natCast] at span
  have positive := span.some
  obtain ⟨after, written, frame, contents⟩ := run_writeSectors usable
    (.inr span.sectors_inside)
    (blit (oldBuffer disk file.hdr count position) (position % sectorSize) source count) disk
  refine ⟨after, ?_, fun s outside => frame s ?_, ?_⟩
  · rw [run_writeAt_of_span usable source span some clipped, Routine.run_bind_ok written,
      Routine.run_pure]
  · -- Each sector of the span holds a byte that is written.
    intro number below
    have near
        : ∃ offset,
            position ≤ offset
            ∧ offset < position + count
            ∧ offset / sectorSize = position / sectorSize + number := by
      rcases Nat.eq_zero_or_pos number with rfl | later
      · exact ⟨position, le_refl _, by omega, rfl⟩
      · refine ⟨(position / sectorSize + number) * sectorSize, ?_, ?_, ?_⟩ <;>
          rw [sectorSize_eq] at * <;>
          omega
    obtain ⟨offset, low, high, place⟩ := near
    have apart := outside offset (by omega) (by omega)
    rwa [place] at apart
  · intro target offset low high same
    have sector := contents (offset / sectorSize - position / sectorSize)
      (by rw [sectorSize_eq] at *; omega)
    have number
        : position / sectorSize + (offset / sectorSize - position / sectorSize)
          = offset / sectorSize := by
      rw [sectorSize_eq] at *
      omega
    have place
        : (offset / sectorSize - position / sectorSize) * sectorSize + offset % sectorSize
          = offset - position / sectorSize * sectorSize := by
      rw [sectorSize_eq] at *
      omega
    rw [number] at sector
    rw [fileByte, sector, Sector.bytes_ofBuffer _ (Nat.mod_lt _ (by decide)), place,
      Int.toNat_natCast, Int.toNat_natCast]
    refine newBuffer_eq span disk source ?_ ?_ <;> rw [sectorSize_eq] at * <;> omega

/-- A write replaces the bytes from `position` on, as far as the file goes, keeps the other
bytes of the file and changes no other sector.
-/
theorem run_writeAt {file : OpenFile} (usable : file.hdr.Usable) (source : Buffer)
    {numBytes position : Int} (nonneg : 0 ≤ position)
    (fits : position < file.hdr.size → position + numBytes < 2147483648) (disk : Disk)
    : ∃ after,
        (file.writeAt source numBytes position).run disk
          = (.ok (transferCount file.hdr.size numBytes position), after)
        ∧ (∀ s ∉ file.hdr.sectors, after s = disk s)
        ∧ ∀ offset : Nat, (offset : Int) < file.hdr.size
            → fileByte after file.hdr offset
              = if position ≤ offset
                    ∧ offset < position + transferCount file.hdr.size numBytes position then
                  source (offset - position.toNat)
                else fileByte disk file.hdr offset := by
  obtain ⟨after, run, frame, contents⟩ :=
    run_writeAt_sectors usable source nonneg fits disk
  have reach : transferCount file.hdr.size numBytes position = 0
      ∨ position + transferCount file.hdr.size numBytes position ≤ file.hdr.size := by
    unfold transferCount
    split <;> omega
  refine ⟨after, run, fun s outside => frame s (fun offset low high same => outside ?_), ?_⟩
  · have found := usable.valid.sector_mem (Int.natCast_nonneg offset) (by omega)
    rw [← Int.natCast_ediv, Int.toNat_natCast] at found
    exact same ▸ found
  intro offset inside
  by_cases touched : ∃ written : Nat,
      position ≤ written
      ∧ written < position + transferCount file.hdr.size numBytes position
      ∧ offset / sectorSize = written / sectorSize
  · obtain ⟨written, low, high, same⟩ := touched
    rw [contents written offset low high same, byteAfter, if_pos inside]
    have range
        : (position.toNat ≤ offset
            ∧ offset
              < position.toNat + (transferCount file.hdr.size numBytes position).toNat)
          ↔ (position ≤ offset
            ∧ (offset : Int) < position + transferCount file.hdr.size numBytes position) := by
      omega
    simp only [range]
  · rw [if_neg (fun requested => touched ⟨offset, requested.1, requested.2, rfl⟩), fileByte,
      frame, ← fileByte]
    intro written low high same
    refine touched ⟨written, low, high, ?_⟩
    refine usable.sector_inj ?_ ?_ same <;> rw [sectorSize_eq] at * <;> omega

-----------------------------------------------------------------------------------------
-- Requests at the start of a file
-----------------------------------------------------------------------------------------

/-- Reading from the start of a file that is long enough. -/
theorem run_readAt_start {file : OpenFile} (usable : file.hdr.Usable) (into : Buffer)
    {count : Nat} (reach : count ≤ file.hdr.size) (disk : Disk)
    : (file.readAt into 0 count 0).run disk
      = (.ok ((count : Int), blit into 0 (fileByte disk file.hdr) count), disk) := by
  have small := usable.size_lt
  have read := run_readAt usable into 0 (le_refl 0) (fun _ => show 0 + (count : Int) < _ by omega) disk
  have moved : transferCount file.hdr.size count 0 = count := by
    rw [transferCount]
    split <;> omega
  simpa only [moved, Int.toNat_natCast, Int.toNat_zero, Nat.zero_add] using read

/-- Writing to the start of a file that is long enough. -/
theorem run_writeAt_start {file : OpenFile} (usable : file.hdr.Usable) (source : Buffer)
    {count : Nat} (reach : count ≤ file.hdr.size) (disk : Disk)
    : ∃ after,
        (file.writeAt source count 0).run disk = (.ok (count : Int), after)
        ∧ (∀ s ∉ file.hdr.sectors, after s = disk s)
        ∧ Holds after file.hdr source count := by
  have small := usable.size_lt
  have moved : transferCount file.hdr.size count 0 = count := by
    rw [transferCount]
    split <;> omega
  obtain ⟨after, written, frame, contents⟩ :=
    run_writeAt usable source (le_refl 0) (fun _ => show 0 + (count : Int) < _ by omega) disk
  rw [moved] at written contents
  refine ⟨after, written, frame, fun offset inside => ?_⟩
  rw [contents offset (by omega), if_pos (by omega)]
  rfl

-----------------------------------------------------------------------------------------
-- Any request
-----------------------------------------------------------------------------------------

section Frame

variable {property : Disk → Prop}

/-- What each sector's read keeps the whole loop keeps, by induction on the sectors. -/
theorem keeps_readSectors (hdr : FileHeader) (first : Int) (count : Nat) (buf : Buffer)
    : Routine.Keeps property (readSectors hdr first count buf) := by
  induction count with
  | zero => exact Routine.keeps_pure _
  | succ count ih =>
      refine Routine.keeps_bind ih (fun _ => ?_)
      refine Routine.keeps_bind (Routine.keeps_lift _) (fun _ => ?_)
      exact Routine.keeps_bind (keeps_readSector _) (fun _ => Routine.keeps_pure _)

/-- Whatever is asked of it, a read changes nothing. -/
theorem keeps_readAt (file : OpenFile) (into : Buffer) (start : Nat) (numBytes position : Int)
    : Routine.Keeps property (file.readAt into start numBytes position) := by
  refine Routine.keeps_bind (Routine.keeps_lift _) (fun _ => ?_)
  refine Routine.keeps_ite (Routine.keeps_pure _) ?_
  refine Routine.keeps_bind (Routine.keeps_assert _ _) (fun _ => ?_)
  refine Routine.keeps_bind (keeps_readSectors _ _ _ _) (fun _ => ?_)
  exact Routine.keeps_bind (Routine.keeps_assert _ _) (fun _ => Routine.keeps_pure _)

theorem keeps_fillSector (file : OpenFile) (partly : Bool) (buf : Buffer) (start : Nat)
    (sector : Int)
    : Routine.Keeps property (file.fillSector partly buf start sector) :=
  Routine.keeps_ite
    (Routine.keeps_bind (keeps_readAt _ _ _ _ _) (fun _ => Routine.keeps_pure _))
    (Routine.keeps_pure _)

/-- The loop of a write asks the header for each sector, which gives a data sector of the
file or -1.
-/
theorem keeps_writeSectors {hdr : FileHeader} (valid : hdr.WellFormed) (first : Int)
    (buf : Buffer) (count : Nat) {other : Int} {value : Sector} (outside : other ∉ hdr.sectors)
    : Routine.Keeps (fun disk => disk other = value) (writeSectors hdr first buf count) := by
  induction count with
  | zero => exact Routine.keeps_pure _
  | succ count ih =>
      refine Routine.keeps_bind ih (fun _ => ?_)
      refine Routine.keeps_bind_of (Routine.keeps_lift _) (fun sector state after _ found kept => ?_)
      rw [Routine.run_lift] at found
      obtain ⟨answer, rfl⟩ := Prod.mk.inj found
      generalize CInt.wrap ((first + count) * sectorSize) = offset at answer
      by_cases inside : 0 ≤ offset ∧ offset < hdr.size
      · rw [valid.byteToSector_inside inside.1 inside.2] at answer
        have member := valid.sector_mem inside.1 inside.2
        rw [Except.ok.inj answer] at member
        have apart : other ≠ sector := fun same => outside (same ▸ member)
        exact keeps_writeSector apart _ _ _ kept
      · rw [valid.byteToSector_outside (by omega)] at answer
        have off : ¬IsSector sector := by
          rw [← Except.ok.inj answer]
          decide
        rw [run_writeSector_off off]
        exact kept

/-- Whatever is asked of it, a write changes data sectors of its own file at most. -/
theorem keeps_writeAt {file : OpenFile} (valid : file.hdr.WellFormed) (source : Buffer)
    (numBytes position : Int) {other : Int} {value : Sector}
    (outside : other ∉ file.hdr.sectors)
    : Routine.Keeps (fun disk => disk other = value)
        (file.writeAt source numBytes position) := by
  refine Routine.keeps_bind (Routine.keeps_lift _) (fun _ => ?_)
  refine Routine.keeps_ite (Routine.keeps_pure _) ?_
  refine Routine.keeps_bind (Routine.keeps_assert _ _) (fun _ => ?_)
  refine Routine.keeps_bind (keeps_fillSector _ _ _ _ _) (fun _ => ?_)
  refine Routine.keeps_bind (keeps_fillSector _ _ _ _ _) (fun _ => ?_)
  refine Routine.keeps_bind (Routine.keeps_assert _ _) (fun _ => ?_)
  exact Routine.keeps_bind (keeps_writeSectors valid _ _ _ outside)
    (fun _ => Routine.keeps_pure _)

end Frame

end OpenFile

end Nachos.FileSys
