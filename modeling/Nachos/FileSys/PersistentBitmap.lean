import Nachos.FileSys.Transfer
import Nachos.KernelLib.BitmapSets

/-! Bitmaps stored as the contents of a file, word by word. -/

namespace Nachos

open Bytes Routines FileSys

namespace Bitmap

variable {numBits : Nat}

/-- Bytes of the word array. -/
def imageSize (numBits : Nat) : Nat := numWords numBits * 4

/-- The raw bytes of the word array. -/
def image (bitmap : Bitmap numBits) : Buffer := fun offset =>
  match bitmap.map[offset / 4]? with
  | some word => wordByte word.toNat (offset % 4)
  | none => 0

/-- The bitmap that raw bytes stand for. -/
def ofImage (numBits : Nat) (bytes : Buffer) : Bitmap numBits :=
  { map := Vector.ofFn (fun index => BitVec.ofNat bitsInWord (wordAt bytes (4 * index))) }

/-- Read the bits from a file. -/
def fetchFrom (bitmap : Bitmap numBits) (file : OpenFile) : DiskRoutine (Bitmap numBits) := do
  let (_, bytes) ← file.readAt bitmap.image 0 (imageSize numBits) 0
  return ofImage numBits bytes

/-- The constructor from a file. -/
def load (numBits : Nat) (file : OpenFile) : DiskRoutine (Bitmap numBits) :=
  (new numBits).fetchFrom file

/-- The constructor from a file, with the checks of the constructor that it calls first. -/
def constructFrom (numItems : Int) (file : OpenFile) : DiskRoutine (Bitmap numItems.toNat) := do
  let bitmap ← Routine.lift (construct numItems)
  bitmap.fetchFrom file

/-- Write the bits to a file. -/
def writeBack (bitmap : Bitmap numBits) (file : OpenFile) : DiskRoutine Unit := do
  let _ ← file.writeAt bitmap.image (imageSize numBits) 0
  return ()

/-- A bitmap is read back from its raw bytes. -/
theorem ofImage_of_bytes {bitmap : Bitmap numBits} {bytes : Buffer}
    (stored : ∀ offset < imageSize numBits, bytes offset = bitmap.image offset)
    : ofImage numBits bytes = bitmap := by
  have maps : (ofImage numBits bytes).map = bitmap.map := by
    apply Vector.ext
    intro index inside
    have word : wordAt bytes (4 * index) = bitmap.map[index].toNat := by
      refine wordAt_eq_of_bytes bitmap.map[index].isLt (fun byte small => ?_)
      have quotient : (4 * index + byte) / 4 = index := by omega
      have remainder : (4 * index + byte) % 4 = byte := by omega
      rw [stored _ (by rw [imageSize]; omega), image, quotient, remainder,
        Vector.getElem?_eq_getElem inside]
    rw [ofImage, Vector.getElem_ofFn, word, BitVec.ofNat_toNat, BitVec.setWidth_eq]
  cases bitmap
  exact congrArg Bitmap.mk maps

/-- A bitmap is read from a file that holds it, whatever bits were there before. -/
theorem run_fetchFrom {file : OpenFile} {disk : Disk} (initial bitmap : Bitmap numBits)
    (usable : file.hdr.Usable) (reach : imageSize numBits ≤ file.hdr.size)
    (holds : Holds disk file.hdr bitmap.image (imageSize numBits))
    : (initial.fetchFrom file).run disk = (.ok bitmap, disk) := by
  have read := OpenFile.run_readAt_start usable initial.image reach disk
  rw [fetchFrom, Routine.run_bind_ok read, Routine.run_pure]
  refine congrArg (fun map => (Except.ok map, disk)) (ofImage_of_bytes ?_)
  intro offset inside
  rw [blit_inside _ _ (Nat.zero_le _) (by omega), Nat.sub_zero, holds offset inside]

theorem run_load {file : OpenFile} {disk : Disk} (bitmap : Bitmap numBits)
    (usable : file.hdr.Usable) (reach : imageSize numBits ≤ file.hdr.size)
    (holds : Holds disk file.hdr bitmap.image (imageSize numBits))
    : (load numBits file).run disk = (.ok bitmap, disk) :=
  run_fetchFrom (new numBits) bitmap usable reach holds

theorem run_writeBack {file : OpenFile} (bitmap : Bitmap numBits)
    (usable : file.hdr.Usable) (reach : imageSize numBits ≤ file.hdr.size) (disk : Disk)
    : ∃ after,
        (bitmap.writeBack file).run disk = (.ok (), after)
        ∧ (∀ s ∉ file.hdr.sectors, after s = disk s)
        ∧ Holds after file.hdr bitmap.image (imageSize numBits) := by
  obtain ⟨after, written, frame, holds⟩ :=
    OpenFile.run_writeAt_start usable bitmap.image reach disk
  refine ⟨after, ?_, frame, holds⟩
  rw [writeBack, Routine.run_bind_ok written, Routine.run_pure]

-----------------------------------------------------------------------------------------
-- Sets of bits in files
-----------------------------------------------------------------------------------------

variable {numItems : Int}

/-- After the bits were written to a file that is long enough, the constructor and `FetchFrom` read
them back, as long as no sector of the file has changed.
-/
def Persists (bitmap : Bitmap numItems.toNat) : Prop :=
  ∀ file : OpenFile, file.hdr.Usable → numItems / 8 ≤ file.hdr.size → ∀ disk, ∃ written,
    (bitmap.writeBack file).run disk = (.ok (), written)
    ∧ ∀ later : Disk, (∀ s ∈ file.hdr.sectors, later s = written s)
        → (constructFrom numItems file).run later = (.ok bitmap, later)
          ∧ ∀ other : Bitmap numItems.toNat,
              (other.fetchFrom file).run later = (.ok bitmap, later)

/-- The assertion on the number of bits is all that the checks add. -/
theorem constructFrom_of_pos (positive : 0 < numItems) (file : OpenFile)
    : constructFrom numItems file = load numItems.toNat file := by
  rw [constructFrom, construct_of_pos positive]
  rfl

/-- A map of whole words is read back as it was written. Witness: its image reaches every word. -/
theorem persists (positive : 0 < numItems) (whole : (bitsInWord : Int) ∣ numItems)
    (bitmap : Bitmap numItems.toNat)
    : bitmap.Persists := by
  intro file usable long disk
  have reach : (imageSize numItems.toNat : Int) ≤ file.hdr.size := by
    simp only [imageSize, numWords, bitsInWord] at *
    omega
  obtain ⟨written, ran, _, holds⟩ := run_writeBack bitmap usable reach disk
  refine ⟨written, ran, fun later same => ?_⟩
  have stays := holds.congr usable.valid reach same
  rw [constructFrom_of_pos positive]
  exact ⟨run_load bitmap usable reach stays,
    fun other => run_fetchFrom other bitmap usable reach stays⟩

/-- Through any operations the words of a bitmap are those of the set that the same operations
leave, and when the bits fill the words, the set survives in a file.
-/
theorem refines_set_and_persists (positive : 0 < numItems)
    (operations : List (Operation numItems.toNat))
    : let (answers, marked) := Calls.applyAll performOnSet operations ∅
      ∃ initial bitmap,
        construct numItems = .ok initial
        ∧ Calls.performAll perform operations initial = .ok (answers, bitmap)
        ∧ bitmap.RefinesSet marked
        ∧ ((bitsInWord : Int) ∣ numItems → bitmap.Persists) := by
  obtain ⟨bitmap, ran, represents⟩ := perform_simulates.performAll represents_new operations
  exact ⟨_, bitmap, construct_of_pos positive, ran, represents.refinesSet,
    fun whole => persists positive whole bitmap⟩

/-- An open file of the four bytes of one word, which stand in sector 9. -/
def oneWord : OpenFile :=
  { hdr := .last (FileHeader.blockOf 4 1 [9] (-1)) 0, seekPosition := 0 }

/-- A file with one word, to try the theorem on. -/
theorem usable_oneWord : oneWord.hdr.Usable where
  valid := by
    refine ⟨rfl, ?_, rfl, by decide, by decide, rfl⟩
    exact {
      numBytes := by decide
      numSectors := by decide
      dataSectors := by decide
      next := by decide
    }
  inside := by decide
  distinct := by decide

/-- The sign bit of a word is marked and the search finds bit 0; both are read back. -/
theorem refines_set_and_persists_of_one_word
    : ∃ (bitmap : Bitmap (32 : Int).toNat) (written : Disk),
        Calls.performAll perform
            [.mark ⟨31, by decide⟩, .findAndSet, .test ⟨31, by decide⟩, .numClear] (new _)
          = .ok ([.done, .number 0, .bit true, .number 30], bitmap)
        ∧ (bitmap.writeBack oneWord).run (fun _ => Sector.ofBuffer (fun _ => 7)) = (.ok (), written)
        ∧ (constructFrom 32 oneWord).run written = (.ok bitmap, written)
        ∧ bitmap.Represents {⟨0, by decide⟩, ⟨31, by decide⟩} := by
  let operations : List (Operation (32 : Int).toNat) :=
    [.mark ⟨31, by decide⟩, .findAndSet, .test ⟨31, by decide⟩, .numClear]
  have onSet
      : Calls.applyAll performOnSet operations ∅
        = ([.done, .number 0, .bit true, .number 30], {⟨0, by decide⟩, ⟨31, by decide⟩}) := by
    decide
  have positive : (0 : Int) < 32 := by decide
  have main := refines_set_and_persists positive operations
  rw [onSet] at main
  obtain ⟨initial, bitmap, made, ran, refines, persists⟩ := main
  obtain rfl := Except.ok.inj ((construct_of_pos positive).symm.trans made)
  obtain ⟨written, wrote, later⟩ := persists (by decide) oneWord usable_oneWord (by decide)
    (fun _ => Sector.ofBuffer (fun _ => 7))
  exact ⟨bitmap, written, ran, wrote, (later written (fun _ _ => rfl)).1, refines.represents⟩

end Bitmap

end Nachos
