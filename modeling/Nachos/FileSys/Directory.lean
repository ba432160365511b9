import Mathlib.Data.List.FinRange
import Nachos.FileSys.Transfer

/-! Directories: a table of fixed-size entries, searched by the first nine characters of a
name and stored as the contents of a file.
-/

namespace Nachos.FileSys

open Bytes Routines

/-- Characters of a file name that count. -/
def fileNameMaxLen : Nat := 9

/-- The name a file is known by: its characters up to NUL and at most nine of them. -/
def nameKey (name : Buffer) : List Byte := cString name 0 fileNameMaxLen

structure DirectoryEntry where
  inUse : Bool
  sector : Int
  name : Vector Byte (fileNameMaxLen + 1)
  deriving DecidableEq

namespace DirectoryEntry

/-- `sizeof(DirectoryEntry)`: a flag, three bytes of padding, a word, ten characters and two
bytes of padding.
-/
def size : Nat := 20

@[simp]
theorem size_eq : size = 20 := rfl

def nameBytes (entry : DirectoryEntry) : Buffer := fun offset => entry.name[offset]?.getD 0

def key (entry : DirectoryEntry) : List Byte := nameKey entry.nameBytes

/-- An entry cleared by `memset`. -/
def empty : DirectoryEntry :=
  { inUse := false, sector := 0, name := Vector.replicate _ 0 }

/-- The entry after a file was added in its place. -/
def taken (entry : DirectoryEntry) (name : Buffer) (newSector : Int) : DirectoryEntry :=
  {
    inUse := true
    sector := newSector
    name := Vector.ofFn (fun offset => strncpy entry.nameBytes name fileNameMaxLen offset)
  }

/-- The raw bytes of an entry; the padding keeps the zeros of `memset`. -/
def image (entry : DirectoryEntry) : Buffer := fun offset =>
  if offset = 0 then (if entry.inUse then 1 else 0)
  else if 4 ≤ offset ∧ offset < 8 then intByte entry.sector (offset - 4)
  else if 8 ≤ offset ∧ offset < 18 then entry.nameBytes (offset - 8)
  else 0

/-- The entry that the raw bytes from `start` on stand for. -/
def ofImage (bytes : Buffer) (start : Nat) : DirectoryEntry :=
  {
    inUse := bytes start != 0
    sector := intAt bytes (start + 4)
    name := Vector.ofFn (fun offset => bytes (start + 8 + offset))
  }

/-- An entry is known by the truncated name it was added under. -/
@[simp]
theorem key_taken (entry : DirectoryEntry) (name : Buffer) (newSector : Int)
    : (entry.taken name newSector).key = nameKey name := by
  have copied : ∀ offset < fileNameMaxLen,
      (entry.taken name newSector).nameBytes (0 + offset)
        = strncpy entry.nameBytes name fileNameMaxLen (0 + offset) := by
    intro offset small
    have inside : offset < fileNameMaxLen + 1 := by omega
    simp only [nameBytes, taken, Nat.zero_add, Vector.getElem?_eq_getElem inside,
      Vector.getElem_ofFn, Option.getD_some]
  exact (cString_congr copied).trans (cString_strncpy ..)

/-- An entry is read back from its raw bytes, wherever they stand. -/
theorem ofImage_of_bytes {entry : DirectoryEntry} {bytes : Buffer} {start : Nat}
    (fits : CInt.InRange entry.sector)
    (stored : ∀ offset < size, bytes (start + offset) = entry.image offset)
    : ofImage bytes start = entry := by
  have flag : (bytes start != 0) = entry.inUse := by
    have first := stored 0 (by decide)
    rw [Nat.add_zero] at first
    rw [first]
    cases used : entry.inUse with
    | true => simp [image, used]
    | false => simp [image, used]
  have sector : intAt bytes (start + 4) = entry.sector := by
    refine intAt_eq_of_bytes fits (fun index small => ?_)
    have byte := stored (4 + index) (by rw [size_eq]; omega)
    rw [← Nat.add_assoc] at byte
    rw [byte, image, if_neg (by omega), if_pos (by omega), Nat.add_sub_cancel_left]
  have name : Vector.ofFn (fun offset : Fin (fileNameMaxLen + 1) => bytes (start + 8 + offset))
      = entry.name := by
    apply Vector.ext
    intro index inside
    have small : index < 10 := inside
    have byte := stored (8 + index) (by rw [size_eq]; omega)
    rw [← Nat.add_assoc] at byte
    rw [Vector.getElem_ofFn, byte, image, if_neg (by omega), if_neg (by omega),
      if_pos (by omega), Nat.add_sub_cancel_left, nameBytes, Vector.getElem?_eq_getElem inside,
      Option.getD_some]
  rw [ofImage, flag, sector, name]

end DirectoryEntry

/-- A directory in memory. -/
structure Directory (tableSize : Nat) where
  table : Vector DirectoryEntry tableSize
  deriving DecidableEq

namespace Directory

variable {tableSize : Nat}

/-- An empty directory. -/
def new (tableSize : Nat) : Directory tableSize :=
  { table := Vector.replicate _ DirectoryEntry.empty }

def entry (directory : Directory tableSize) (slot : Fin tableSize) : DirectoryEntry :=
  directory.table[slot]

def put (directory : Directory tableSize) (slot : Fin tableSize) (entry : DirectoryEntry)
    : Directory tableSize :=
  { table := directory.table.set slot entry }

/-- The slot of the file with the given name; `none` is the source's -1. -/
def findIndex (directory : Directory tableSize) (name : Buffer) : Option (Fin tableSize) :=
  (List.finRange tableSize).find? (fun slot =>
    (directory.entry slot).inUse
      && strncmp (directory.entry slot).nameBytes name 0 fileNameMaxLen == 0)

/-- The sector of the header of the file with the given name, or -1. -/
def find (directory : Directory tableSize) (name : Buffer) : Int :=
  match directory.findIndex name with
  | some slot => (directory.entry slot).sector
  | none => -1

/-- The first slot that is not in use. -/
def freeIndex (directory : Directory tableSize) : Option (Fin tableSize) :=
  (List.finRange tableSize).find? (fun slot => !(directory.entry slot).inUse)

/-- Enter a file in the first free slot; false when the name is there or the table is full.
-/
def add (directory : Directory tableSize) (name : Buffer) (newSector : Int)
    : Bool × Directory tableSize :=
  if (directory.findIndex name).isSome then (false, directory)
  else
    match directory.freeIndex with
    | some slot =>
        (true, directory.put slot ((directory.entry slot).taken name newSector))
    | none => (false, directory)

/-- Take a file out of the table; false when the name is not there. -/
def remove (directory : Directory tableSize) (name : Buffer) : Bool × Directory tableSize :=
  match directory.findIndex name with
  | some slot =>
      (true, directory.put slot { directory.entry slot with inUse := false })
  | none => (false, directory)

/-- The raw bytes of the table. -/
def image (directory : Directory tableSize) : Buffer := fun offset =>
  match directory.table[offset / DirectoryEntry.size]? with
  | some entry => entry.image (offset % DirectoryEntry.size)
  | none => 0

/-- The table that raw bytes stand for. -/
def ofImage (tableSize : Nat) (bytes : Buffer) : Directory tableSize :=
  { table := Vector.ofFn (fun slot => DirectoryEntry.ofImage bytes (DirectoryEntry.size * slot)) }

/-- Read the table from a file. -/
def fetchFrom (directory : Directory tableSize) (file : OpenFile)
    : DiskRoutine (Directory tableSize) := do
  let (_, bytes) ← file.readAt directory.image 0 (tableSize * DirectoryEntry.size) 0
  return ofImage tableSize bytes

/-- Write the table to a file. -/
def writeBack (directory : Directory tableSize) (file : OpenFile) : DiskRoutine Unit := do
  let _ ← file.writeAt directory.image (tableSize * DirectoryEntry.size) 0
  return ()

-----------------------------------------------------------------------------------------
-- Slots
-----------------------------------------------------------------------------------------

theorem entry_new (slot : Fin tableSize) : (new tableSize).entry slot = DirectoryEntry.empty := by
  simp [entry, new]

@[simp]
theorem entry_put_self (directory : Directory tableSize) (slot : Fin tableSize)
    (entry : DirectoryEntry)
    : (directory.put slot entry).entry slot = entry := by
  simp [Directory.entry, put]

@[simp]
theorem entry_put_of_ne (directory : Directory tableSize) {slot other : Fin tableSize}
    (apart : other ≠ slot) (entry : DirectoryEntry)
    : (directory.put slot entry).entry other = directory.entry other := by
  have indices : slot.val ≠ other.val := fun same => apart (Fin.ext same.symm)
  simp only [Directory.entry, put, Fin.getElem_fin]
  exact Vector.getElem_set_ne _ _ indices

theorem matches_iff (entry : DirectoryEntry) (name : Buffer)
    : (entry.inUse && strncmp entry.nameBytes name 0 fileNameMaxLen == 0) = true
      ↔ entry.inUse = true ∧ entry.key = nameKey name := by
  rw [Bool.and_eq_true, beq_iff_eq, strncmp_eq_zero_iff]
  rfl

/-- No file is found exactly when no entry in use has that name. -/
theorem findIndex_eq_none_iff (directory : Directory tableSize) (name : Buffer)
    : directory.findIndex name = none
      ↔ ∀ slot, (directory.entry slot).inUse = true
          → (directory.entry slot).key ≠ nameKey name := by
  simp only [findIndex, List.find?_eq_none, List.mem_finRange, true_implies, matches_iff,
    not_and, ne_eq]

/-- A slot that is found is in use under that name. -/
theorem findIndex_eq_some {directory : Directory tableSize} {name : Buffer}
    {slot : Fin tableSize} (found : directory.findIndex name = some slot)
    : (directory.entry slot).inUse = true ∧ (directory.entry slot).key = nameKey name := by
  rw [findIndex] at found
  have accepted := List.find?_some found
  exact (matches_iff _ _).mp accepted

theorem freeIndex_eq_some {directory : Directory tableSize} {slot : Fin tableSize}
    (found : directory.freeIndex = some slot)
    : (directory.entry slot).inUse = false := by
  simpa using List.find?_some found

theorem freeIndex_eq_none_iff (directory : Directory tableSize)
    : directory.freeIndex = none ↔ ∀ slot, (directory.entry slot).inUse = true := by
  simp [freeIndex]

/-- A table is read back from its raw bytes. -/
theorem ofImage_of_bytes {directory : Directory tableSize} {bytes : Buffer}
    (fits : ∀ slot, CInt.InRange (directory.entry slot).sector)
    (stored : ∀ offset < tableSize * DirectoryEntry.size,
      bytes offset = directory.image offset)
    : ofImage tableSize bytes = directory := by
  have tables : (ofImage tableSize bytes).table = directory.table := by
    apply Vector.ext
    intro index inside
    rw [ofImage, Vector.getElem_ofFn]
    refine DirectoryEntry.ofImage_of_bytes (fits ⟨index, inside⟩) (fun offset small => ?_)
    have quotient : (DirectoryEntry.size * index + offset) / DirectoryEntry.size = index := by
      rw [DirectoryEntry.size_eq] at *
      omega
    have remainder : (DirectoryEntry.size * index + offset) % DirectoryEntry.size = offset := by
      rw [DirectoryEntry.size_eq] at *
      omega
    rw [stored _ (by rw [DirectoryEntry.size_eq] at *; omega), image, quotient, remainder,
      Vector.getElem?_eq_getElem inside]
  cases directory
  exact congrArg Directory.mk tables

-----------------------------------------------------------------------------------------
-- Directories in files
-----------------------------------------------------------------------------------------

/-- A directory is read back from a file that holds its image, since the whole table is read. -/
theorem run_fetchFrom {file : OpenFile} {disk : Disk}
    (initial directory : Directory tableSize) (usable : file.hdr.Usable)
    (whole : file.hdr.size = (tableSize * DirectoryEntry.size : Nat))
    (fits : ∀ slot, CInt.InRange (directory.entry slot).sector)
    (holds : Holds disk file.hdr directory.image (tableSize * DirectoryEntry.size))
    : (initial.fetchFrom file).run disk = (.ok directory, disk) := by
  have read := OpenFile.run_readAt_start usable initial.image whole.ge disk
  push_cast at read
  rw [fetchFrom, Routine.run_bind_ok read, Routine.run_pure]
  refine congrArg (fun table => (Except.ok table, disk)) (ofImage_of_bytes fits ?_)
  intro offset inside
  rw [blit_inside _ _ (Nat.zero_le _) (by omega), Nat.sub_zero, holds offset inside]

/-- The file holds the image of the directory after it is written back, and no other sector
changes.
-/
theorem run_writeBack {file : OpenFile}
    (directory : Directory tableSize) (usable : file.hdr.Usable)
    (whole : file.hdr.size = (tableSize * DirectoryEntry.size : Nat)) (disk : Disk)
    : ∃ after,
        (directory.writeBack file).run disk = (.ok (), after)
        ∧ (∀ s ∉ file.hdr.sectors, after s = disk s)
        ∧ Holds after file.hdr directory.image (tableSize * DirectoryEntry.size) := by
  obtain ⟨after, written, frame, holds⟩ :=
    OpenFile.run_writeAt_start usable directory.image whole.ge disk
  push_cast at written
  refine ⟨after, ?_, frame, holds⟩
  rw [writeBack, Routine.run_bind_ok written, Routine.run_pure]

end Directory

end Nachos.FileSys
