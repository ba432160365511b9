import Nachos.FileSysStub.OpenFileTable
import Nachos.Lib.Runs

/-! Open files as a finite map from ids to files and offsets, and that the table refines it. -/

namespace Nachos.FileSysStub
open Bytes Outcome FileSystem

-----------------------------------------------------------------------------------------
-- The finite map
-----------------------------------------------------------------------------------------

/-- A file of the host that is read and written at an offset, with the descriptor to close. -/
structure Entry where
  file : FileId
  offset : Nat
  descriptor : Nat

/-- The entries by id, and the files of the host. -/
structure OpenFiles where
  entries : Fin maxOpenFiles → Option Entry
  contents : FileId → List Byte

namespace OpenFiles

def put (files : OpenFiles) (id : Fin maxOpenFiles) (entry : Option Entry) : OpenFiles :=
  { files with entries := Function.update files.entries id entry }

/-- The id is that of an entry. -/
def Holds (files : OpenFiles) (id : Int) (slot : Fin maxOpenFiles) (entry : Entry) : Prop :=
  id = (slot : Nat) ∧ files.entries slot = some entry

/-- The id is that of no entry. -/
def Lacks (files : OpenFiles) (id : Int) : Prop := ∀ slot entry, ¬files.Holds id slot entry

/-- A call that uses an id. -/
def Uses (id : Int) : Operation → Prop
  | .readFile _ other | .writeFile _ other | .closeFile other => other = id
  | .openAFile _ | .elsewhere _ _ _ => False

def failed : Reply := { returned := -1, data := [] }

/-- What each call does to the map. -/
inductive Step : OpenFiles → Event → OpenFiles → Prop
  /-- The least free id, at offset zero, with a descriptor that no entry has. -/
  | opened {files : OpenFiles} {id : Fin maxOpenFiles} {name : List Byte} {fd : Nat}
      {file : FileId}
      (free : files.entries id = none)
      (least : ∀ other < id, files.entries other ≠ none)
      (unused : ∀ other entry, files.entries other = some entry → entry.descriptor ≠ fd)
      : Step files
          {
            operation := .openAFile name
            answer := some (fd, file)
            reply := { returned := (id : Nat), data := [] }
            calls := [.opened fd]
          }
          (files.put id (some { file, offset := 0, descriptor := fd }))
  /-- The host does not open the file. -/
  | refused {files : OpenFiles} {name : List Byte}
      : Step files
          { operation := .openAFile name, answer := none, reply := failed, calls := [] } files
  /-- Every id is in use. -/
  | full {files : OpenFiles} {name : List Byte} {answer : Option (Nat × FileId)}
      (used : ∀ id, files.entries id ≠ none)
      : Step files { operation := .openAFile name, answer, reply := failed, calls := [] } files
  | invalid {files : OpenFiles} {id : Int} {operation : Operation} (uses : Uses id operation)
      (lacks : files.Lacks id)
      : Step files { operation, answer := none, reply := failed, calls := [] } files
  | read {files : OpenFiles} {id : Int} {slot : Fin maxOpenFiles} {entry : Entry} {size : Nat}
      {data : List Byte}
      (holds : files.Holds id slot entry)
      (there : data = delivered (files.contents entry.file) entry.offset size)
      : Step files
          {
            operation := .readFile size id
            answer := none
            reply := { returned := data.length, data }
            calls := []
          }
          (files.put slot (some { entry with offset := entry.offset + data.length }))
  | written {files : OpenFiles} {id : Int} {slot : Fin maxOpenFiles} {entry : Entry}
      {data : List Byte}
      (holds : files.Holds id slot entry)
      : Step files
          {
            operation := .writeFile data id
            answer := none
            reply := { returned := data.length, data := [] }
            calls := []
          }
          {
            files.put slot (some { entry with offset := entry.offset + data.length }) with
            contents := Function.update files.contents entry.file
              (spliced (files.contents entry.file) entry.offset data)
          }
  | closed {files : OpenFiles} {id : Int} {slot : Fin maxOpenFiles} {entry : Entry}
      (holds : files.Holds id slot entry)
      : Step files
          {
            operation := .closeFile id
            answer := none
            reply := { returned := 1, data := [] }
            calls := [.closed entry.descriptor]
          }
          (files.put slot none)
  | elsewhere {files : OpenFiles} {names : List Byte → Option FileId}
      {contents : FileId → List Byte} {descriptors : List (Option Description)}
      : Step files
          {
            operation := .elsewhere names contents descriptors
            answer := none
            reply := { returned := 0, data := [] }
            calls := []
          }
          { files with contents }

end OpenFiles

-----------------------------------------------------------------------------------------
-- The map that a table stands for
-----------------------------------------------------------------------------------------

namespace FileSystem

variable {fileSystem after : FileSystem}

/-- The entry of an open file. -/
def entryOf (host : Host) (openFile : OpenFile) : Option Entry :=
  (host.description openFile.file).map (fun description =>
    {
      file := description.file
      offset := openFile.currentOffset.toNat
      descriptor := openFile.file
    })

def openFiles (fileSystem : FileSystem) : OpenFiles where
  entries id := (fileSystem.openFileTable id).bind (entryOf fileSystem.host)
  contents := fileSystem.host.contents

/-- Each open file in the table has a descriptor of its own, which is open, and an offset that
the host can seek to.
-/
structure Sound (fileSystem : FileSystem) : Prop where
  opened
    : ∀ id openFile, fileSystem.openFileTable id = some openFile
      → ∃ description, fileSystem.host.description openFile.file = some description
  offset
    : ∀ id openFile, fileSystem.openFileTable id = some openFile
      → 0 ≤ openFile.currentOffset ∧ openFile.currentOffset ≤ offsetMaximum
  distinct
    : ∀ left right leftFile rightFile,
      fileSystem.openFileTable left = some leftFile
      → fileSystem.openFileTable right = some rightFile → leftFile.file = rightFile.file
      → left = right

/-- An id is in use in the map exactly when its slot is. -/
theorem Sound.entries_eq_none_iff (sound : fileSystem.Sound) (id : Fin maxOpenFiles)
    : fileSystem.openFiles.entries id = none ↔ fileSystem.openFileTable id = none := by
  cases stored : fileSystem.openFileTable id with
  | none => simp [openFiles, stored]
  | some openFile =>
      obtain ⟨description, opened⟩ := sound.opened id openFile stored
      simp [openFiles, stored, entryOf, opened]

/-- An id that is found is the number of its slot. -/
theorem lookup_eq_some {id : Int} {slot : Fin maxOpenFiles} {openFile : OpenFile}
    (found : fileSystem.lookup id = some (slot, openFile))
    : id = (slot : Nat) ∧ fileSystem.openFileTable slot = some openFile := by
  unfold lookup at found
  split at found
  · rename_i inside
    obtain ⟨_, stored, same⟩ := Option.map_eq_some_iff.mp found
    obtain ⟨rfl, rfl⟩ := Prod.mk.inj same
    exact ⟨(Int.toNat_of_nonneg inside.1).symm, stored⟩
  · exact nomatch found

/-- An id that the table refuses is not open in the abstract table either. -/
theorem Sound.lacks (sound : fileSystem.Sound) {id : Int} (absent : fileSystem.lookup id = none)
    : fileSystem.openFiles.Lacks id := by
  rintro slot entry ⟨rfl, held⟩
  have inside : 0 ≤ ((slot : Nat) : Int) ∧ ((slot : Nat) : Int) < maxOpenFiles :=
    ⟨Int.natCast_nonneg _, Int.ofNat_lt.mpr slot.isLt⟩
  rw [lookup, dif_pos inside, Option.map_eq_none_iff] at absent
  have none : fileSystem.openFileTable slot = none := absent
  rw [← sound.entries_eq_none_iff, held] at none
  exact nomatch none

-----------------------------------------------------------------------------------------
-- One slot
-----------------------------------------------------------------------------------------

section Slot

variable {slot : Fin maxOpenFiles} {openFile : Option OpenFile} {host : Host}

/-- The host kept the descriptors of all other slots. -/
def Spares (fileSystem : FileSystem) (slot : Fin maxOpenFiles) (host : Host) : Prop :=
  ∀ id other, id ≠ slot → fileSystem.openFileTable id = some other
    → host.description other.file = fileSystem.host.description other.file

theorem setSlot_self
    : (fileSystem.setSlot slot openFile host).openFileTable slot = openFile :=
  Function.update_self ..

theorem setSlot_of_ne {id : Fin maxOpenFiles} (apart : id ≠ slot)
    : (fileSystem.setSlot slot openFile host).openFileTable id
      = fileSystem.openFileTable id :=
  Function.update_of_ne apart ..

/-- A change of one slot is a change of one entry of the abstract table, by cases on the slot. -/
theorem openFiles_setSlot (spares : fileSystem.Spares slot host)
    : (fileSystem.setSlot slot openFile host).openFiles
      = {
          entries :=
            Function.update fileSystem.openFiles.entries slot
              (openFile.bind (entryOf host))
          contents := host.contents
        } := by
  rw [openFiles]
  congr
  funext id
  by_cases same : id = slot
  · subst same
    rw [Function.update_self, setSlot_self]
    rfl
  · rw [Function.update_of_ne same, setSlot_of_ne same]
    change (fileSystem.openFileTable id).bind (entryOf host) = _
    cases stored : fileSystem.openFileTable id with
    | none => simp [openFiles, stored]
    | some other =>
        simp [openFiles, stored, entryOf, spares id other same stored]

/-- A change of one slot keeps the table sound when the new file is open at the host and no other
slot has it.
-/
theorem Sound.setSlot (sound : fileSystem.Sound) (spares : fileSystem.Spares slot host)
    (opened
      : ∀ new, openFile = some new
        → (∃ description, host.description new.file = some description)
          ∧ (0 ≤ new.currentOffset ∧ new.currentOffset ≤ offsetMaximum)
          ∧ ∀ id other, id ≠ slot → fileSystem.openFileTable id = some other
            → other.file ≠ new.file)
    : (fileSystem.setSlot slot openFile host).Sound := by
  have stored (id : Fin maxOpenFiles) (found : OpenFile)
      (there : (fileSystem.setSlot slot openFile host).openFileTable id = some found)
      : id = slot ∧ openFile = some found
        ∨ id ≠ slot ∧ fileSystem.openFileTable id = some found := by
    by_cases same : id = slot
    · subst same
      rw [setSlot_self] at there
      exact .inl ⟨rfl, there⟩
    · rw [setSlot_of_ne same] at there
      exact .inr ⟨same, there⟩
  refine { opened := ?_, offset := ?_, distinct := ?_ }
  · intro id found there
    rcases stored id found there with ⟨_, new⟩ | ⟨apart, old⟩
    · exact (opened found new).1
    · obtain ⟨description, before⟩ := sound.opened id found old
      exact ⟨description, (spares id found apart old).trans before⟩
  · intro id found there
    rcases stored id found there with ⟨_, new⟩ | ⟨_, old⟩
    · exact (opened found new).2.1
    · exact sound.offset id found old
  · intro left right leftFile rightFile thereLeft thereRight same
    rcases stored left leftFile thereLeft with ⟨atLeft, newLeft⟩ | ⟨apartLeft, oldLeft⟩ <;>
      rcases stored right rightFile thereRight with ⟨atRight, newRight⟩ | ⟨apartRight, oldRight⟩
    · exact atLeft.trans atRight.symm
    · exact absurd same.symm ((opened leftFile newLeft).2.2 right rightFile apartRight oldRight)
    · exact absurd same ((opened rightFile newRight).2.2 left leftFile apartLeft oldLeft)
    · exact sound.distinct left right leftFile rightFile oldLeft oldRight same

/-- Changes to one open descriptor spare the other slots. -/
theorem Sound.spares (sound : fileSystem.Sound) {stored : OpenFile}
    (there : fileSystem.openFileTable slot = some stored)
    (others
      : ∀ fd, fd ≠ stored.file → host.description fd = fileSystem.host.description fd)
    : fileSystem.Spares slot host := by
  intro id other apart found
  refine others other.file (fun same => apart ?_)
  exact sound.distinct id slot other stored found there same

end Slot

end FileSystem

end Nachos.FileSysStub
