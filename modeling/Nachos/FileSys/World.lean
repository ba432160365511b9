import Nachos.FileSys.FileSystem

/-! A file system in use: its disk, the open files that programs hold, and the operations on
them, one at a time.
-/

namespace Nachos.FileSys

open Bytes Routines

/-- What became of the file behind an open file, for statements only: it is still in the
directory, it was removed, or a file has been created since it was removed.
-/
inductive HandleStatus where
  | live
  | removed
  | overtaken
  deriving DecidableEq

/-- An `OpenFile` object of a program, with the name it was opened under. -/
structure Handle where
  file : OpenFile
  key : List Byte
  status : HandleStatus
  deleted : Bool

namespace Handle

/-- The handle after some file was created. -/
def overtake (handle : Handle) : Handle :=
  if handle.status = .removed then { handle with status := .overtaken } else handle

/-- The handle after the file with the given name was removed. -/
def expire (key : List Byte) (handle : Handle) : Handle :=
  if handle.status = .live ∧ handle.key = key then { handle with status := .removed }
  else handle

@[simp]
theorem file_overtake (handle : Handle) : handle.overtake.file = handle.file := by
  unfold overtake
  split <;> rfl

@[simp]
theorem deleted_overtake (handle : Handle) : handle.overtake.deleted = handle.deleted := by
  unfold overtake
  split <;> rfl

@[simp]
theorem file_expire (key : List Byte) (handle : Handle)
    : (handle.expire key).file = handle.file := by
  unfold expire
  split <;> rfl

@[simp]
theorem deleted_expire (key : List Byte) (handle : Handle)
    : (handle.expire key).deleted = handle.deleted := by
  unfold expire
  split <;> rfl

end Handle

structure World where
  disk : Disk
  files : FileSystem
  handles : List Handle

/-- The operations of programs on files. Open files are referred to by their number in the
order of opening.
-/
inductive Operation where
  | create (address : FileSystem.Addresses) (name : Buffer) (initialSize : Int)
  | remove (name : Buffer)
  | openAsOpenFile (name : Buffer)
  | readAt (handle : Nat) (into : Buffer) (numBytes position : Int)
  | writeAt (handle : Nat) (source : Buffer) (numBytes position : Int)
  | read (handle : Nat) (into : Buffer) (numBytes : Int)
  | write (handle : Nat) (source : Buffer) (numBytes : Int)
  | seek (handle : Nat) (position : Int)
  | delete (handle : Nat)

/-- The handle that an operation writes through. -/
def Operation.written : Operation → Option Nat
  | .writeAt handle .. => some handle
  | .write handle .. => some handle
  | _ => none

/-- The handle that an operation uses. -/
def Operation.used : Operation → Option Nat
  | .readAt handle .. => some handle
  | .writeAt handle .. => some handle
  | .read handle .. => some handle
  | .write handle .. => some handle
  | .seek handle _ => some handle
  | .delete handle => some handle
  | _ => none

/-- What an operation returns. -/
inductive Answer where
  | success (result : Bool)
  | opened (found : Bool)
  | bytesRead (count : Int) (into : Buffer)
  | bytesWritten (count : Int)
  | done

namespace World

abbrev WorldRoutine := Routine Fault World

def onDisk {α : Type} (routine : DiskRoutine α) : WorldRoutine α :=
  Routine.onPart World.disk (fun world disk => { world with disk }) routine

/-- The object of a handle, which must not be deleted. -/
def fileOf (world : World) (handle : Nat) (deleted : Fault) : Except Fault OpenFile :=
  match world.handles[handle]? with
  | some found => if found.deleted then .error deleted else .ok found.file
  | none => .error .danglingPointer

def updateHandles (update : List Handle → List Handle) : WorldRoutine Unit := do
  let world ← Routine.get
  Routine.set { world with handles := update world.handles }

/-- Replace the object of a handle. -/
def setFile (handle : Nat) (file : OpenFile) : WorldRoutine Unit :=
  updateHandles (fun handles => handles.modify handle (fun found => { found with file }))

/-- Perform one operation. -/
def perform : Operation → WorldRoutine Answer
  | .create address name initialSize => do
      let world ← Routine.get
      let result ← onDisk (world.files.create address name initialSize)
      if result then
        updateHandles (fun handles => handles.map Handle.overtake)
        return .success true
      else return .success false
  | .remove name => do
      let world ← Routine.get
      let result ← onDisk (world.files.remove name)
      if result then
        updateHandles (fun handles => handles.map (Handle.expire (nameKey name)))
        return .success true
      else return .success false
  | .openAsOpenFile name => do
      let world ← Routine.get
      let result ← onDisk (world.files.openAsOpenFile name)
      match result with
      | some file =>
          updateHandles (fun handles =>
            handles ++ [{ file, key := nameKey name, status := .live, deleted := false }])
          return .opened true
      | none => return .opened false
  | .readAt handle into numBytes position => do
      let world ← Routine.get
      let file ← Routine.lift (world.fileOf handle .danglingPointer)
      let (count, filled) ← onDisk (file.readAt into 0 numBytes position)
      return .bytesRead count filled
  | .writeAt handle source numBytes position => do
      let world ← Routine.get
      let file ← Routine.lift (world.fileOf handle .danglingPointer)
      let count ← onDisk (file.writeAt source numBytes position)
      return .bytesWritten count
  | .read handle into numBytes => do
      let world ← Routine.get
      let file ← Routine.lift (world.fileOf handle .danglingPointer)
      let (count, filled, moved) ← onDisk (file.read into numBytes)
      setFile handle moved
      return .bytesRead count filled
  | .write handle source numBytes => do
      let world ← Routine.get
      let file ← Routine.lift (world.fileOf handle .danglingPointer)
      let (count, moved) ← onDisk (file.write source numBytes)
      setFile handle moved
      return .bytesWritten count
  | .seek handle position => do
      let world ← Routine.get
      let file ← Routine.lift (world.fileOf handle .danglingPointer)
      setFile handle (file.seek position)
      return .done
  | .delete handle => do
      let world ← Routine.get
      let _ ← Routine.lift (world.fileOf handle .doubleDelete)
      updateHandles (fun handles =>
        handles.modify handle (fun found => { found with deleted := true }))
      return .done

/-- The data sectors of the file that an operation writes to. -/
def writtenSectors (world : World) (operation : Operation) : List Int :=
  match operation.written.bind (fun handle => world.handles[handle]?) with
  | some handle => handle.file.hdr.sectors
  | none => []

/-- A step of a run: an operation that meets the condition and returns. -/
def Step (allowed : World → Operation → Prop) (world : World) (event : Operation × Answer)
    (after : World)
    : Prop :=
  allowed world event.1 ∧ (perform event.1).run world = (.ok event.2, after)

end World

end Nachos.FileSys
