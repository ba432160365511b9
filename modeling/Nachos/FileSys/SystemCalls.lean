import Nachos.FileSys.World

/-! The file operations behind the system calls: one pointer to an open file, whatever id a
program passes.
-/

namespace Nachos.FileSys

open Bytes Routines

/-- The member `openedFile`, which the constructor does not set. -/
inductive FilePointer where
  | uninitialized
  | null
  /-- The object with the given number in the order of opening. -/
  | object (number : Nat)

/-- The object that a dereference or `delete` reaches. -/
def FilePointer.target : FilePointer → Except Fault Nat
  | .uninitialized => .error .danglingPointer
  | .null => .error .nullPointer
  | .object number => .ok number

structure Session where
  world : World
  openedFile : FilePointer

/-- The system calls on files that are open or to be opened. -/
inductive Call where
  | openFile (name : Buffer)
  | read (into : Buffer) (size id : Int)
  | write (source : Buffer) (size id : Int)
  | close (id : Int)

/-- The id that a call passes. -/
def Call.id? : Call → Option Int
  | .openFile _ => none
  | .read _ _ id => some id
  | .write _ _ id => some id
  | .close id => some id

/-- The value that a call returns, and what a read left in the buffer. -/
inductive Reply where
  | status (value : Int)
  | filled (value : Int) (into : Buffer)

def Reply.value : Reply → Int
  | .status value => value
  | .filled value _ => value

namespace Session

abbrev SessionRoutine := Routine Fault Session

def onWorld {α : Type} (routine : World.WorldRoutine α) : SessionRoutine α :=
  Routine.onPart Session.world (fun session world => { session with world }) routine

def setOpenedFile (openedFile : FilePointer) : SessionRoutine Unit := do
  let session ← Routine.get
  Routine.set { session with openedFile }

/-- `Open`: the id is 1 whether or not the file was found. -/
def openFile (name : Buffer) : SessionRoutine Int := do
  let session ← Routine.get
  let result ← onWorld (World.onDisk (session.world.files.openAsOpenFile name))
  match result with
  | some file =>
      onWorld (World.updateHandles (fun handles =>
        handles ++ [{ file, key := nameKey name, status := .live, deleted := false }]))
      setOpenedFile (.object session.world.handles.length)
      return 1
  | none =>
      setOpenedFile .null
      return 1

/-- `Read`: the id is not looked at. -/
def read (into : Buffer) (size _id : Int) : SessionRoutine (Int × Buffer) := do
  let session ← Routine.get
  let number ← Routine.lift session.openedFile.target
  let file ← Routine.lift (session.world.fileOf number .danglingPointer)
  let (result, filled, moved) ← onWorld (World.onDisk (file.read into size))
  onWorld (World.setFile number moved)
  return (result, filled)

/-- `Write`: the id is not looked at. -/
def write (source : Buffer) (size _id : Int) : SessionRoutine Int := do
  let session ← Routine.get
  let number ← Routine.lift session.openedFile.target
  let file ← Routine.lift (session.world.fileOf number .danglingPointer)
  let (result, moved) ← onWorld (World.onDisk (file.write source size))
  onWorld (World.setFile number moved)
  return result

/-- `Close`: the pointer still has its value afterwards. Deleting a null pointer does
nothing.
-/
def close (_id : Int) : SessionRoutine Int := do
  let session ← Routine.get
  match session.openedFile with
  | .null => return 1
  | pointer =>
      let number ← Routine.lift pointer.target
      let _ ← Routine.lift (session.world.fileOf number .doubleDelete)
      onWorld (World.updateHandles (fun handles =>
        handles.modify number (fun found => { found with deleted := true })))
      return 1

/-- Perform one system call. -/
def perform : Call → SessionRoutine Reply
  | .openFile name => do
      let id ← openFile name
      return .status id
  | .read into size id => do
      let (count, filled) ← read into size id
      return .filled count filled
  | .write source size id => do
      let count ← write source size id
      return .status count
  | .close id => do
      let result ← close id
      return .status result

/-- A step of a run: a call that meets the condition and returns. -/
def Step (allowed : Session → Call → Prop) (session : Session) (event : Call × Reply)
    (after : Session)
    : Prop :=
  allowed session event.1 ∧ (perform event.1).run session = (.ok event.2, after)

/-- A file system that was just constructed. -/
def start (world : World) : Session := { world, openedFile := .uninitialized }

end Session

end Nachos.FileSys
