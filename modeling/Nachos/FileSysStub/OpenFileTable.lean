import Mathlib.Data.List.FinRange
import Nachos.FileSysStub.Host
import Nachos.Lib.Outcome

/-! The table of open files of the first kernel, over the files of the host. -/

namespace Nachos.FileSysStub
open Bytes Outcome

/-- `MAX_OPEN_FILES`. -/
def maxOpenFiles : Nat := 20

structure OpenFile where
  file : Nat
  currentOffset : Int

namespace OpenFile

variable (openFile : OpenFile) (host : Host)

def readAt (numBytes : Nat) (position : Int) : Except Fault (Int × List Byte × Host) := do
  let sought ← host.lseek openFile.file position
  return sought.readPartial openFile.file numBytes

def writeAt (data : List Byte) (position : Int) : Except Fault (Int × Host) := do
  let sought ← host.lseek openFile.file position
  let written ← sought.writeFile openFile.file data
  return (data.length, written)

/-- `Read`: what is returned, what the buffer gets, and the changed object and host. -/
def read (numBytes : Nat) : Except Fault (Int × List Byte × OpenFile × Host) := do
  let (numRead, data, after) ← openFile.readAt host numBytes openFile.currentOffset
  let currentOffset := CInt.wrap (openFile.currentOffset + numRead)
  return (numRead, data, { openFile with currentOffset }, after)

def write (data : List Byte) : Except Fault (Int × OpenFile × Host) := do
  let (numWritten, after) ← openFile.writeAt host data openFile.currentOffset
  let currentOffset := CInt.wrap (openFile.currentOffset + numWritten)
  return (numWritten, { openFile with currentOffset }, after)

end OpenFile

/-- What a call returns, and what a read leaves in the buffer. -/
structure Reply where
  returned : Int
  data : List Byte
  deriving DecidableEq

/-- `FileSystem` with the host around it. -/
structure FileSystem where
  openFileTable : Fin maxOpenFiles → Option OpenFile
  host : Host

namespace FileSystem

variable (fileSystem : FileSystem)

def setSlot (id : Fin maxOpenFiles) (openFile : Option OpenFile) (host : Host) : FileSystem :=
  { openFileTable := Function.update fileSystem.openFileTable id openFile, host }

/-- The slot of an id and the open file in it, if the id is valid. -/
def lookup (id : Int) : Option (Fin maxOpenFiles × OpenFile) :=
  if inside : 0 ≤ id ∧ id < maxOpenFiles then
    let slot : Fin maxOpenFiles := ⟨id.toNat, (Int.toNat_lt inside.1).mpr inside.2⟩
    (fileSystem.openFileTable slot).map (slot, ·)
  else none

/-- The first free slot. -/
def freeSlot : Option (Fin maxOpenFiles) :=
  (List.finRange maxOpenFiles).find? (fun id => (fileSystem.openFileTable id).isNone)

def openAFile (name : List Byte) : Reply × FileSystem :=
  match fileSystem.freeSlot with
  | none => ({ returned := -1, data := [] }, fileSystem)
  | some id =>
      match fileSystem.host.openForReadWrite name with
      | (none, host) => ({ returned := -1, data := [] }, { fileSystem with host })
      | (some fileDescriptor, host) =>
          ({ returned := id, data := [] },
            fileSystem.setSlot id (some { file := fileDescriptor, currentOffset := 0 }) host)

def writeFile (data : List Byte) (id : Int) : Except Fault (Reply × FileSystem) :=
  match fileSystem.lookup id with
  | none => .ok ({ returned := -1, data := [] }, fileSystem)
  | some (slot, openFile) => do
      let (bytesWritten, openFile, host) ← openFile.write fileSystem.host data
      let after := fileSystem.setSlot slot (some openFile) host
      if bytesWritten < 0 then return ({ returned := -1, data := [] }, after)
      else return ({ returned := bytesWritten, data := [] }, after)

def readFile (size : Nat) (id : Int) : Except Fault (Reply × FileSystem) :=
  match fileSystem.lookup id with
  | none => .ok ({ returned := -1, data := [] }, fileSystem)
  | some (slot, openFile) => do
      let (bytesRead, data, openFile, host) ← openFile.read fileSystem.host size
      let after := fileSystem.setSlot slot (some openFile) host
      if bytesRead < 0 then return ({ returned := -1, data }, after)
      else return ({ returned := bytesRead, data }, after)

/-- `CloseFile`, with the destructor of the open file. -/
def closeFile (id : Int) : Except Fault (Reply × FileSystem) :=
  match fileSystem.lookup id with
  | none => .ok ({ returned := -1, data := [] }, fileSystem)
  | some (slot, openFile) => do
      let host ← fileSystem.host.close openFile.file
      return ({ returned := 1, data := [] }, fileSystem.setSlot slot none host)

-----------------------------------------------------------------------------------------
-- Steps
-----------------------------------------------------------------------------------------

/-- A call of the file system, or changes to the host by others. -/
inductive Operation where
  | openAFile (name : List Byte)
  | readFile (size : Nat) (id : Int)
  | writeFile (data : List Byte) (id : Int)
  | closeFile (id : Int)
  | elsewhere (names : List Byte → Option FileId) (contents : FileId → List Byte)
      (descriptors : List (Option Description))

/-- Others leave the descriptors in the table alone. -/
def Legal : Operation → Prop
  | .elsewhere _ _ descriptors =>
      ∀ id openFile, fileSystem.openFileTable id = some openFile
        → descriptors[openFile.file]? = fileSystem.host.descriptors[openFile.file]?
  | _ => True

def perform : Operation → Except Fault (Reply × FileSystem)
  | .openAFile name => .ok (fileSystem.openAFile name)
  | .readFile size id => fileSystem.readFile size id
  | .writeFile data id => fileSystem.writeFile data id
  | .closeFile id => fileSystem.closeFile id
  | .elsewhere names contents descriptors =>
      .ok ({ returned := 0, data := [] },
        {
          fileSystem with
          host := { fileSystem.host with names, contents, descriptors }
        })

/-- What one operation shows: the host's answer to an `open` of the name, the reply, and the
descriptors that the host opened and closed.
-/
structure Event where
  operation : Operation
  answer : Option (Nat × FileId)
  reply : Reply
  calls : List HostCall

/-- The host's answer, for an operation that opens a file. -/
def answer : Operation → Option (Nat × FileId)
  | .openAFile name => fileSystem.host.answer name
  | _ => none

/-- A legal operation that returns. -/
def Step (fileSystem : FileSystem) (event : Event) (after : FileSystem) : Prop :=
  fileSystem.Legal event.operation
  ∧ event.answer = fileSystem.answer event.operation
  ∧ fileSystem.perform event.operation = .ok (event.reply, after)
  ∧ after.host.calls = fileSystem.host.calls ++ event.calls

end FileSystem

end Nachos.FileSysStub
