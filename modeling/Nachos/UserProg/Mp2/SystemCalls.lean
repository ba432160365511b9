import Nachos.UserProg.ObjectFile
import Nachos.UserProg.PageTable

/-! The system calls of the second kernel that take an address, over the stub of the file
system: the table of open files and the files of the host. Every access to `mainMemory` is
recorded.
-/

namespace Nachos.UserProg.Mp2

open Bytes

/-- `MAX_OPEN_FILES`. -/
def maxOpenFiles : Nat := 20

structure OpenFile where
  file : HostFile
  currentOffset : Int

/-- The kernel while a user program makes a system call. -/
structure Caller where
  /-- The address space of the current thread. -/
  space : AddrSpace
  memory : Memory
  openFileTable : List (Option OpenFile)

/-- What opening a file of the host by its name gives. -/
structure Host where
  openForWrite : List Byte → Bool
  openForReadWrite : List Byte → Option HostFile

/-- What a system call did. -/
structure Served where
  /-- The indices of `mainMemory` that were read or written. -/
  accessed : List Int
  /-- What register 2 gets. -/
  status : Except Fault Int
  after : Caller

/-- The indices of so many bytes. -/
def indices (start : Int) (count : Nat) : List Int :=
  (List.range count).map (fun (offset : Nat) => start + (offset : Int))

namespace Caller

/-- `OpenFileTable[id]`, if the id is valid. -/
def openFile (caller : Caller) (id : Int) : Option OpenFile :=
  if id < 0 ∨ id ≥ maxOpenFiles then none
  else (caller.openFileTable[id.toNat]?).join

def setOpenFile (caller : Caller) (id : Int) (openFile : OpenFile) : Caller :=
  { caller with openFileTable := caller.openFileTable.set id.toNat (some openFile) }

/-- Nothing was accessed. -/
def reply (caller : Caller) (status : Except Fault Int) : Served :=
  { accessed := [], status, after := caller }

/-- `WriteFile` on the host: so many bytes from a position on. Writing no bytes behind the end does
not extend the file.
-/
def writeAt (file : HostFile) (position : Nat) (data : List Byte) : HostFile :=
  if data = [] then file
  else
    file.take position ++ List.replicate (position - file.length) 0 ++ data
      ++ file.drop (position + data.length)

/-- `FileSystem::ReadFile` into `&mainMemory[val]`, with `OpenFile::Read`. -/
def readFile (caller : Caller) (val size id : Int) : Served :=
  match caller.openFile id with
  | none => caller.reply (.ok (-1))
  | some openFile =>
      match openFile.file.readAt size openFile.currentOffset with
      | .error fault => caller.reply (.error fault)
      | .ok data =>
          {
            accessed := indices val data.length
            status :=
              if data = [] ∨ (0 ≤ val ∧ val + data.length ≤ memorySize) then .ok data.length
              else .error .outOfBounds
            after :=
              {
                caller.setOpenFile id
                  {
                    openFile with
                    currentOffset := CInt.wrap (openFile.currentOffset + data.length)
                  } with
                memory := {
                  caller.memory with
                  mainMemory := blit caller.memory.mainMemory val.toNat (ofList data) data.length
                }
              }
          }

/-- `FileSystem::WriteFile` from `&mainMemory[val]`, with `OpenFile::Write`. The host refuses to
write a negative number of bytes, and `WriteFile` asserts that its result is the number asked
for.
-/
def writeFile (caller : Caller) (val size id : Int) : Served :=
  match caller.openFile id with
  | none => caller.reply (.ok (-1))
  | some openFile =>
      let written := caller.setOpenFile id
        {
          file := writeAt openFile.file openFile.currentOffset.toNat
            ((List.range size.toNat).map (fun offset =>
              caller.memory.mainMemory (val.toNat + offset)))
          currentOffset := CInt.wrap (openFile.currentOffset + size)
        }
      if openFile.currentOffset < 0 then caller.reply (.error .assertion)
      else if size < 0 then
        if size = -1 then { accessed := [], status := .ok (-1), after := written }
        else caller.reply (.error .assertion)
      else
        {
          accessed := indices val size.toNat
          status :=
            if size = 0 ∨ (0 ≤ val ∧ val + size ≤ memorySize) then .ok size
            else .error .outOfBounds
          after := written
        }

/-- The C string at `&mainMemory[val]`, if its bytes are in `mainMemory`. -/
def fileName (caller : Caller) (val : Int) : Option (List Byte) :=
  if 0 ≤ val ∧ val < memorySize then
    let name := cString caller.memory.mainMemory val.toNat (memorySize - val.toNat)
    if val.toNat + name.length < memorySize then some name else none
  else none

/-- The indices read until the string ends: those up to its NUL, or past the end of
`mainMemory`.
-/
def nameIndices (caller : Caller) (val : Int) : List Int :=
  match caller.fileName val with
  | some name => indices val (name.length + 1)
  | none => if 0 ≤ val ∧ val < memorySize then indices val (memorySize - val.toNat + 1) else [val]

/-- The first free slot of the table. -/
def freeSlot (caller : Caller) : Option Nat :=
  (List.range maxOpenFiles).find? (fun id => (caller.openFile id).isNone)

-----------------------------------------------------------------------------------------
-- The cases of `ExceptionHandler`
-----------------------------------------------------------------------------------------

/-- `SC_Create`: `OpenForWrite` asserts that the host created the file. -/
def create (host : Host) (caller : Caller) (val : Int) : Served :=
  {
    accessed := caller.nameIndices val
    status :=
      match caller.fileName val with
      | none => .error .outOfBounds
      | some name => if host.openForWrite name then .ok 1 else .error .assertion
    after := caller
  }

/-- `SC_Open`. -/
def openAFile (host : Host) (caller : Caller) (val : Int) : Served :=
  let opened : Option (Nat × HostFile) :=
    caller.freeSlot.bind (fun id =>
      (caller.fileName val).bind (fun name => (host.openForReadWrite name).map (id, ·)))
  {
    accessed := caller.nameIndices val
    status :=
      match caller.fileName val, opened with
      | none, _ => .error .outOfBounds
      | some _, none => .ok (-1)
      | some _, some (id, _) => .ok id
    after :=
      match opened with
      | none => caller
      | some (id, file) => caller.setOpenFile id { file, currentOffset := 0 }
  }

/-- `SC_Write`. -/
def write (caller : Caller) (val numChar fileID : Int) : Served :=
  caller.writeFile val numChar fileID

/-- `SC_Read`. -/
def read (caller : Caller) (val numChar fileID : Int) : Served :=
  if val < 0 ∨ numChar < 0 ∨ CInt.wrap (val + numChar) > memorySize then
    caller.reply (.ok (-1))
  else caller.readFile val numChar fileID

end Caller

end Nachos.UserProg.Mp2
