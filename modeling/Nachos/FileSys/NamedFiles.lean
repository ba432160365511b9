import Nachos.FileSys.Allocation
import Nachos.FileSys.Transfer
import Nachos.FileSys.World

/-! The purpose of the file system: byte arrays of fixed length by name, as long as there
are free directory slots and sectors, with open files that name them.
-/

namespace Nachos.FileSys

open Bytes

/-- An open file, as far as a program can tell. -/
structure OpenName where
  key : List Byte
  position : Int
  status : HandleStatus
  deleted : Bool
  deriving DecidableEq

namespace OpenName

/-- An open file after some file was created. -/
def overtake (name : OpenName) : OpenName :=
  if name.status = .removed then { name with status := .overtaken } else name

/-- An open file after the file with the given name was removed. -/
def expire (key : List Byte) (name : OpenName) : OpenName :=
  if name.status = .live ∧ name.key = key then { name with status := .removed } else name

end OpenName

structure NamedFiles where
  contents : List Byte → Option (List Byte)
  /-- Names that can still be added. -/
  slots : Nat
  /-- Sectors that are still free. -/
  sectors : Nat
  handles : List OpenName

namespace NamedFiles

/-- The bytes of a file after `count` bytes of `source` were written at `position`. -/
def overwrite (bytes : List Byte) (source : Buffer) (position count : Int) : List Byte :=
  bytes.mapIdx (fun offset byte =>
    if position ≤ offset ∧ offset < position + count then source (offset - position.toNat)
    else byte)

/-- What a buffer holds after `count` bytes at `position` were read into it. -/
def copied (bytes : List Byte) (into : Buffer) (position count : Int) : Buffer :=
  blit into 0 (fun offset => bytes.getD (position.toNat + offset) 0) count.toNat

/-- When a file of `size` bytes can be created. -/
def Room (files : NamedFiles) (name : Buffer) (size : Int) : Prop :=
  files.contents (nameKey name) = none
  ∧ 0 < files.slots
  ∧ 1 + FileHeader.sectorsNeeded size ≤ files.sectors

/-- The bytes behind an open file whose file is still there. -/
structure Reads (files : NamedFiles) (handle : Nat) (name : OpenName) (bytes : List Byte)
    : Prop where
  found : files.handles[handle]? = some name
  kept : name.deleted = false
  live : name.status = .live
  contents : files.contents name.key = some bytes

def setPosition (files : NamedFiles) (handle : Nat) (position : Int) : List OpenName :=
  files.handles.modify handle (fun name => { name with position })

/-- Replace the bytes of a file. -/
def write (files : NamedFiles) (key bytes : List Byte) : List Byte → Option (List Byte) :=
  Function.update files.contents key (some bytes)

/-- The operations with their answers. A new file has the right number of bytes, and which
ones is not said.
-/
inductive Step : NamedFiles → Operation × Answer → NamedFiles → Prop where
  | created {files : NamedFiles} {address : FileSystem.Addresses} {name : Buffer} {size : Int}
      {bytes : List Byte} (room : files.Room name size) (length : bytes.length = size.toNat)
      : Step files (.create address name size, .success true)
          {
            contents := files.write (nameKey name) bytes
            slots := files.slots - 1
            sectors := files.sectors - (1 + FileHeader.sectorsNeeded size).toNat
            handles := files.handles.map OpenName.overtake
          }
  | createFailed {files : NamedFiles} {address : FileSystem.Addresses} {name : Buffer}
      {size : Int} (noRoom : ¬files.Room name size)
      : Step files (.create address name size, .success false) files
  | removed {files : NamedFiles} {name : Buffer} {bytes : List Byte}
      (there : files.contents (nameKey name) = some bytes)
      : Step files (.remove name, .success true)
          {
            contents := Function.update files.contents (nameKey name) none
            slots := files.slots + 1
            sectors := files.sectors + (1 + (bytes.length + 127) / 128)
            handles := files.handles.map (OpenName.expire (nameKey name))
          }
  | removeFailed {files : NamedFiles} {name : Buffer}
      (absent : files.contents (nameKey name) = none)
      : Step files (.remove name, .success false) files
  | opened {files : NamedFiles} {name : Buffer} {bytes : List Byte}
      (there : files.contents (nameKey name) = some bytes)
      : Step files (.openAsOpenFile name, .opened true)
          {
            files with
            handles :=
              files.handles
                ++ [{ key := nameKey name, position := 0, status := .live, deleted := false }]
          }
  | openFailed {files : NamedFiles} {name : Buffer}
      (absent : files.contents (nameKey name) = none)
      : Step files (.openAsOpenFile name, .opened false) files
  | readAt {files : NamedFiles} {handle : Nat} {name : OpenName} {bytes : List Byte}
      {into : Buffer} {numBytes position : Int} (reads : files.Reads handle name bytes)
      : Step files
          (.readAt handle into numBytes position,
            .bytesRead (transferCount bytes.length numBytes position)
              (copied bytes into position (transferCount bytes.length numBytes position)))
          files
  | writeAt {files : NamedFiles} {handle : Nat} {name : OpenName} {bytes : List Byte}
      {source : Buffer} {numBytes position : Int} (reads : files.Reads handle name bytes)
      : Step files
          (.writeAt handle source numBytes position,
            .bytesWritten (transferCount bytes.length numBytes position))
          {
            files with
            contents :=
              files.write name.key
                (overwrite bytes source position (transferCount bytes.length numBytes position))
          }
  | read {files : NamedFiles} {handle : Nat} {name : OpenName} {bytes : List Byte}
      {into : Buffer} {numBytes : Int} (reads : files.Reads handle name bytes)
      : Step files
          (.read handle into numBytes,
            .bytesRead (transferCount bytes.length numBytes name.position)
              (copied bytes into name.position
                (transferCount bytes.length numBytes name.position)))
          {
            files with
            handles :=
              files.setPosition handle
                (name.position + transferCount bytes.length numBytes name.position)
          }
  | write {files : NamedFiles} {handle : Nat} {name : OpenName} {bytes : List Byte}
      {source : Buffer} {numBytes : Int} (reads : files.Reads handle name bytes)
      : Step files
          (.write handle source numBytes,
            .bytesWritten (transferCount bytes.length numBytes name.position))
          {
            files with
            contents :=
              files.write name.key
                (overwrite bytes source name.position
                  (transferCount bytes.length numBytes name.position))
            handles :=
              files.setPosition handle
                (name.position + transferCount bytes.length numBytes name.position)
          }
  | seek {files : NamedFiles} {handle : Nat} {name : OpenName} {position : Int}
      (found : files.handles[handle]? = some name) (kept : name.deleted = false)
      : Step files (.seek handle position, .done)
          { files with handles := files.setPosition handle position }
  | delete {files : NamedFiles} {handle : Nat} {name : OpenName}
      (found : files.handles[handle]? = some name) (kept : name.deleted = false)
      : Step files (.delete handle, .done)
          {
            files with
            handles := files.handles.modify handle (fun name => { name with deleted := true })
          }

/-- The state after formatting: no files. -/
def empty : NamedFiles :=
  { contents := fun _ => none, slots := numDirEntries, sectors := 523754, handles := [] }

@[simp]
theorem length_overwrite (bytes : List Byte) (source : Buffer) (position count : Int)
    : (overwrite bytes source position count).length = bytes.length := by
  simp [overwrite]

end NamedFiles

end Nachos.FileSys
