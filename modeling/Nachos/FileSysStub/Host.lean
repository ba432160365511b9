import Nachos.Fault
import Nachos.Lib.Bytes

/-! Regular files of the host behind its system calls, as the wrappers around them see it: a
call that fails stops a wrapper that asserts success.
-/

namespace Nachos.FileSysStub
open Bytes

/-- A regular file of the host. -/
abbrev FileId := Nat

/-- The largest offset in a file: `off_t` has 32 bits. -/
def offsetMaximum : Nat := 2147483647

/-- An open file. -/
structure Description where
  file : FileId
  position : Nat

/-- Descriptors taken and given back. -/
inductive HostCall where
  | opened (fd : Nat)
  | closed (fd : Nat)
  deriving DecidableEq

/-- Files, the names under which they can be opened for reading and writing, and the open
files by descriptor, as many as a process may have. The calls are kept for reference only.
-/
structure Host where
  names : List Byte → Option FileId
  contents : FileId → List Byte
  descriptors : List (Option Description)
  calls : List HostCall

/-- The bytes of a file once `data` was written at a position: a gap reads as zeros. -/
def spliced (file : List Byte) (position : Nat) (data : List Byte) : List Byte :=
  file.take position ++ List.replicate (position - file.length) 0 ++ data
    ++ file.drop (position + data.length)

/-- The bytes of a file that a read at a position delivers. -/
def delivered (file : List Byte) (position nBytes : Nat) : List Byte :=
  (file.drop position).take (min nBytes (offsetMaximum - position))

namespace Host

variable (host : Host)

def description (fd : Nat) : Option Description := host.descriptors[fd]?.join

/-- What `open` gives: the lowest free descriptor, for the file of that name. -/
def answer (name : List Byte) : Option (Nat × FileId) :=
  match host.descriptors.findIdx? Option.isNone, host.names name with
  | some fd, some file => some (fd, file)
  | _, _ => none

def setDescription (fd : Nat) (description : Option Description) : Host :=
  { host with descriptors := host.descriptors.set fd description }

/-- `OpenForReadWrite` with `crashOnError` false; nothing stands for -1. -/
def openForReadWrite (name : List Byte) : Option Nat × Host :=
  match host.answer name with
  | some (fd, file) =>
      (some fd,
        {
          host.setDescription fd (some { file, position := 0 }) with
          calls := host.calls ++ [.opened fd]
        })
  | none => (none, host)

/-- `Lseek` from the start of the file. -/
def lseek (fd : Nat) (offset : Int) : Except Fault Host :=
  match host.description fd with
  | some description =>
      if 0 ≤ offset then
        .ok (host.setDescription fd (some { description with position := offset.toNat }))
      else .error .assertion
  | none => .error .assertion

/-- `ReadPartial`: what is returned, what the buffer gets, and the host after it. -/
def readPartial (fd nBytes : Nat) : Int × List Byte × Host :=
  match host.description fd with
  | some description =>
      let data := delivered (host.contents description.file) description.position nBytes
      (data.length, data,
        host.setDescription fd
          (some { description with position := description.position + data.length }))
  | none => (-1, [], host)

/-- `WriteFile`, which asserts that everything was written. -/
def writeFile (fd : Nat) (data : List Byte) : Except Fault Host :=
  match host.description fd with
  | some description =>
      if description.position + data.length ≤ offsetMaximum then
        .ok {
          host.setDescription fd
            (some { description with position := description.position + data.length }) with
          contents := Function.update host.contents description.file
            (spliced (host.contents description.file) description.position data)
        }
      else .error .assertion
  | none => .error .assertion

def close (fd : Nat) : Except Fault Host :=
  match host.description fd with
  | some _ => .ok { host.setDescription fd none with calls := host.calls ++ [.closed fd] }
  | none => .error .assertion

-----------------------------------------------------------------------------------------
-- Descriptors
-----------------------------------------------------------------------------------------

variable {host} {fd other : Nat} {description : Option Description}

theorem description_set_of_ne (apart : other ≠ fd)
    : (host.setDescription fd description).description other = host.description other := by
  rw [Host.description, Host.description, setDescription,
    List.getElem?_set_ne (Ne.symm apart)]

/-- What was set for an open descriptor is found there. -/
theorem description_set {before : Description} (there : host.description fd = some before)
    : (host.setDescription fd description).description fd = description := by
  have inside : fd < host.descriptors.length := by
    by_contra outside
    rw [Host.description, List.getElem?_eq_none (not_lt.mp outside)] at there
    exact nomatch there
  rw [Host.description, setDescription, List.getElem?_set_self inside]
  rfl

/-- The descriptor that `open` gives was free, and there is room for it. -/
theorem of_answer {name : List Byte} {file : FileId} (given : host.answer name = some (fd, file))
    : host.description fd = none
      ∧ (host.setDescription fd description).description fd = description := by
  unfold answer at given
  split at given
  · rename_i first _ found _
    obtain ⟨rfl, rfl⟩ := Prod.mk.inj (Option.some.inj given)
    obtain ⟨inside, free, _⟩ := List.findIdx?_eq_some_iff_getElem.mp found
    rw [Option.isNone_iff_eq_none] at free
    refine ⟨?_, ?_⟩
    · rw [Host.description, List.getElem?_eq_getElem inside, free]
      rfl
    · rw [Host.description, setDescription, List.getElem?_set_self inside]
      rfl
  · exact nomatch given

end Host

end Nachos.FileSysStub
