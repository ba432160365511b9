import Nachos.Lib.Bytes

/-! `coff2noff`: the segments of an object file are copied, one section after the other, into a file
with a header that says where they go.
-/

namespace Nachos.Coff2Noff
open Bytes

-----------------------------------------------------------------------------------------
-- Files
-----------------------------------------------------------------------------------------

/-- The segments that a file has bytes for. -/
inductive Kind where
  | text
  | data
  | rdata
  deriving DecidableEq

/-- What the names of sections are compared with. -/
inductive SectionName where
  /-- `.text`, `.data` or `.rdata`. -/
  | loaded (kind : Kind)
  /-- `.bss`. -/
  | bss
  | unknown
  deriving DecidableEq

/-- The members of `scnhdr` that are used. -/
structure Section where
  name : SectionName
  paddr : BitVec 32
  size : BitVec 32
  scnptr : BitVec 32
  deriving DecidableEq

structure Segment where
  virtualAddr : BitVec 32
  inFileAddr : BitVec 32
  size : BitVec 32
  deriving DecidableEq

structure NoffHeader where
  code : Segment
  initData : Segment
  readonlyData : Segment
  uninitData : Segment
  deriving DecidableEq

/-- `NOFFMAGIC`. -/
def noffMagic : BitVec 32 := 0xbadfad#32

/-- `sizeof(NoffHeader)`. -/
def headerSize : Nat := 52

/-- The size of the headers that are read before the sections. -/
def tablesSize (numsections : Nat) : Nat :=
  let filehdr := 20
  let aouthdr := 56
  let scnhdr := 40
  filehdr + aouthdr + numsections * scnhdr

namespace NoffHeader

/-- The segment for sections of a kind. -/
def segment (header : NoffHeader) : Kind → Segment
  | .text => header.code
  | .data => header.initData
  | .rdata => header.readonlyData

def setSegment (header : NoffHeader) (kind : Kind) (segment : Segment) : NoffHeader :=
  match kind with
  | .text => { header with code := segment }
  | .data => { header with initData := segment }
  | .rdata => { header with readonlyData := segment }

/-- The words of the header, in the order of its members. -/
def words (header : NoffHeader) : List (BitVec 32) :=
  let ofSegment (segment : Segment) := [segment.virtualAddr, segment.inFileAddr, segment.size]
  noffMagic
    :: (ofSegment header.code ++ ofSegment header.initData ++ ofSegment header.readonlyData
      ++ ofSegment header.uninitData)

/-- The header in little-endian format. -/
def bytes (header : NoffHeader) : List Byte :=
  header.words.flatMap fun word =>
    [
      ⟨word.extractLsb' 0 8⟩, ⟨word.extractLsb' 8 8⟩, ⟨word.extractLsb' 16 8⟩,
      ⟨word.extractLsb' 24 8⟩
    ]

@[simp]
theorem segment_setSegment (header : NoffHeader) (kind other : Kind) (segment : Segment)
    : (header.setSegment kind segment).segment other
      = if other = kind then segment else header.segment other := by
  cases kind <;> cases other <;> rfl

@[simp]
theorem uninitData_setSegment (header : NoffHeader) (kind : Kind) (segment : Segment)
    : (header.setSegment kind segment).uninitData = header.uninitData := by
  cases kind <;> rfl

theorem length_bytes (header : NoffHeader) : header.bytes.length = headerSize := rfl

end NoffHeader

-----------------------------------------------------------------------------------------
-- Conversion
-----------------------------------------------------------------------------------------

/-- What the host gives the program: the object file, the sizes of memory that it can have, and the
places and sizes that it can write to, all within what an offset of 32 bits reaches. To transfer more
bytes than a count can tell may fail.
-/
structure Host where
  coff : List Byte
  coff_lt : coff.length < 2 ^ 31
  grants : BitVec 32 → Bool
  accepts : Nat → Nat → Bool
  accepts_lt {start count : Nat} (accepted : accepts start count = true)
    : start + count < 2 ^ 31
  readFails : Nat → Bool
  writeFails : Nat → Bool

/-- The bytes that are transferred if `read` or `write` returns `nBytes`, an `int`: none if that is
negative.
-/
def transferred (nBytes : BitVec 32) : Nat := if nBytes.msb then 0 else nBytes.toNat

namespace Host

/-- Whether `read` returns `nBytes`. It does not if the memory was not granted. For a negative number
it does if it fails and returns -1.
-/
def Reads (host : Host) (start : Nat) (nBytes : BitVec 32) : Prop :=
  if nBytes.msb then nBytes = -1#32 ∧ host.readFails start = true
  else host.grants nBytes = true ∧ start + nBytes.toNat ≤ host.coff.length

instance (host : Host) (start : Nat) (nBytes : BitVec 32) : Decidable (host.Reads start nBytes) :=
  inferInstanceAs
    (Decidable
      (if nBytes.msb then nBytes = -1#32 ∧ host.readFails start = true
      else host.grants nBytes = true ∧ start + nBytes.toNat ≤ host.coff.length))

/-- Whether `write` returns `nBytes`. -/
def Writes (host : Host) (start : Nat) (nBytes : BitVec 32) : Prop :=
  if nBytes.msb then nBytes = -1#32 ∧ host.writeFails start = true
  else host.accepts start nBytes.toNat = true

instance (host : Host) (start : Nat) (nBytes : BitVec 32) : Decidable (host.Writes start nBytes) :=
  inferInstanceAs
    (Decidable
      (if nBytes.msb then nBytes = -1#32 ∧ host.writeFails start = true
      else host.accepts start nBytes.toNat = true))

end Host

/-- The messages that the program ends with, after `unlink(noffFileName)`. -/
inductive Exit where
  | fileIsTooShort
  | unableToWriteFile
  | cannotHandleBothBssAndSbss
  | unknownSegmentType
  deriving DecidableEq

/-- The header so far, the offset in the object file, and the bytes written after the place for the
header.
-/
structure Progress where
  noffH : NoffHeader
  inNoffFile : BitVec 32
  position : Nat
  written : List Byte

namespace Progress

/-- The state before the loop. The addresses in the header are not initialized. -/
def initial (uninitialized : NoffHeader) (numsections : Nat) : Progress where
  noffH :=
    {
      code := { uninitialized.code with size := 0#32 }
      initData := { uninitialized.initData with size := 0#32 }
      readonlyData := { uninitialized.readonlyData with size := 0#32 }
      uninitData := { uninitialized.uninitData with size := 0#32 }
    }
  inNoffFile := BitVec.ofNat 32 headerSize
  position := tablesSize numsections
  written := []

/-- `lseek` in the object file. It fails for a negative offset, which is not checked. -/
def seek (progress : Progress) (offset : BitVec 32) : Progress :=
  if offset.msb then progress else { progress with position := offset.toNat }

/-- `Read` into memory that `malloc` returned. -/
def read (host : Host) (progress : Progress) (nBytes : BitVec 32)
    : Except Exit (List Byte × Progress) :=
  if host.Reads progress.position nBytes then
    let buffer := (host.coff.drop progress.position).take (transferred nBytes)
    .ok (buffer, { progress with position := progress.position + transferred nBytes })
  else .error .fileIsTooShort

/-- `Write` at the end of the bytes written. -/
def write (host : Host) (progress : Progress) (buffer : List Byte) (nBytes : BitVec 32)
    : Except Exit Progress :=
  if host.Writes (headerSize + progress.written.length) nBytes then
    .ok { progress with written := progress.written ++ buffer }
  else .error .unableToWriteFile

/-- The cases of the sections with bytes in the file. -/
def load (host : Host) (progress : Progress) (kind : Kind) (scn : Section)
    : Except Exit Progress := do
  let segment : Segment :=
    { virtualAddr := scn.paddr, inFileAddr := progress.inNoffFile, size := scn.size }
  let progress := { progress with noffH := progress.noffH.setSegment kind segment }
  let progress := progress.seek scn.scnptr
  let (buffer, progress) ← progress.read host scn.size
  let progress ← progress.write host buffer scn.size
  return { progress with inNoffFile := progress.inNoffFile + scn.size }

/-- The case of `.bss`. -/
def reserve (progress : Progress) (scn : Section) : Except Exit Progress :=
  let uninitData := progress.noffH.uninitData
  if uninitData.size ≠ 0#32 then
    if scn.paddr = uninitData.virtualAddr + uninitData.size then
      .error .cannotHandleBothBssAndSbss
    else
      .ok
        {
          progress with
          noffH.uninitData.size := uninitData.size + scn.size
        }
  else
    .ok
      {
        progress with
        noffH.uninitData.virtualAddr := scn.paddr
        noffH.uninitData.size := scn.size
      }

/-- One round of the loop over the sections. -/
def round (host : Host) (progress : Progress) (scn : Section) : Except Exit Progress :=
  if scn.size = 0#32 then .ok progress
  else
    match scn.name with
    | .loaded kind => progress.load host kind scn
    | .bss => progress.reserve scn
    | .unknown => .error .unknownSegmentType

end Progress

/-- The output: its header, and the whole file. -/
structure Noff where
  header : NoffHeader
  file : List Byte

/-- The end of `main`, from the loop on: the header goes to the beginning of the file. -/
def convert (host : Host) (uninitialized : NoffHeader) (sections : List Section)
    : Except Exit Noff := do
  let start := Progress.initial uninitialized sections.length
  let progress ← sections.foldlM (Progress.round host) start
  if host.accepts 0 headerSize = true then
    return { header := progress.noffH, file := progress.noffH.bytes ++ progress.written }
  else throw .unableToWriteFile

/-- The status of the program, and the file that it leaves. -/
def main (host : Host) (uninitialized : NoffHeader) (sections : List Section)
    : Nat × Option Noff :=
  match convert host uninitialized sections with
  | .error _ => (1, none)
  | .ok noff => (0, some noff)

end Nachos.Coff2Noff
