import Nachos.UserProg.ObjectFile
import Nachos.UserProg.PageTable

/-! How the third kernel loads a program: all frames first, then code and data byte by byte
through the page table, and the read-only data in one block.
-/

namespace Nachos.UserProg.Mp3

open Bytes Routines

/-- What `Load` works on. -/
structure Loading where
  space : AddrSpace
  memory : Memory

/-- Why `Load` does not return: `MemoryLimitException`, whose handler halts the machine, or a
fault.
-/
inductive Stop where
  | memoryLimitException
  | fault (fault : Fault)
  deriving DecidableEq

abbrev LoadRoutine := Routine Stop Loading

/-- A computation that may fail. -/
def attempt {α : Type} (outcome : Except Fault α) : LoadRoutine α :=
  match outcome with
  | .ok value => pure value
  | .error fault => throw (.fault fault)

/-- `pageBitmap->FindAndSet()`. -/
def findAndSet : LoadRoutine Int := do
  let loading ← Routine.get
  let (freePage, frames) := loading.memory.frames.findAndSet
  Routine.set { loading with memory := { loading.memory with frames } }
  return freePage

/-- Assign to the fields of `pageTable[i]`. -/
def setEntry (i : Nat) (entry : TranslationEntry) : LoadRoutine Unit := do
  let loading ← Routine.get
  let table ← attempt loading.space.pageTable.access
  Routine.assert (i < table.length) (.fault .outOfBounds)
  let pageTable := .entries (table.set i entry)
  Routine.set { loading with space := { loading.space with pageTable } }

/-- One turn of the loop that allocates the pages. -/
def allocatePage (numPages i : Nat) : LoadRoutine Unit := do
  let loading ← Routine.get
  Routine.assert (¬numPages > loading.memory.frames.numClear) .memoryLimitException
  let freePage ← findAndSet
  Routine.assert (freePage ≠ -1) (.fault .assertion)
  setEntry i
    {
      virtualPage := i
      physicalPage := freePage
      valid := true
      readOnly := false
      use := false
      dirty := false
    }

/-- The loop over the given turns. -/
def allocatePages (numPages : Nat) : List Nat → LoadRoutine Unit
  | [] => return ()
  | i :: rest => do
      allocatePage numPages i
      allocatePages numPages rest

/-- `numPages`, from the sum of the sizes as an unsigned number. -/
def tablePages (noffH : NoffHeader) : Nat :=
  ((CInt.unsigned
    (noffH.code.size + noffH.readonlyData.size + noffH.initData.size + noffH.uninitData.size
      + userStackSize)).toNat + (pageSize - 1)) / pageSize

/-- What comes before the segments are copied. The entries of a new table are what is in
memory there.
-/
def allocate (heap : Nat → TranslationEntry) (noffH : NoffHeader) : LoadRoutine Unit := do
  let numPages := tablePages noffH
  let loading ← Routine.get
  let pageTable := .entries ((List.range numPages).map heap)
  Routine.set { loading with space := { pageTable, numPages } }
  allocatePages numPages (List.range numPages)
  Routine.assert (numPages ≤ numPhysPages) (.fault .assertion)

/-- Write bytes to `mainMemory`. -/
def writeMemory (address : Int) (data : List Byte) : LoadRoutine Unit := do
  Routine.assert (data = [] ∨ (0 ≤ address ∧ address + data.length ≤ memorySize))
    (.fault .outOfBounds)
  let loading ← Routine.get
  let mainMemory := blit loading.memory.mainMemory address.toNat (ofList data) data.length
  Routine.set { loading with memory := { loading.memory with mainMemory } }

/-- One turn of the loops that copy code and initialized data. Whatever `Translate` returns is
ignored, so that `physAddr` is used even if it was never set.
-/
def copyByte (file : HostFile) (segment : Segment) (i : Nat) : LoadRoutine Unit := do
  let virtAddr := (CInt.unsigned (segment.virtualAddr + i)).toNat
  let loading ← Routine.get
  match ← attempt (loading.space.translate virtAddr true) with
  | .error _ => throw (.fault .danglingPointer)
  | .ok (physAddr, space) => do
      Routine.set { loading with space }
      let data ← attempt (file.readAt 1 (CInt.wrap (segment.inFileAddr + i)))
      writeMemory physAddr data

def copyBytes (file : HostFile) (segment : Segment) : List Nat → LoadRoutine Unit
  | [] => return ()
  | i :: rest => do
      copyByte file segment i
      copyBytes file segment rest

/-- The loop over a segment; its counter is unsigned. -/
def copySegment (file : HostFile) (segment : Segment) : LoadRoutine Unit :=
  copyBytes file segment (List.range (CInt.unsigned segment.size).toNat)

/-- The read-only data goes to its virtual address in `mainMemory`. -/
def readReadonlyData (file : HostFile) (segment : Segment) : LoadRoutine Unit := do
  if segment.size > 0 then
    let data ← attempt (file.readAt segment.size segment.inFileAddr)
    writeMemory segment.virtualAddr data

/-- `AddrSpace::Load`, given what opening the file returned. -/
def load (stack : Buffer) (heap : Nat → TranslationEntry) (executable : Option HostFile)
    : LoadRoutine Bool := do
  match executable with
  | none => return false
  | some file =>
      let noffH := NoffHeader.read stack file
      Routine.assert (noffH.noffMagic = noffMagic) (.fault .assertion)
      allocate heap noffH
      copySegment file noffH.code
      copySegment file noffH.initData
      readReadonlyData file noffH.readonlyData
      return true

end Nachos.UserProg.Mp3
