import Nachos.UserProg.ObjectFile
import Nachos.UserProg.PageTable

/-! How the second kernel loads a program: segment after segment, each from the next page on.
-/

namespace Nachos.UserProg.Mp2

open Bytes Routines

/-- What `Load` works on. -/
structure Loading where
  space : AddrSpace
  memory : Memory

abbrev LoadRoutine := Routine Fault Loading

/-- `available_frame.FindAndSet()`. -/
def findAndSet : LoadRoutine Int := do
  let loading ← Routine.get
  let (pageid, frames) := loading.memory.frames.findAndSet
  Routine.set { loading with memory := { loading.memory with frames } }
  return pageid

/-- Change `pageTable[vpn]`. -/
def modifyEntry (vpn : Nat) (change : TranslationEntry → TranslationEntry)
    : LoadRoutine Unit := do
  let loading ← Routine.get
  let table ← Routine.lift loading.space.pageTable.access
  match table[vpn]? with
  | none => throw .outOfBounds
  | some entry =>
      let pageTable := .entries (table.set vpn (change entry))
      Routine.set { loading with space := { loading.space with pageTable } }

/-- Write bytes to `mainMemory`. -/
def writeMemory (address : Nat) (source : Buffer) (count : Nat) : LoadRoutine Unit := do
  Routine.assert (address + count ≤ memorySize) .outOfBounds
  let loading ← Routine.get
  let mainMemory := blit loading.memory.mainMemory address source count
  Routine.set { loading with memory := { loading.memory with mainMemory } }

def bzero (address count : Nat) : LoadRoutine Unit := writeMemory address (fun _ => 0) count

/-- `ExceptionHandler(MemoryLimitException)`: the switch has no case for the exception, so its
default ends in `ASSERTNOTREACHED`.
-/
def exceptionHandler : LoadRoutine Unit := throw .assertion

/-- The number of pages of a segment. -/
def Segment.numPages (segment : Segment) : Nat :=
  (CInt.divRoundUp segment.size pageSize).toNat

/-- One turn of the loop of `LoadSegment`. -/
def loadPage (file : HostFile) (segment : Segment) (startVPN : Nat) (readOnly : Bool) (i : Nat)
    : LoadRoutine Bool := do
  let pageid ← findAndSet
  if pageid = -1 then
    exceptionHandler
    return false
  modifyEntry (startVPN + i)
    (fun entry => { entry with physicalPage := pageid, valid := true, readOnly })
  bzero (pageid.toNat * pageSize) pageSize
  let remainingSize := segment.size - i * pageSize
  let readSize := if remainingSize < pageSize then remainingSize else pageSize
  let data ← Routine.lift
    (file.readAt readSize (CInt.wrap (segment.inFileAddr + i * pageSize)))
  writeMemory (pageid.toNat * pageSize) (Bytes.ofList data) data.length
  return true

/-- The loop of `LoadSegment` over the given turns. -/
def loadPages (file : HostFile) (segment : Segment) (startVPN : Nat) (readOnly : Bool)
    : List Nat → LoadRoutine Bool
  | [] => return true
  | i :: rest => do
      if ← loadPage file segment startVPN readOnly i then
        loadPages file segment startVPN readOnly rest
      else return false

def loadSegment (file : HostFile) (segment : Segment) (startVPN : Nat) (readOnly : Bool)
    : LoadRoutine Bool :=
  loadPages file segment startVPN readOnly (List.range (Segment.numPages segment))

/-- One turn of the loop of `LoadSegments` that allocates the stack. -/
def stackPage (currVPN i : Nat) : LoadRoutine Bool := do
  let vpn := currVPN + i
  let pageid ← findAndSet
  if pageid = -1 then
    exceptionHandler
    return false
  modifyEntry vpn (fun _ =>
    {
      virtualPage := vpn
      physicalPage := pageid
      valid := true
      readOnly := false
      use := false
      dirty := false
    })
  bzero (pageid.toNat * pageSize) pageSize
  return true

def stackPages (currVPN : Nat) : List Nat → LoadRoutine Bool
  | [] => return true
  | i :: rest => do
      if ← stackPage currVPN i then stackPages currVPN rest else return false

/-- `LoadSegments`: what is left of the segments, then the stack. Segments that are empty are
skipped.
-/
def loadFrom (file : HostFile) (currVPN : Nat) : List (Segment × Bool) → LoadRoutine Bool
  | [] => stackPages currVPN (List.range (userStackSize / pageSize))
  | (segment, readOnly) :: rest => do
      if segment.size > 0 then
        if ← loadSegment file segment currVPN readOnly then
          loadFrom file (currVPN + Segment.numPages segment) rest
        else return false
      else loadFrom file currVPN rest

def loadSegments (file : HostFile) (noffH : NoffHeader) : LoadRoutine Bool :=
  loadFrom file 0 noffH.segments

/-- `size`, as an unsigned number. -/
def addressSpaceSize (noffH : NoffHeader) : Nat :=
  (CInt.unsigned
    (noffH.code.size + noffH.readonlyData.size + noffH.initData.size + noffH.uninitData.size
      + userStackSize)).toNat

/-- The number of pages that `Load` makes the table for. -/
def tablePages (noffH : NoffHeader) : Nat :=
  (addressSpaceSize noffH + (pageSize - 1)) / pageSize

/-- The table after the loop that initializes it. -/
def newTable (numPages : Nat) : List TranslationEntry :=
  (List.range numPages).map (fun (i : Nat) =>
    {
      virtualPage := (i : Int)
      physicalPage := -1
      valid := false
      readOnly := false
      use := false
      dirty := false
    })

/-- `AddrSpace::Load`, given what opening the file returned. -/
def load (stack : Buffer) (executable : Option HostFile) : LoadRoutine Bool := do
  match executable with
  | none => return false
  | some file =>
      let noffH := NoffHeader.read stack file
      Routine.assert (noffH.noffMagic = noffMagic) .assertion
      let numPages := tablePages noffH
      let loading ← Routine.get
      Routine.set { loading with space := { pageTable := .entries (newTable numPages), numPages } }
      if ← loadSegments file noffH then return true
      else
        let failed ← Routine.get
        let pageTable ← Routine.lift failed.space.pageTable.delete
        Routine.set { failed with space := { failed.space with pageTable } }
        return false

end Nachos.UserProg.Mp2
