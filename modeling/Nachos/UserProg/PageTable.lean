import Nachos.KernelLib.Bitmap
import Nachos.Lib.Bytes
import Nachos.Lib.Routine

/-! Page tables, the physical memory that they map into, and the address translations of the
machine and of the kernel.
-/

namespace Nachos.UserProg

open Bytes Routines

/-- `PageSize`. -/
def pageSize : Nat := 128

/-- `NumPhysPages`. -/
def numPhysPages : Nat := 128

/-- `MemorySize`. -/
def memorySize : Nat := numPhysPages * pageSize

theorem pageSize_eq : pageSize = 128 := rfl

theorem memorySize_eq : memorySize = numPhysPages * pageSize := rfl

/-- `UserStackSize`. -/
def userStackSize : Nat := 1024

structure TranslationEntry where
  virtualPage : Int
  physicalPage : Int
  valid : Bool
  readOnly : Bool
  use : Bool
  dirty : Bool
  deriving DecidableEq

/-- What the pointer to a page table points to. -/
inductive PageTable where
  | null
  | entries (table : List TranslationEntry)
  | deleted
  deriving DecidableEq

structure AddrSpace where
  pageTable : PageTable
  numPages : Nat
  deriving DecidableEq

/-- The constructor. -/
def AddrSpace.new : AddrSpace := { pageTable := .null, numPages := 0 }

/-- Physical memory, and the bitmap of the frames in use. -/
structure Memory where
  frames : Bitmap numPhysPages
  mainMemory : Buffer

inductive ExceptionType where
  | pageFaultException
  | readOnlyException
  | busErrorException
  | addressErrorException
  deriving DecidableEq

namespace PageTable

/-- The entries that can be used. -/
def table : PageTable → List TranslationEntry
  | .entries table => table
  | _ => []

/-- Dereference the pointer. -/
def access : PageTable → Except Fault (List TranslationEntry)
  | .null => .error .nullPointer
  | .entries table => .ok table
  | .deleted => .error .danglingPointer

theorem access_entries (table : List TranslationEntry)
    : (entries table).access = .ok table :=
  rfl

/-- `delete[] pageTable`. -/
def delete : PageTable → Except Fault PageTable
  | .null => .ok .null
  | .entries _ => .ok .deleted
  | .deleted => .error .doubleDelete

end PageTable

/-- Set the bits that record an access to a page. -/
def TranslationEntry.touch (writing : Bool) (entry : TranslationEntry) : TranslationEntry :=
  { entry with use := true, dirty := entry.dirty || writing }

/-- `Machine::Translate` with a page table: the physical address and the table with the use and
dirty bits set, or the exception.
-/
def translate (table : List TranslationEntry) (virtAddr : Int) (size : Nat) (writing : Bool)
    : Except Fault (Except ExceptionType (Nat × List TranslationEntry)) :=
  let address := (CInt.unsigned virtAddr).toNat
  if (size = 4 ∧ address % 4 ≠ 0) ∨ (size = 2 ∧ address % 2 ≠ 0) then
    .ok (.error .addressErrorException)
  else
    let vpn := address / pageSize
    let offset := address % pageSize
    match table[vpn]? with
    | none => .ok (.error .addressErrorException)
    | some entry =>
        if entry.valid = false then .ok (.error .pageFaultException)
        else if entry.readOnly = true ∧ writing = true then .ok (.error .readOnlyException)
        else
          let pageFrame := CInt.unsigned entry.physicalPage
          if pageFrame ≥ numPhysPages then .ok (.error .busErrorException)
          else
            let physAddr := pageFrame.toNat * pageSize + offset
            if physAddr + size ≤ memorySize then
              .ok (.ok (physAddr, table.set vpn (entry.touch writing)))
            else .error .assertion

namespace AddrSpace

/-- `AddrSpace::Translate`. -/
def translate (space : AddrSpace) (vaddr : Nat) (isReadWrite : Bool)
    : Except Fault (Except ExceptionType (Nat × AddrSpace)) :=
  let vpn := vaddr / pageSize
  let offset := vaddr % pageSize
  if vpn ≥ space.numPages then .ok (.error .addressErrorException)
  else
    match space.pageTable.access with
    | .error fault => .error fault
    | .ok table =>
        match table[vpn]? with
        | none => .error .outOfBounds
        | some entry =>
            if isReadWrite = true ∧ entry.readOnly = true then .ok (.error .readOnlyException)
            else if entry.physicalPage ≥ numPhysPages then .ok (.error .busErrorException)
            else
              let paddr := (CInt.unsigned (entry.physicalPage * pageSize + offset)).toNat
              if paddr < memorySize then
                let touched := table.set vpn (entry.touch isReadWrite)
                .ok (.ok (paddr, { space with pageTable := .entries touched }))
              else .error .assertion

/-- The frames of the valid entries of a table. -/
def validFrames (table : List TranslationEntry) : List Int :=
  (table.filter (fun entry => entry.valid)).map TranslationEntry.physicalPage

/-- The bits that record an access do not matter, by induction on the table. -/
theorem validFrames_touch {table : List TranslationEntry} {vpn : Nat}
    {entry : TranslationEntry} (found : table[vpn]? = some entry) (writing : Bool)
    : validFrames (table.set vpn (entry.touch writing)) = validFrames table := by
  induction table generalizing vpn with
  | nil => rfl
  | cons first rest ih =>
      cases vpn with
      | zero =>
          obtain rfl : first = entry := Option.some.inj found
          have same : (first.touch writing).valid = first.valid := rfl
          simp only [validFrames, List.set_cons_zero, List.filter_cons, same]
          split <;> rfl
      | succ vpn =>
          have others := ih found
          simp only [validFrames, List.set_cons_succ, List.filter_cons] at others ⊢
          split
          · rw [List.map_cons, List.map_cons, others]
          · exact others

/-- The frames that the address space maps. -/
def frames (space : AddrSpace) : List Int := validFrames space.pageTable.table

/-- Clear the bits of frames, one after the other. -/
def clearFrames (frames : Bitmap numPhysPages) : List Int → Except Fault (Bitmap numPhysPages)
  | [] => .ok frames
  | frame :: rest =>
      match frames.clear frame with
      | .ok cleared => clearFrames cleared rest
      | .error fault => .error fault

/-- The destructor. -/
def destroy (space : AddrSpace) (frames : Bitmap numPhysPages)
    : Except Fault (Bitmap numPhysPages) := do
  let mut cleared := frames
  if space.numPages ≠ 0 then
    let table ← space.pageTable.access
    if table.length < space.numPages then throw .outOfBounds
    cleared ← clearFrames frames (validFrames (table.take space.numPages))
  let _ ← space.pageTable.delete
  return cleared

/-- The physical address of a byte that the page table maps. -/
def physicalAddress (space : AddrSpace) (address : Nat) : Option Nat :=
  match space.pageTable.table[address / pageSize]? with
  | none => none
  | some entry =>
      if entry.valid = true ∧ 0 ≤ entry.physicalPage ∧ entry.physicalPage < numPhysPages then
        some (entry.physicalPage.toNat * pageSize + address % pageSize)
      else none

/-- An address that is mapped lies in the memory. -/
theorem physicalAddress_lt {space : AddrSpace} {address physical : Nat}
    (maps : space.physicalAddress address = some physical)
    : physical < memorySize := by
  rw [physicalAddress] at maps
  split at maps
  · cases maps
  · split at maps
    · rename_i entry _ usable
      obtain rfl := Option.some.inj maps
      have offset := Nat.mod_lt address (show 0 < pageSize by decide)
      have frame : entry.physicalPage.toNat < numPhysPages := by omega
      have fits : (entry.physicalPage.toNat + 1) * pageSize ≤ numPhysPages * pageSize :=
        Nat.mul_le_mul_right pageSize frame
      rw [Nat.succ_mul] at fits
      rw [memorySize_eq]
      omega
    · cases maps

/-- An address that is mapped lies in a frame of the space. -/
theorem frame_of_physicalAddress {space : AddrSpace} {address physical : Nat}
    (maps : space.physicalAddress address = some physical)
    : ((physical / pageSize : Nat) : Int) ∈ space.frames := by
  rw [physicalAddress] at maps
  split at maps
  · cases maps
  · rename_i entry found
    split at maps
    · rename_i usable
      obtain rfl := Option.some.inj maps
      have frame : (entry.physicalPage.toNat * pageSize + address % pageSize) / pageSize
          = entry.physicalPage.toNat := by
        rw [Nat.mul_comm, Nat.mul_add_div (by decide), Nat.mod_div_self, Nat.add_zero]
      rw [frame, Int.toNat_of_nonneg usable.2.1]
      exact List.mem_map.mpr
        ⟨entry, List.mem_filter.mpr ⟨List.mem_of_getElem? found, usable.1⟩, rfl⟩
    · cases maps

/-- The byte that a program reads at a virtual address. -/
def byteAt (space : AddrSpace) (memory : Memory) (address : Nat) : Option Byte :=
  (space.physicalAddress address).map memory.mainMemory

end AddrSpace

end Nachos.UserProg
