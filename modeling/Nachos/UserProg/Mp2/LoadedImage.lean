import Mathlib.Data.List.ReduceOption
import Nachos.UserProg.Mp2.LoadOutcome

/-! The memory that `Load` leaves, as the program sees it. Its pages stand one after the other
from address zero on, each segment from the next page boundary, whatever addresses the header
gives.
-/

namespace Nachos.UserProg.Mp2

open Bytes Routines

variable {state after : Loading} {file : HostFile} {noffH : NoffHeader} {stack : Buffer}

/-- The byte at a virtual address, of pages that stand one after the other. -/
def laidOut (pages : List Page) (address : Nat) : Option Byte :=
  pages[address / pageSize]?.map (fun page => page.content (address % pageSize))

/-- A view of virtual memory has what the header describes: the bytes of three segments from
the file, zeros for the fourth, and a zeroed stack at the end.
-/
structure Shows (file : HostFile) (noffH : NoffHeader) (numPages : Nat)
    (view : Nat → Option Byte)
    : Prop where
  loaded
    : ∀ segment ∈ [noffH.code, noffH.initData, noffH.readonlyData],
      ∀ i : Nat, (i : Int) < segment.size
        → view (segment.virtualAddr + i).toNat
          = some (file.getD (segment.inFileAddr + i).toNat 0)
  zeroed
    : ∀ i : Nat, (i : Int) < noffH.uninitData.size
      → view (noffH.uninitData.virtualAddr + i).toNat = some 0
  stack
    : ∀ i < userStackSize, view (numPages * pageSize - userStackSize + i) = some 0

/-- `Load` returns TRUE and leaves the memory that the header describes, no frame in it twice. -/
def LoadsImage (stack : Buffer) (file : HostFile) (state : Loading) : Prop :=
  ∃ after,
    (load stack (some file)).run state = (.ok true, after)
    ∧ Shows file (NoffHeader.read stack file) after.space.numPages
        (after.space.byteAt after.memory)
    ∧ after.space.frames.Nodup

-----------------------------------------------------------------------------------------
-- Pages through the table
-----------------------------------------------------------------------------------------

/-- The frame of an entry that can be used. -/
def frameOf (entry : TranslationEntry) : Option Int :=
  if entry.valid = true then some entry.physicalPage else none

/-- The frames of a table are those of its valid entries, by induction on it. -/
theorem validFrames_eq (table : List TranslationEntry)
    : AddrSpace.validFrames table = (table.map frameOf).reduceOption := by
  induction table with
  | nil => rfl
  | cons entry rest ih =>
      rw [List.map_cons, AddrSpace.validFrames, List.filter_cons, frameOf]
      split
      · rw [List.reduceOption_cons_of_some, ← ih]
        rfl
      · rw [List.reduceOption_cons_of_none, ← ih]
        rfl

/-- In a table that was empty the valid entries are those of the pages. -/
theorem frames_of_placed {before : Loading} {pages : List Page} {taken : List Int}
    (placed : Placed before after 0 pages taken)
    (empty : ∀ entry ∈ before.table, entry.valid = false)
    : after.space.frames = taken := by
  have keys : after.table.map frameOf
      = taken.map some ++ List.replicate (after.table.length - taken.length) none := by
    refine List.ext_getElem? (fun vpn => ?_)
    by_cases small : vpn < taken.length
    · obtain ⟨entry, found, valid, frame⟩ := placed.mapped vpn small
      rw [Nat.zero_add] at found
      rw [List.getElem?_append_left (by rwa [List.length_map]), List.getElem?_map, found,
        List.getElem?_map, List.getElem?_eq_getElem small, Option.map_some, Option.map_some,
        frameOf, if_pos valid, frame]
    · have same := placed.others vpn (.inr (by rw [← placed.count]; omega))
      rw [List.getElem?_append_right (by rw [List.length_map]; omega), List.length_map,
        List.getElem?_map, List.getElem?_replicate]
      by_cases within : vpn < after.table.length
      · have invalid : after.table[vpn].valid = false := by
          refine empty _ (@List.mem_of_getElem? _ _ vpn _ ?_)
          rw [← same, List.getElem?_eq_getElem within]
        rw [if_pos (by omega), List.getElem?_eq_getElem within, Option.map_some, frameOf, invalid,
          if_neg Bool.false_ne_true]
      · rw [if_neg (by omega), List.getElem?_eq_none (not_lt.mp within), Option.map_none]
  rw [AddrSpace.frames, validFrames_eq]
  change (after.table.map frameOf).reduceOption = taken
  rw [keys, List.reduceOption_append, List.reduceOption_replicate_none, List.append_nil,
    List.reduceOption, List.filterMap_map]
  exact List.filterMap_some

theorem opened_invalid (noffH : NoffHeader) (memory : Memory)
    : ∀ entry ∈ (opened noffH memory).table, entry.valid = false := by
  intro entry member
  rw [opened_table] at member
  obtain ⟨i, _, rfl⟩ := List.mem_map.mp member
  rfl

/-- A program reads its pages one after the other. -/
theorem byteAt_of_placed {memory : Memory} {pages : List Page} {taken : List Int}
    (placed : Placed (opened noffH memory) after 0 pages taken) (address : Nat)
    : after.space.byteAt after.memory address = laidOut pages address := by
  have whole (entry : TranslationEntry) (found : after.table[address / pageSize]? = some entry)
      : after.space.physicalAddress address
        = if entry.valid = true ∧ 0 ≤ entry.physicalPage ∧ entry.physicalPage < numPhysPages then
            some (entry.physicalPage.toNat * pageSize + address % pageSize)
          else none := by
    rw [Loading.table] at found
    simp only [AddrSpace.physicalAddress, found]
  rw [AddrSpace.byteAt, laidOut]
  by_cases small : address / pageSize < pages.length
  · have within : address / pageSize < taken.length := placed.count ▸ small
    obtain ⟨entry, found, valid, same⟩ := placed.mapped _ within
    rw [Nat.zero_add] at found
    have bounds := placed.takes.inside _ (List.getElem_mem within)
    obtain ⟨frame, frameEq⟩ := Int.eq_ofNat_of_zero_le bounds.1
    have stored : taken[address / pageSize]? = some (frame : Int) := by
      rw [List.getElem?_eq_getElem within, frameEq]
    rw [whole entry found, same, if_pos ⟨valid, bounds⟩, List.getElem?_eq_getElem small,
      Option.map_some, Option.map_some, frameEq, Int.toNat_natCast,
      placed.content _ small frame stored _ (Nat.mod_lt _ (by decide))]
  · have same := placed.others (address / pageSize) (.inr (by omega))
    rw [List.getElem?_eq_none (not_lt.mp small), Option.map_none, Option.map_eq_none_iff]
    cases found : after.table[address / pageSize]? with
    | none =>
        rw [Loading.table] at found
        simp only [AddrSpace.physicalAddress, found]
    | some entry =>
        have invalid := opened_invalid _ _ entry (List.mem_of_getElem? (same.symm.trans found))
        rw [whole entry found, invalid]
        simp

-----------------------------------------------------------------------------------------
-- The image that the header describes
-----------------------------------------------------------------------------------------

/-- There is always the stack. -/
theorem image_ne_nil : image file noffH.segments ≠ [] := by
  have stackPages : userStackSize / pageSize = 8 := rfl
  refine List.ne_nil_of_length_pos ?_
  rw [image_length, pageCount, stackPages]
  omega

/-- The program then reads its pages one after the other. -/
theorem laidOut_of_loadsImage (magic : (NoffHeader.read stack file).noffMagic = noffMagic)
    (loads : LoadsImage stack file state)
    : stopsAt (tablePages (NoffHeader.read stack file)) state.memory.frames.numClear 0
          (image file (NoffHeader.read stack file).segments) = none
      ∧ Shows file (NoffHeader.read stack file) (tablePages (NoffHeader.read stack file))
          (laidOut (image file (NoffHeader.read stack file).segments)) := by
  obtain ⟨final, ranFinal, shows, _⟩ := loads
  cases stop : stopsAt (tablePages (NoffHeader.read stack file)) state.memory.frames.numClear 0
      (image file (NoffHeader.read stack file).segments) with
  | some fault =>
      have stopped := load_stops magic stop
      rw [ranFinal] at stopped
      cases stopped
  | none =>
      obtain ⟨after, taken, ran, placed⟩ := load_returns magic stop
      rw [ran] at ranFinal
      obtain rfl : after = final := congrArg Prod.snd ranFinal
      rw [funext (byteAt_of_placed placed), placed.numPages, opened_numPages] at shows
      exact ⟨rfl, shows⟩

/-- With enough free frames `Load` leaves the memory that the header describes, exactly when
its pages fit in the table, are at valid positions in the file, and show that memory when they
stand one after the other.
-/
theorem loadsImage_iff (magic : (NoffHeader.read stack file).noffMagic = noffMagic)
    (enough : pageCount (NoffHeader.read stack file) ≤ state.memory.frames.numClear)
    : LoadsImage stack file state
      ↔ pageCount (NoffHeader.read stack file) ≤ tablePages (NoffHeader.read stack file)
        ∧ (∀ page ∈ image file (NoffHeader.read stack file).segments, page.readable = true)
        ∧ Shows file (NoffHeader.read stack file) (tablePages (NoffHeader.read stack file))
            (laidOut (image file (NoffHeader.read stack file).segments)) := by
  have all := image_length file (NoffHeader.read stack file)
  constructor
  · intro loads
    obtain ⟨stop, shows⟩ := laidOut_of_loadsImage magic loads
    obtain ⟨_, fits, readable⟩ := stopsAt_eq_none_iff.mp stop
    rw [Nat.zero_add, all] at fits
    exact ⟨fits.resolve_left image_ne_nil, readable, shows⟩
  · rintro ⟨fits, readable, shows⟩
    rw [← all] at enough fits
    have stop := stopsAt_eq_none_iff.mpr ⟨enough, .inr ((Nat.zero_add _).trans_le fits), readable⟩
    obtain ⟨after, taken, ran, placed⟩ := load_returns magic stop
    refine ⟨after, ran, ?_, ?_⟩
    · rw [funext (byteAt_of_placed placed), placed.numPages, opened_numPages]
      exact shows
    · rw [frames_of_placed placed (opened_invalid _ _)]
      exact placed.takes.distinct

-----------------------------------------------------------------------------------------
-- Programs laid out as they are loaded
-----------------------------------------------------------------------------------------

/-- Pages behind others are laid out behind them. -/
theorem laidOut_append {before : List Page} {count : Nat} (length : before.length = count)
    (behind : List Page) (address : Nat)
    : laidOut (before ++ behind) (count * pageSize + address) = laidOut behind address := by
  subst length
  have page : (before.length * pageSize + address) / pageSize
      = before.length + address / pageSize := by
    rw [Nat.mul_comm, Nat.mul_add_div (by decide)]
  have offset : (before.length * pageSize + address) % pageSize = address % pageSize := by
    rw [Nat.mul_comm, Nat.mul_add_mod]
  rw [laidOut, laidOut, page, offset, List.getElem?_append_right (Nat.le_add_right _ _),
    Nat.add_sub_cancel_left]

/-- The bytes of a segment stand one after the other from its first page on. -/
theorem laidOut_segment {segment : Segment} {i : Nat} (inside : (i : Int) < segment.size)
    (nonneg : 0 ≤ segment.inFileAddr)
    (inFile : segment.inFileAddr + segment.size < 2147483648) (behind : List Page)
    : laidOut ((List.range (Segment.numPages segment)).map (segmentPage file segment) ++ behind) i
      = some (file.getD (segment.inFileAddr + i).toNat 0) := by
  have split := Nat.div_add_mod i pageSize
  have small := Nat.mod_lt i (show 0 < pageSize by decide)
  rw [laidOut]
  generalize i / pageSize = turn at split ⊢
  generalize i % pageSize = offset at split small ⊢
  have size : (pageSize : Int) = 128 := rfl
  have start : (turn : Int) * pageSize = i - offset := by
    rw [← split, Nat.cast_add, Nat.cast_mul]
    ring
  have page : turn < Segment.numPages segment := by
    rw [Segment.numPages, CInt.divRoundUp_of_nonneg (by omega) (by decide)]
    rw [size] at start ⊢
    omega
  have within : offset < (if segment.size - turn * pageSize < pageSize then
      segment.size - turn * pageSize else pageSize).toNat := by
    split <;> omega
  rw [List.getElem?_append_left (by rwa [List.length_map, List.length_range]),
    List.getElem?_map, List.getElem?_range page, Option.map_some, Option.map_some]
  simp only [segmentPage, within, if_true]
  rw [CInt.wrap_of_lt (by omega) (by omega)]
  congr 2
  omega

/-- The stack is laid out as zeros. -/
theorem laidOut_stack {i : Nat} (inside : i < userStackSize)
    : laidOut (List.replicate (userStackSize / pageSize) blankPage) i = some 0 := by
  have page : i / pageSize < userStackSize / pageSize := by
    rw [pageSize_eq]
    exact Nat.div_lt_div_of_lt_of_dvd (by decide) inside
  rw [laidOut, List.getElem?_replicate_of_lt page]
  rfl

/-- The segments that are not empty start where `LoadSegments` puts them, the file has zeros for the
one that is not initialized, and the stack ends the table.
-/
structure Aligned (file : HostFile) (noffH : NoffHeader) : Prop where
  code : 0 < noffH.code.size → noffH.code.virtualAddr = 0
  initData
    : 0 < noffH.initData.size
      → noffH.initData.virtualAddr = (Segment.numPages noffH.code * pageSize : Nat)
  readonlyData
    : 0 < noffH.readonlyData.size
      → noffH.readonlyData.virtualAddr
        = ((Segment.numPages noffH.code + Segment.numPages noffH.initData) * pageSize : Nat)
  uninitData
    : 0 < noffH.uninitData.size
      → noffH.uninitData.virtualAddr
        = ((Segment.numPages noffH.code + Segment.numPages noffH.initData
            + Segment.numPages noffH.readonlyData) * pageSize : Nat)
  zeros
    : ∀ i : Nat, (i : Int) < noffH.uninitData.size
      → file.getD (noffH.uninitData.inFileAddr + i).toNat 0 = 0
  inFile
    : ∀ segment ∈ noffH.segments,
        0 ≤ segment.1.inFileAddr ∧ segment.1.inFileAddr + segment.1.size < 2147483648
  pages : pageCount noffH = tablePages noffH

/-- An aligned file shows its segments page by page, and the stack behind them. -/
theorem shows_of_aligned (aligned : Aligned file noffH)
    : Shows file noffH (tablePages noffH) (laidOut (image file noffH.segments)) := by
  have inFile := aligned.inFile
  have numPages (segment : Segment)
      : ((List.range (Segment.numPages segment)).map (segmentPage file segment)).length
        = Segment.numPages segment := by
    rw [List.length_map, List.length_range]
  have positive {i : Nat} {size : Int} (inside : (i : Int) < size) : 0 < size :=
    (Int.natCast_nonneg i).trans_lt inside
  have toNat (count i : Nat)
      : (((count * pageSize : Nat) : Int) + i).toNat = count * pageSize + i :=
    Int.toNat_natCast (count * pageSize + i)
  simp only [NoffHeader.segments, List.forall_mem_cons, image] at inFile ⊢
  obtain ⟨code, initData, readonlyData, uninitData, _⟩ := inFile
  refine ⟨?_, fun i inside => ?_, fun i inside => ?_⟩
  · simp only [List.forall_mem_cons]
    refine ⟨fun i inside => ?_, fun i inside => ?_, fun i inside => ?_, ?_⟩
    · rw [aligned.code (positive inside), Int.zero_add, Int.toNat_natCast]
      exact laidOut_segment inside code.1 code.2 _
    · rw [aligned.initData (positive inside), toNat, laidOut_append (numPages _)]
      exact laidOut_segment inside initData.1 initData.2 _
    · rw [aligned.readonlyData (positive inside), toNat, ← List.append_assoc,
        laidOut_append (by rw [List.length_append, numPages, numPages])]
      exact laidOut_segment inside readonlyData.1 readonlyData.2 _
    · exact fun _ absent => absurd absent List.not_mem_nil
  · rw [aligned.uninitData (positive inside), toNat, ← List.append_assoc, ← List.append_assoc,
      laidOut_append (by rw [List.length_append, List.length_append, numPages, numPages, numPages]),
      laidOut_segment inside uninitData.1 uninitData.2, aligned.zeros i inside]
  · have last : tablePages noffH * pageSize - userStackSize + i
        = (Segment.numPages noffH.code + Segment.numPages noffH.initData
            + Segment.numPages noffH.readonlyData + Segment.numPages noffH.uninitData) * pageSize
          + i := by
      rw [← aligned.pages, pageCount, Nat.add_mul, show userStackSize / pageSize * pageSize
        = userStackSize from rfl, Nat.add_sub_cancel]
    rw [last, ← List.append_assoc, ← List.append_assoc, ← List.append_assoc,
      laidOut_append (by simp only [List.length_append, numPages]), laidOut_stack inside]

-----------------------------------------------------------------------------------------
-- A program with and without uninitialized data
-----------------------------------------------------------------------------------------

/-- A virtual address belongs to a segment. -/
def Segment.Covers (segment : Segment) (address : Int) : Prop :=
  segment.virtualAddr ≤ address ∧ address < segment.virtualAddr + segment.size

/-- The segments have disjoint ranges of addresses below their total size, and lie inside the
file.
-/
structure WellFormed (file : HostFile) (noffH : NoffHeader) : Prop where
  disjoint
    : (noffH.segments.map Prod.fst).Pairwise
        (fun left right => ∀ address, ¬(Segment.Covers left address ∧ Segment.Covers right address))
  inside
    : ∀ segment ∈ noffH.segments, ∀ address, Segment.Covers segment.1 address
      → 0 ≤ address
        ∧ address < noffH.code.size + noffH.initData.size + noffH.readonlyData.size
            + noffH.uninitData.size
  inFile
    : ∀ segment ∈ noffH.segments,
        0 ≤ segment.1.size
        ∧ 0 ≤ segment.1.inFileAddr
        ∧ segment.1.inFileAddr + segment.1.size ≤ file.length

/-- The header of a program with a page of code and so many bytes that are not initialized. -/
def pageHeader (uninit : Byte) : HostFile :=
  [0xad, 0xdf, 0xba, 0, 0, 0, 0, 0, 52, 0, 0, 0, 128, 0, 0, 0] ++ List.replicate 24 0
    ++ [128, 0, 0, 0, 0, 0, 0, 0, uninit, 0, 0, 0]

def pageProgram (uninit : Byte) : HostFile := pageHeader uninit ++ List.replicate 128 1

/-- The header of the program of the witness, read word by word. -/
theorem read_pageProgram {uninit : Byte} (either : uninit = 0 ∨ uninit = 4) (stack : Buffer)
    : NoffHeader.read stack (pageProgram uninit)
      = {
          noffMagic
          code := { virtualAddr := 0, inFileAddr := 52, size := 128 }
          initData := { virtualAddr := 0, inFileAddr := 0, size := 0 }
          readonlyData := { virtualAddr := 0, inFileAddr := 0, size := 0 }
          uninitData := { virtualAddr := 128, inFileAddr := 0, size := uninit.toNat }
        } := by
  rw [pageProgram, NoffHeader.read_of_length rfl]
  rcases either with rfl | rfl
  · decide +kernel
  · decide +kernel

/-- Witness: a program of one page is loaded as its file says. -/
theorem loadsImage_of_page
    : ∃ state : Loading,
        state.memory.frames = .new numPhysPages
        ∧ LoadsImage (fun _ => 0) (pageProgram 0) state := by
  obtain ⟨state, _, fresh⟩ := exists_fresh
  have header := read_pageProgram (.inl rfl) (fun _ => 0)
  have aligned : Aligned (pageProgram 0) (NoffHeader.read (fun _ => 0) (pageProgram 0)) := by
    rw [header]
    refine ⟨fun _ => rfl, fun empty => ?_, fun empty => ?_, fun empty => ?_,
      fun i inside => ?_, by decide, by decide⟩
    · exact absurd empty (lt_irrefl 0)
    · exact absurd empty (lt_irrefl 0)
    · exact absurd empty (lt_irrefl 0)
    · exact absurd inside (not_lt.mpr (Int.natCast_nonneg i))
  refine ⟨state, fresh, (loadsImage_iff ?_ ?_).mpr ⟨aligned.pages.le, ?_, shows_of_aligned aligned⟩⟩
  · rw [header]
  · rw [fresh, Bitmap.numClear_new, header]
    decide
  · exact image_readable aligned.inFile

/-- Data that the header calls uninitialized is read from the file. -/
theorem uninitData_not_zeroed
    : ¬∀ (stack : Buffer) (file : HostFile) (state : Loading),
        (NoffHeader.read stack file).noffMagic = noffMagic
        → WellFormed file (NoffHeader.read stack file)
        → pageCount (NoffHeader.read stack file) ≤ state.memory.frames.numClear
        → LoadsImage stack file state := by
  intro all
  obtain ⟨state, _, fresh⟩ := exists_fresh
  have header := read_pageProgram (.inr rfl) (fun _ => 0)
  have magic : (NoffHeader.read (fun _ => 0) (pageProgram 4)).noffMagic = noffMagic := by
    rw [header]
  have loads := all (fun _ => 0) (pageProgram 4) state magic ?_ ?_
  · have zero := (laidOut_of_loadsImage magic loads).2.zeroed 0
    rw [header] at zero
    revert zero
    decide +kernel
  · rw [header]
    refine ⟨?_, ?_, by decide +kernel⟩
    · simp [NoffHeader.segments, Segment.Covers]
      exact ⟨fun _ _ low high => by omega, fun _ _ low high => by omega⟩
    · simp [NoffHeader.segments, Segment.Covers]
      exact ⟨fun _ _ _ => by omega, fun _ _ _ => by omega, fun _ _ _ => by omega⟩
  · rw [fresh, Bitmap.numClear_new, header]
    decide

end Nachos.UserProg.Mp2
