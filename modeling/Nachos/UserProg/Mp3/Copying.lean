import Nachos.UserProg.Mp3.Admission

/-! How the bytes of a segment get to the frames of its pages: which byte of memory each goes to,
and what is left of the others.
-/

namespace Nachos.UserProg.Mp3

open Bytes Routines

/-- The physical address of a virtual address, of pages in these frames. -/
def place (taken : List Int) (address : Nat) : Option Nat :=
  taken[address / pageSize]?.map (fun frame => frame.toNat * pageSize + address % pageSize)

/-- The page table maps its pages to these frames, all of them valid and writable. -/
structure Maps (space : AddrSpace) (taken : List Int) : Prop where
  hasTable : ∃ table, space.pageTable = .entries table ∧ table.length = taken.length
  numPages : space.numPages = taken.length
  entries
    : ∀ (page : Nat) (entry : TranslationEntry), space.pageTable.table[page]? = some entry
      → entry.valid = true ∧ entry.readOnly = false ∧ taken[page]? = some entry.physicalPage

/-- The frames are distinct frames of memory. -/
structure Frames (taken : List Int) : Prop where
  few : taken.length ≤ numPhysPages
  distinct : taken.Nodup
  inside : ∀ frame ∈ taken, 0 ≤ frame ∧ frame < numPhysPages

variable {taken : List Int} {space : AddrSpace}

/-- The new entries map the pages to the frames that were taken, by induction on these. -/
theorem getElem?_newEntries (first page : Nat)
    : (newEntries first taken)[page]? = taken[page]?.map (newEntry (first + page)) := by
  induction taken generalizing first page with
  | nil => rfl
  | cons freePage rest ih =>
      cases page with
      | zero => rfl
      | succ page =>
          rw [newEntries, List.getElem?_cons_succ, ih, List.getElem?_cons_succ, Nat.add_assoc,
            Nat.add_comm 1]

/-- The table that the loop leaves. -/
theorem maps_newEntries (taken : List Int)
    : Maps { pageTable := .entries (newEntries 0 taken), numPages := taken.length } taken where
  hasTable := ⟨_, rfl, newEntries_length 0 taken⟩
  numPages := rfl
  entries page entry found := by
    rw [PageTable.table, getElem?_newEntries, Option.map_eq_some_iff] at found
    obtain ⟨frame, stored, rfl⟩ := found
    exact ⟨rfl, rfl, stored⟩

/-- Different virtual addresses have different physical ones. -/
theorem place_injective (frames : Frames taken) {left right physical : Nat}
    (first : place taken left = some physical) (second : place taken right = some physical)
    : left = right := by
  obtain ⟨leftFrame, leftFound, leftSame⟩ := Option.map_eq_some_iff.mp first
  obtain ⟨rightFrame, rightFound, rightSame⟩ := Option.map_eq_some_iff.mp second
  have leftInside := frames.inside _ (List.mem_of_getElem? leftFound)
  have rightInside := frames.inside _ (List.mem_of_getElem? rightFound)
  have leftSplit := Nat.div_add_mod left pageSize
  have rightSplit := Nat.div_add_mod right pageSize
  have leftSmall := Nat.mod_lt left (show 0 < pageSize by decide)
  have rightSmall := Nat.mod_lt right (show 0 < pageSize by decide)
  have same : leftFrame = rightFrame := by
    rw [pageSize_eq] at leftSame rightSame leftSmall rightSmall
    omega
  subst same
  have page : left / pageSize = right / pageSize := by
    have leftBound := (List.getElem?_eq_some_iff.mp leftFound).1
    exact (List.getElem?_inj leftBound frames.distinct).mp (leftFound.trans rightFound.symm)
  rw [page] at leftSplit
  omega

/-- An address is placed in one of the frames that were taken. -/
theorem place_frame (frames : Frames taken) {address physical : Nat}
    (found : place taken address = some physical)
    : ((physical / pageSize : Nat) : Int) ∈ taken := by
  obtain ⟨frame, stored, rfl⟩ := Option.map_eq_some_iff.mp found
  have member := List.mem_of_getElem? stored
  have page : (frame.toNat * pageSize + address % pageSize) / pageSize = frame.toNat := by
    rw [Nat.mul_comm, Nat.mul_add_div (by decide), Nat.mod_div_self, Nat.add_zero]
  rw [page, Int.toNat_of_nonneg (frames.inside frame member).1]
  exact member

theorem exists_place {address : Nat} (inside : address < taken.length * pageSize)
    : ∃ physical, place taken address = some physical := by
  have page : address / pageSize < taken.length := Nat.div_lt_of_lt_mul (by rwa [Nat.mul_comm])
  rw [place, List.getElem?_eq_getElem page]
  exact ⟨_, rfl⟩

theorem place_lt (frames : Frames taken) {address physical : Nat}
    (found : place taken address = some physical)
    : physical < memorySize := by
  have frame := (frames.inside _ (place_frame frames found)).2
  rw [memorySize_eq]
  exact Nat.lt_mul_of_div_lt (Int.ofNat_lt.mp frame) (by decide)

/-- What the page table of the kernel says. -/
theorem Maps.physicalAddress (maps : Maps space taken) (frames : Frames taken) (address : Nat)
    : space.physicalAddress address = place taken address := by
  obtain ⟨table, there, length⟩ := maps.hasTable
  rw [AddrSpace.physicalAddress, place]
  cases found : space.pageTable.table[address / pageSize]? with
  | none =>
      rw [there, PageTable.table, List.getElem?_eq_none_iff, length] at found
      rw [List.getElem?_eq_none found]
      rfl
  | some entry =>
      obtain ⟨valid, _, stored⟩ := maps.entries _ _ found
      have inside := frames.inside _ (List.mem_of_getElem? stored)
      simp only [stored, Option.map_some, valid, inside, true_and, if_true]

theorem unsigned_physical {frame : Int} {offset : Nat}
    (inside : 0 ≤ frame ∧ frame < numPhysPages) (small : offset < pageSize)
    : (CInt.unsigned (frame * pageSize + offset)).toNat = frame.toNat * pageSize + offset := by
  have frames : numPhysPages = 128 := rfl
  rw [pageSize_eq] at small ⊢
  rw [CInt.unsigned_of_nonneg (by omega) (by omega)]
  omega

/-- `Translate` gives the physical address of a page, and keeps the frames of the table. -/
theorem Maps.translate (maps : Maps space taken) (frames : Frames taken) {address physical : Nat}
    (found : place taken address = some physical)
    : ∃ touched,
        space.translate address true = .ok (.ok (physical, touched)) ∧ Maps touched taken := by
  obtain ⟨table, there, length⟩ := maps.hasTable
  have bound := place_lt frames found
  obtain ⟨frame, stored, rfl⟩ := Option.map_eq_some_iff.mp found
  have inside := frames.inside frame (List.mem_of_getElem? stored)
  have page : address / pageSize < table.length := by
    rw [length]
    exact (List.getElem?_eq_some_iff.mp stored).1
  have entry := maps.entries (address / pageSize) table[address / pageSize] (by
    rw [there, PageTable.table, List.getElem?_eq_getElem page])
  obtain ⟨valid, writable, same⟩ := entry
  obtain rfl := Option.some.inj (stored.symm.trans same)
  have physical := unsigned_physical inside (Nat.mod_lt address (show 0 < pageSize by decide))
  refine ⟨{ space with pageTable := .entries (table.set (address / pageSize)
    (table[address / pageSize].touch true)) }, ?_, ?_⟩
  · have few : ¬address / pageSize ≥ space.numPages := by
      rw [maps.numPages, ← length]
      exact not_le.mpr page
    simp only [AddrSpace.translate, few, if_false, there, PageTable.access_entries,
      List.getElem?_eq_getElem page, writable, Bool.false_eq_true, and_false,
      not_le.mpr inside.2, physical, bound, if_true]
  · refine ⟨⟨_, rfl, by rw [List.length_set, length]⟩, maps.numPages, fun other entry found => ?_⟩
    rw [PageTable.table] at found
    by_cases here : address / pageSize = other
    · subst here
      rw [List.getElem?_set_self page] at found
      obtain rfl := Option.some.inj found
      exact ⟨valid, writable, stored⟩
    · rw [List.getElem?_set_ne here] at found
      refine maps.entries other entry ?_
      rw [there]
      exact found

-----------------------------------------------------------------------------------------
-- One byte
-----------------------------------------------------------------------------------------

/-- Byte `i` of a segment in the file. -/
def fileByte (file : HostFile) (segment : Segment) (i : Nat) : Option Byte :=
  file[(segment.inFileAddr + i).toNat]?

/-- The virtual address of byte `i` of a segment. -/
def byteAddress (segment : Segment) (i : Nat) : Nat := (segment.virtualAddr + i).toNat

/-- The address of the byte is that of a page, and its position one in a file. -/
structure Proper (taken : List Int) (segment : Segment) (i : Nat) : Prop where
  nonneg : 0 ≤ segment.virtualAddr
  inside : segment.virtualAddr + i < taken.length * pageSize

/-- The bytes of a segment in these turns were written to their places, and nothing else. -/
structure Copied (places : Nat → Option Nat) (file : HostFile) (segment : Segment) (turns : List Nat)
    (before after : Buffer)
    : Prop where
  written
    : ∀ i ∈ turns, ∀ byte physical, fileByte file segment i = some byte
      → places (byteAddress segment i) = some physical
      → after physical = byte
  kept
    : ∀ physical,
        (∀ i ∈ turns, places (byteAddress segment i) = some physical
          → fileByte file segment i = none)
        → after physical = before physical

variable {file : HostFile} {segment : Segment} {state after : Loading} {i : Nat}

/-- A byte of a segment inside the table has a place, since its page is taken. -/
theorem Proper.place (frames : Frames taken) (proper : Proper taken segment i)
    : (CInt.unsigned (segment.virtualAddr + i)).toNat = byteAddress segment i
      ∧ ∃ physical, place taken (byteAddress segment i) = some physical := by
  have nonneg := proper.nonneg
  have inside := proper.inside
  have most : taken.length * pageSize ≤ memorySize := Nat.mul_le_mul_right pageSize frames.few
  have size : memorySize = 16384 := rfl
  refine ⟨?_, exists_place ?_⟩
  · rw [CInt.unsigned_of_nonneg (by omega) (by omega)]
    rfl
  · rw [byteAddress]
    omega

/-- Bytes are written into the memory when they fit. -/
theorem run_writeMemory {address : Nat} {data : List Byte}
    (fits : address + data.length ≤ memorySize) (state : Loading)
    : (writeMemory address data).run state
      = (.ok (),
          {
            state with
            memory := {
              state.memory with
              mainMemory := blit state.memory.mainMemory address (ofList data) data.length
            }
          }) := by
  have inside : data = [] ∨ (0 ≤ (address : Int) ∧ (address : Int) + data.length ≤ memorySize) := by
    omega
  rw [writeMemory, Routine.run_bind_ok (Routine.run_assert_of inside _ _), Int.toNat_natCast]
  rfl

/-- The turn of a loop that copies a byte. -/
theorem run_copyByte (maps : Maps state.space taken) (frames : Frames taken)
    (proper : Proper taken segment i) (readable : 0 ≤ CInt.wrap (segment.inFileAddr + i))
    : ∃ middle physical,
        (copyByte file segment i).run state = (.ok (), middle)
        ∧ Maps middle.space taken
        ∧ middle.memory.frames = state.memory.frames
        ∧ place taken (byteAddress segment i) = some physical
        ∧ middle.memory.mainMemory
          = blit state.memory.mainMemory physical
              (ofList ((file.drop (CInt.wrap (segment.inFileAddr + i)).toNat).take 1))
              ((file.drop (CInt.wrap (segment.inFileAddr + i)).toNat).take 1).length := by
  obtain ⟨address, physical, found⟩ := proper.place frames
  obtain ⟨touched, translated, mapsTouched⟩ := maps.translate frames found
  have fits : physical + ((file.drop (CInt.wrap (segment.inFileAddr + i)).toNat).take 1).length
      ≤ memorySize := by
    have bound := place_lt frames found
    rw [List.length_take]
    omega
  rw [copyByte, Routine.run_bind_ok (Routine.run_get state), address, translated]
  simp only [attempt]
  rw [Routine.run_bind_ok (Routine.run_pure _ state), Routine.run_bind_ok (Routine.run_set _ state),
    HostFile.readAt, if_pos readable]
  simp only [Int.toNat_one]
  rw [Routine.run_bind_ok (Routine.run_pure _ _), run_writeMemory fits]
  exact ⟨_, physical, rfl, mapsTouched, rfl, found, rfl⟩

/-- It stops at a position that is not one in a file. -/
theorem run_copyByte_unreadable (maps : Maps state.space taken) (frames : Frames taken)
    (proper : Proper taken segment i) (unreadable : ¬0 ≤ CInt.wrap (segment.inFileAddr + i))
    : ((copyByte file segment i).run state).1 = .error (.fault .assertion) := by
  obtain ⟨address, physical, found⟩ := proper.place frames
  obtain ⟨touched, translated, _⟩ := maps.translate frames found
  rw [copyByte, Routine.run_bind_ok (Routine.run_get state), address, translated]
  simp only [attempt]
  rw [Routine.run_bind_ok (Routine.run_pure _ state), Routine.run_bind_ok (Routine.run_set _ state),
    HostFile.readAt, if_neg unreadable]
  rfl

-----------------------------------------------------------------------------------------
-- The loops
-----------------------------------------------------------------------------------------

/-- What one turn writes. -/
theorem copied_single {physical : Nat}
    (found : place taken (byteAddress segment i) = some physical)
    (position : CInt.wrap (segment.inFileAddr + i) = segment.inFileAddr + i) (before : Buffer)
    : Copied (place taken) file segment [i] before
        (blit before physical
          (ofList ((file.drop (CInt.wrap (segment.inFileAddr + i)).toNat).take 1))
          ((file.drop (CInt.wrap (segment.inFileAddr + i)).toNat).take 1).length) := by
  have head : (file.drop (segment.inFileAddr + i).toNat).take 1
      = (fileByte file segment i).toList := by
    rw [fileByte, ← List.head?_drop, List.take_one]
  rw [position, head]
  refine ⟨fun turn member byte own stored ownFound => ?_, fun own untouched => ?_⟩
  · obtain rfl := List.mem_singleton.mp member
    obtain rfl := Option.some.inj (found.symm.trans ownFound)
    rw [stored, Option.toList_some, blit_inside _ _ (le_refl _) (Nat.lt_succ_self _), Nat.sub_self]
    rfl
  · cases stored : fileByte file segment i with
    | none => rw [Option.toList_none, List.length_nil, blit_zero]
    | some byte =>
        refine blit_outside _ _ ?_
        have apart : own ≠ physical := by
          rintro rfl
          have none := untouched i (List.mem_singleton_self i) found
          rw [stored] at none
          cases none
        rw [Option.toList_some, List.length_singleton]
        omega

/-- Later turns write to other places. -/
theorem Copied.cons {turns : List Nat} {before middle last : Buffer} (frames : Frames taken)
    (distinct : (i :: turns).Nodup) (nonneg : 0 ≤ segment.virtualAddr)
    (first : Copied (place taken) file segment [i] before middle)
    (rest : Copied (place taken) file segment turns middle last)
    : Copied (place taken) file segment (i :: turns) before last := by
  refine ⟨fun turn member byte physical stored found => ?_, fun physical untouched => ?_⟩
  · rcases List.mem_cons.mp member with rfl | later
    · rw [rest.kept physical (fun other isLater otherFound => ?_)]
      · exact first.written turn (List.mem_singleton_self turn) byte physical stored found
      · have same := place_injective frames found otherFound
        have equal : turn = other := by
          rw [byteAddress, byteAddress] at same
          omega
        subst equal
        exact absurd isLater (List.nodup_cons.mp distinct).1
    · exact rest.written turn later byte physical stored found
  · rw [rest.kept physical (fun turn member => untouched turn (List.mem_cons_of_mem _ member)),
      first.kept physical (fun turn member => ?_)]
    obtain rfl := List.mem_singleton.mp member
    exact untouched turn List.mem_cons_self

/-- The loop returns if all its positions are ones in a file, by induction on the turns. -/
theorem copyBytes_returns {turns : List Nat} (distinct : turns.Nodup) (frames : Frames taken)
    (maps : Maps state.space taken) (proper : ∀ i ∈ turns, Proper taken segment i)
    (positions
      : ∀ i ∈ turns,
          0 ≤ segment.inFileAddr + i
          ∧ CInt.wrap (segment.inFileAddr + i) = segment.inFileAddr + i)
    : ∃ after,
        (copyBytes file segment turns).run state = (.ok (), after)
        ∧ Maps after.space taken
        ∧ after.memory.frames = state.memory.frames
        ∧ Copied (place taken) file segment turns state.memory.mainMemory after.memory.mainMemory := by
  induction turns generalizing state with
  | nil =>
      exact ⟨state, rfl, maps, rfl, fun _ absent => absurd absent List.not_mem_nil,
        fun _ _ => rfl⟩
  | cons i turns ih =>
      obtain ⟨properHere, properRest⟩ := List.forall_mem_cons.mp proper
      obtain ⟨⟨nonneg, position⟩, positionsRest⟩ := List.forall_mem_cons.mp positions
      obtain ⟨middle, physical, ran, mapsMiddle, framesMiddle, found, wrote⟩ :=
        @run_copyByte taken file segment state i maps frames properHere (by rwa [position])
      obtain ⟨after, ranRest, mapsAfter, framesAfter, copied⟩ :=
        ih (List.nodup_cons.mp distinct).2 mapsMiddle properRest positionsRest
      refine ⟨after, ?_, mapsAfter, framesAfter.trans framesMiddle, ?_⟩
      · rw [copyBytes, Routine.run_bind_ok ran, ranRest]
      · rw [wrote] at copied
        exact (copied_single found position _).cons frames distinct properHere.nonneg copied

/-- If the loop returns, all its positions are nonnegative, by induction on the turns. -/
theorem readable_of_copyBytes {turns : List Nat} (frames : Frames taken)
    (maps : Maps state.space taken) (proper : ∀ i ∈ turns, Proper taken segment i)
    (returned : (copyBytes file segment turns).run state = (.ok (), after))
    : ∀ i ∈ turns, 0 ≤ CInt.wrap (segment.inFileAddr + i) := by
  induction turns generalizing state with
  | nil => exact fun _ absent => absurd absent List.not_mem_nil
  | cons i turns ih =>
      obtain ⟨properHere, properRest⟩ := List.forall_mem_cons.mp proper
      obtain ⟨_, middle, ran, ranRest⟩ := Routine.of_run_bind_ok returned
      by_cases readable : 0 ≤ CInt.wrap (segment.inFileAddr + i)
      · obtain ⟨_, _, ranHere, mapsMiddle, _⟩ :=
          @run_copyByte taken file segment state i maps frames properHere readable
        rw [ran] at ranHere
        obtain rfl := congrArg Prod.snd ranHere
        exact List.forall_mem_cons.mpr ⟨readable, ih mapsMiddle properRest ranRest⟩
      · have stopped := @run_copyByte_unreadable taken file segment state i maps frames properHere
          readable
        rw [ran] at stopped
        cases stopped

/-- A segment that lies in the address space. -/
structure Inside (numPages : Nat) (segment : Segment) : Prop where
  size : 0 ≤ segment.size
  range
    : 0 < segment.size
      → 0 ≤ segment.virtualAddr ∧ segment.virtualAddr + segment.size ≤ numPages * pageSize

/-- The turns of the loop over a segment. -/
def turns (segment : Segment) : List Nat := List.range segment.size.toNat

theorem Inside.proper (inside : Inside taken.length segment)
    : ∀ i ∈ turns segment, Proper taken segment i := by
  intro i member
  have small := List.mem_range.mp member
  obtain ⟨nonneg, fits⟩ := inside.range (by omega)
  exact ⟨nonneg, by omega⟩

/-- A segment inside the table is copied byte by byte, since its size does not wrap. -/
theorem Inside.copySegment_eq (inside : Inside taken.length segment) (frames : Frames taken)
    : copySegment file segment = copyBytes file segment (turns segment) := by
  have size := inside.size
  have most : taken.length * pageSize ≤ memorySize := Nat.mul_le_mul_right pageSize frames.few
  have bound : memorySize = 16384 := rfl
  have small : segment.size < 4294967296 := by
    by_cases positive : 0 < segment.size
    · obtain ⟨nonneg, fits⟩ := inside.range positive
      omega
    · omega
  have unsigned : CInt.unsigned segment.size = segment.size := by
    rw [CInt.unsigned]
    omega
  rw [copySegment, unsigned, turns]

end Nachos.UserProg.Mp3
