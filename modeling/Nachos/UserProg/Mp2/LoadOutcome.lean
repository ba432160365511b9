import Nachos.UserProg.Mp2.Placement

/-! When `Load` returns, and why it stops when it does not: the pages that it places against
the entries of the table and the frames that are clear.
-/

namespace Nachos.UserProg.Mp2

open Bytes Routines

variable {state after : Loading} {file : HostFile} {noffH : NoffHeader} {stack : Buffer}

/-- The pages that the segments and the stack need. -/
def pageCount (noffH : NoffHeader) : Nat :=
  Segment.numPages noffH.code + Segment.numPages noffH.initData
    + Segment.numPages noffH.readonlyData + Segment.numPages noffH.uninitData
    + userStackSize / pageSize

theorem image_length (file : HostFile) (noffH : NoffHeader)
    : (image file noffH.segments).length = pageCount noffH := by
  simp only [NoffHeader.segments, image, List.length_append, List.length_map, List.length_range,
    List.length_replicate, pageCount]
  omega

/-- Every page of a segment begins inside it. -/
theorem mul_lt_of_lt_numPages {segment : Segment} {i : Nat}
    (inside : i < Segment.numPages segment)
    : (i : Int) * pageSize < segment.size := by
  have positive : 0 < segment.size := by
    by_contra empty
    rw [numPages_of_nonpos empty] at inside
    exact Nat.not_lt_zero _ inside
  rw [Segment.numPages, CInt.divRoundUp_of_nonneg positive.le (by decide)] at inside
  rw [pageSize_eq] at inside ⊢
  omega

/-- The pages of segments that lie inside a file can be read, by induction on the segments. -/
theorem image_readable {segments : List (Segment × Bool)}
    (inFile
      : ∀ segment ∈ segments,
          0 ≤ segment.1.inFileAddr ∧ segment.1.inFileAddr + segment.1.size < 2147483648)
    : ∀ page ∈ image file segments, page.readable = true := by
  induction segments with
  | nil =>
      intro page member
      rw [List.eq_of_mem_replicate member]
      rfl
  | cons head rest ih =>
      obtain ⟨segment, readOnly⟩ := head
      obtain ⟨first, others⟩ := List.forall_mem_cons.mp inFile
      intro page member
      rcases List.mem_append.mp member with here | later
      · obtain ⟨i, inside, rfl⟩ := List.mem_map.mp here
        have before := mul_lt_of_lt_numPages (List.mem_range.mp inside)
        have nonneg : 0 ≤ (i : Int) * pageSize := Int.natCast_nonneg (i * pageSize)
        simp only at first
        refine decide_eq_true ?_
        rw [CInt.wrap_of_lt (by omega) (by omega)]
        omega
      · exact ih others page later

/-- The state in which `Load` calls `LoadSegments`. -/
def opened (noffH : NoffHeader) (memory : Memory) : Loading :=
  {
    space := {
      pageTable := .entries (newTable (tablePages noffH))
      numPages := tablePages noffH
    }
    memory
  }

theorem opened_table (noffH : NoffHeader) (memory : Memory)
    : (opened noffH memory).table = newTable (tablePages noffH) :=
  rfl

theorem opened_numPages (noffH : NoffHeader) (memory : Memory)
    : (opened noffH memory).space.numPages = tablePages noffH :=
  rfl

theorem newTable_length (numPages : Nat) : (newTable numPages).length = numPages := by
  rw [newTable, List.length_map, List.length_range]

-----------------------------------------------------------------------------------------
-- When loading stops
-----------------------------------------------------------------------------------------

/-- Placing pages does not stop if there is room for all, by induction on them. -/
theorem stopsAt_eq_none_iff {capacity clear start : Nat} {pages : List Page}
    : stopsAt capacity clear start pages = none
      ↔ pages.length ≤ clear
        ∧ (pages = [] ∨ start + pages.length ≤ capacity)
        ∧ ∀ page ∈ pages, page.readable = true := by
  induction pages generalizing clear start with
  | nil => simp [stopsAt_nil]
  | cons page rest ih =>
      cases clear with
      | zero => simp [stopsAt]
      | succ others =>
          rw [stopsAt]
          by_cases beyond : capacity ≤ start
          · rw [if_pos beyond]
            simp only [reduceCtorEq, List.length_cons, false_or, false_iff]
            omega
          · rw [if_neg beyond]
            cases readable : page.readable with
            | false => simp [readable]
            | true =>
                simp only [if_true, ih, List.length_cons, List.forall_mem_cons, readable,
                  true_and, reduceCtorEq, false_or]
                constructor
                · rintro ⟨few, inside, all⟩
                  refine ⟨by omega, ?_, all⟩
                  rcases inside with rfl | inside
                  · exact Nat.succ_le_of_lt (not_le.mp beyond)
                  · omega
                · rintro ⟨few, inside, all⟩
                  exact ⟨by omega, .inr (by omega), all⟩

/-- Placing pages leaves the table if it gets to its end, by induction on the pages. -/
theorem stopsAt_eq_outOfBounds_iff {capacity clear start : Nat} {pages : List Page}
    (within : start ≤ capacity)
    : stopsAt capacity clear start pages = some .outOfBounds
      ↔ capacity < start + pages.length
        ∧ capacity < start + clear
        ∧ ∀ page ∈ pages.take (capacity - start), page.readable = true := by
  induction pages generalizing clear start with
  | nil =>
      rw [stopsAt_nil]
      refine iff_of_false (by simp) (fun holds => ?_)
      exact absurd within (not_le.mpr holds.1)
  | cons page rest ih =>
      cases clear with
      | zero =>
          refine iff_of_false (by simp [stopsAt]) (fun holds => ?_)
          exact absurd within (not_le.mpr holds.2.1)
      | succ others =>
          rw [stopsAt]
          by_cases beyond : capacity ≤ start
          · rw [if_pos beyond, Nat.sub_eq_zero_of_le beyond, List.length_cons]
            refine iff_of_true rfl ⟨by omega, by omega, ?_⟩
            exact fun page member => absurd member List.not_mem_nil
          · have next : start + 1 ≤ capacity := Nat.succ_le_of_lt (not_le.mp beyond)
            have more : capacity - start = (capacity - (start + 1)) + 1 := by omega
            rw [if_neg beyond, more, List.take_succ_cons, List.forall_mem_cons, List.length_cons]
            cases readable : page.readable with
            | false => simp
            | true =>
                rw [if_pos rfl, ih next, Nat.add_assoc, Nat.add_comm 1 rest.length,
                  Nat.add_assoc, Nat.add_comm 1 others]
                simp

/-- What `LoadSegments` does to the new table. -/
theorem run_loadSegments (file : HostFile) (noffH : NoffHeader) (memory : Memory)
    : (∀ fault,
        stopsAt (tablePages noffH) memory.frames.numClear 0 (image file noffH.segments)
            = some fault
          → ((loadSegments file noffH).run (opened noffH memory)).1 = .error fault)
      ∧ (stopsAt (tablePages noffH) memory.frames.numClear 0 (image file noffH.segments) = none
        → ∃ after taken,
            (loadSegments file noffH).run (opened noffH memory) = (.ok true, after)
            ∧ Placed (opened noffH memory) after 0 (image file noffH.segments) taken) := by
  have places := placesAll_loadFrom file noffH.segments 0
  have stops := places.stops (opened noffH memory)
  have returns := places.returns (opened noffH memory) ⟨_, rfl⟩
  rw [opened_table, newTable_length] at stops returns
  exact ⟨fun fault => stops fault ⟨_, rfl⟩, returns⟩

/-- `LoadSegments` writes only entries of the table, exactly when the pages fit in it, or when
it stops before it gets to the end: because no more frames are clear than the table has
entries, or because a page before is at a negative position in the file.
-/
theorem inBounds_iff (file : HostFile) (noffH : NoffHeader) (memory : Memory)
    : ((loadSegments file noffH).run (opened noffH memory)).1 ≠ .error .outOfBounds
      ↔ pageCount noffH ≤ tablePages noffH
        ∨ memory.frames.numClear ≤ tablePages noffH
        ∨ ∃ page ∈ (image file noffH.segments).take (tablePages noffH),
            page.readable = false := by
  obtain ⟨stops, returns⟩ := run_loadSegments file noffH memory
  have same : ((loadSegments file noffH).run (opened noffH memory)).1 = .error .outOfBounds
      ↔ stopsAt (tablePages noffH) memory.frames.numClear 0 (image file noffH.segments)
          = some .outOfBounds := by
    constructor
    · intro left
      cases stop : stopsAt (tablePages noffH) memory.frames.numClear 0
          (image file noffH.segments) with
      | none =>
          obtain ⟨after, taken, ran, _⟩ := returns stop
          rw [ran] at left
          cases left
      | some fault => exact congrArg some (Except.error.inj ((stops fault stop).symm.trans left))
    · exact stops _
  rw [Ne, same, stopsAt_eq_outOfBounds_iff (Nat.zero_le _), image_length, Nat.zero_add,
    Nat.zero_add, Nat.sub_zero]
  simp only [not_and_or, not_lt, not_forall, Bool.not_eq_true, exists_prop]

/-- Two segments of one byte each need a page more than the table has. -/
theorem two_bytes_overrun
    : ¬∀ (file : HostFile) (noffH : NoffHeader) (memory : Memory),
        (∀ segment ∈ noffH.segments, 0 ≤ segment.1.size)
        → noffH.code.size + noffH.initData.size + noffH.readonlyData.size
            + noffH.uninitData.size + userStackSize < 2147483648
        → ((loadSegments file noffH).run (opened noffH memory)).1 ≠ .error .outOfBounds := by
  intro all
  let empty : Segment := { virtualAddr := 0, inFileAddr := 0, size := 0 }
  let noffH : NoffHeader :=
    {
      noffMagic
      code := { empty with size := 1 }
      initData := { empty with virtualAddr := 1, size := 1 }
      readonlyData := empty
      uninitData := empty
    }
  let memory : Memory := { frames := .new numPhysPages, mainMemory := fun _ => 0 }
  refine all [0] noffH memory (by decide) (by decide) ?_
  refine (run_loadSegments [0] noffH memory).1 _ ?_
  change stopsAt _ (Bitmap.new numPhysPages).numClear _ _ = _
  rw [Bitmap.numClear_new, stopsAt_eq_outOfBounds_iff (Nat.zero_le _), image_length]
  refine ⟨by decide, by decide, fun page member => ?_⟩
  exact image_readable (by decide) page (List.mem_of_mem_take member)

-----------------------------------------------------------------------------------------
-- Programs that do not fit
-----------------------------------------------------------------------------------------

/-- A file with the right magic number is loaded segment by segment into a new table. -/
theorem run_load (magic : (NoffHeader.read stack file).noffMagic = noffMagic)
    (state : Loading)
    : (load stack (some file)).run state
      = (do
          if ← loadSegments file (NoffHeader.read stack file) then return true
          else
            let failed ← Routine.get
            let pageTable ← Routine.lift failed.space.pageTable.delete
            Routine.set { failed with space := { failed.space with pageTable } }
            return false : LoadRoutine Bool).run
          (opened (NoffHeader.read stack file) state.memory) := by
  simp only [load]
  rw [Routine.run_bind_ok (Routine.run_assert_of magic _ state),
    Routine.run_bind_ok (Routine.run_get state), Routine.run_bind_ok (Routine.run_set _ state)]
  rfl

/-- `Load` stops when `LoadSegments` does. -/
theorem load_stops {fault : Fault}
    (magic : (NoffHeader.read stack file).noffMagic = noffMagic)
    (stop
      : stopsAt (tablePages (NoffHeader.read stack file)) state.memory.frames.numClear 0
          (image file (NoffHeader.read stack file).segments) = some fault)
    : ((load stack (some file)).run state).1 = .error fault := by
  have stopped := (run_loadSegments file (NoffHeader.read stack file) state.memory).1 fault stop
  rw [run_load magic]
  cases outcome : (loadSegments file (NoffHeader.read stack file)).run
      (opened (NoffHeader.read stack file) state.memory) with
  | mk result after =>
      rw [outcome] at stopped
      obtain rfl : result = .error fault := stopped
      rw [Routine.run_bind_error outcome]

/-- A load that nothing stops returns with its image placed, from the load of the segments. -/
theorem load_returns (magic : (NoffHeader.read stack file).noffMagic = noffMagic)
    (free
      : stopsAt (tablePages (NoffHeader.read stack file)) state.memory.frames.numClear 0
          (image file (NoffHeader.read stack file).segments) = none)
    : ∃ after taken,
        (load stack (some file)).run state = (.ok true, after)
        ∧ Placed (opened (NoffHeader.read stack file) state.memory) after 0
            (image file (NoffHeader.read stack file).segments) taken := by
  obtain ⟨after, taken, ran, placed⟩ :=
    (run_loadSegments file (NoffHeader.read stack file) state.memory).2 free
  refine ⟨after, taken, ?_, placed⟩
  rw [run_load magic, Routine.run_bind_ok ran]
  rfl

theorem run_load_badMagic (bad : (NoffHeader.read stack file).noffMagic ≠ noffMagic)
    : (load stack (some file)).run state = (.error .assertion, state) := by
  rw [load, Routine.run_bind_error (Routine.run_assert_not bad _ state)]

/-- `Load` returns FALSE with every frame given back, and the destructor can follow. -/
def FailsCleanly (stack : Buffer) (file : HostFile) (state : Loading) : Prop :=
  ∃ after,
    (load stack (some file)).run state = (.ok false, after)
    ∧ after.memory.frames = state.memory.frames
    ∧ after.space.destroy after.memory.frames ≠ .error .danglingPointer
    ∧ after.space.destroy after.memory.frames ≠ .error .doubleDelete

/-- A program that needs more frames than are clear stops the kernel. -/
theorem load_stops_of_full
    (few : state.memory.frames.numClear < pageCount (NoffHeader.read stack file))
    : ∃ fault, ((load stack (some file)).run state).1 = .error fault := by
  by_cases magic : (NoffHeader.read stack file).noffMagic = noffMagic
  · cases stop : stopsAt (tablePages (NoffHeader.read stack file))
        state.memory.frames.numClear 0 (image file (NoffHeader.read stack file).segments) with
    | none =>
        have enough := (stopsAt_eq_none_iff.mp stop).1
        rw [image_length] at enough
        exact absurd few (not_lt.mpr enough)
    | some fault => exact ⟨fault, load_stops magic stop⟩
  · exact ⟨.assertion, congrArg Prod.fst (run_load_badMagic magic)⟩

/-- `Load` never reports that the frames do not suffice. -/
theorem not_failsCleanly
    (few : state.memory.frames.numClear < pageCount (NoffHeader.read stack file))
    : ¬FailsCleanly stack file state := by
  rintro ⟨after, ran, _⟩
  obtain ⟨fault, stopped⟩ := load_stops_of_full few
  rw [ran] at stopped
  cases stopped

/-- The header of a program with 128 pages of code. -/
def fullHeader : HostFile :=
  [0xad, 0xdf, 0xba, 0, 0, 0, 0, 0, 52, 0, 0, 0, 0, 64, 0, 0] ++ List.replicate 36 0

theorem pageCount_fullHeader (stack : Buffer) (rest : HostFile)
    : pageCount (NoffHeader.read stack (fullHeader ++ rest)) = 136 := by
  rw [NoffHeader.read_of_length rfl]
  decide +kernel

theorem noffMagic_fullHeader (stack : Buffer) (rest : HostFile)
    : (NoffHeader.read stack (fullHeader ++ rest)).noffMagic = noffMagic := by
  rw [NoffHeader.read_of_length rfl]
  decide +kernel

/-- Memory in which no program was loaded yet. -/
theorem exists_fresh
    : ∃ state : Loading, state.space = .new ∧ state.memory.frames = .new numPhysPages :=
  ⟨{ space := .new, memory := { frames := .new numPhysPages, mainMemory := fun _ => 0 } },
    rfl, rfl⟩

/-- Witness: a program that needs all frames, and its stack, does not fail cleanly on a fresh
memory.
-/
theorem not_failsCleanly_of_fullHeader
    : ∃ state : Loading,
        state.memory.frames = .new numPhysPages ∧ ¬FailsCleanly (fun _ => 0) fullHeader state := by
  obtain ⟨state, _, fresh⟩ := exists_fresh
  refine ⟨state, fresh, not_failsCleanly ?_⟩
  have pages := pageCount_fullHeader (fun _ => 0) []
  rw [List.append_nil] at pages
  rw [fresh, Bitmap.numClear_new, pages]
  decide

/-- A program of more pages than there are frames stops the kernel. -/
theorem full_memory_stops
    : ¬∀ (stack : Buffer) (file : HostFile) (state : Loading),
        (NoffHeader.read stack file).noffMagic = noffMagic
        → state.memory.frames.numClear < pageCount (NoffHeader.read stack file)
        → FailsCleanly stack file state := by
  intro all
  obtain ⟨code, sixteenK⟩ : ∃ code : HostFile, code.length = 16384 :=
    ⟨List.replicate 16384 1, List.length_replicate⟩
  obtain ⟨state, _, fresh⟩ := exists_fresh
  have few : state.memory.frames.numClear
      < pageCount (NoffHeader.read (fun _ => 0) (fullHeader ++ code)) := by
    rw [fresh, Bitmap.numClear_new, pageCount_fullHeader]
    decide
  obtain ⟨after, ran, _⟩ := all _ _ state (noffMagic_fullHeader _ code) few
  obtain ⟨fault, stopped⟩ := load_stops_of_full few
  rw [ran] at stopped
  cases stopped

end Nachos.UserProg.Mp2
