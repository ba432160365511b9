import Nachos.UserProg.Mp3.AddrSpace

/-! Which programs `Load` admits. It compares the number of pages with the clear frames again in
every turn of the loop that takes them.
-/

namespace Nachos.UserProg.Mp3

open Bytes Routines

/-- The entry of a page in a frame. -/
def newEntry (i : Nat) (freePage : Int) : TranslationEntry :=
  {
    virtualPage := i
    physicalPage := freePage
    valid := true
    readOnly := false
    use := false
    dirty := false
  }

/-- The entries of pages from `first` on. -/
def newEntries : Nat → List Int → List TranslationEntry
  | _, [] => []
  | first, freePage :: rest => newEntry first freePage :: newEntries (first + 1) rest

variable {numPages count : Nat} {state : Loading} {filled unset : List TranslationEntry}

/-- A turn stops the machine unless there are as many clear frames as pages. -/
theorem run_allocatePage_few (few : state.memory.frames.numClear < numPages) (i : Nat)
    : (allocatePage numPages i).run state = (.error .memoryLimitException, state) := by
  rw [allocatePage, Routine.run_bind_ok (Routine.run_get state),
    Routine.run_bind_error (Routine.run_assert_not (not_not.mpr few) _ state)]

/-- The next entry of the table is set, as long as there is room. -/
theorem run_setEntry (there : state.space.pageTable = .entries (filled ++ unset))
    (room : 0 < unset.length) (entry : TranslationEntry)
    : (setEntry filled.length entry).run state
      = (.ok (),
          {
            state with
            space := {
              state.space with
              pageTable := .entries (filled ++ entry :: unset.tail)
            }
          }) := by
  have inside : filled.length < (filled ++ unset).length := by
    rw [List.length_append]
    omega
  rw [setEntry, Routine.run_bind_ok (Routine.run_get state), there, PageTable.access_entries]
  simp only [attempt]
  rw [Routine.run_bind_ok (Routine.run_pure _ state),
    Routine.run_bind_ok (Routine.run_assert_of inside _ state)]
  cases unset with
  | nil => exact absurd room (lt_irrefl 0)
  | cons first rest =>
      rw [List.set_append_right _ _ (le_refl _), Nat.sub_self, List.set_cons_zero, List.tail_cons]
      rfl

/-- Otherwise it takes a frame for the next page. -/
theorem run_allocatePage (there : state.space.pageTable = .entries (filled ++ unset))
    (room : 0 < unset.length) (enough : numPages ≤ state.memory.frames.numClear)
    (positive : 0 < numPages)
    : ∃ freePage frames,
        (allocatePage numPages filled.length).run state
          = (.ok (),
              {
                space := {
                  state.space with
                  pageTable := .entries (filled ++ newEntry filled.length freePage :: unset.tail)
                }
                memory := { state.memory with frames }
              })
        ∧ state.memory.frames.Takes frames [freePage]
        ∧ state.memory.frames.free = freePage :: frames.free := by
  obtain ⟨freePage, frames, found, nonneg, takes⟩ :=
    Bitmap.takes_findAndSet (positive.trans_le enough)
  refine ⟨freePage, frames, ?_, takes, Bitmap.free_eq_cons found nonneg⟩
  have taken : findAndSet.run state
      = (.ok freePage, { state with memory := { state.memory with frames } }) := by
    rw [findAndSet, Routine.run_bind_ok (Routine.run_get state), found]
    rfl
  have apart : freePage ≠ -1 := by omega
  rw [allocatePage, Routine.run_bind_ok (Routine.run_get state),
    Routine.run_bind_ok (Routine.run_assert_of (not_lt.mpr enough) _ state),
    Routine.run_bind_ok taken, Routine.run_bind_ok (Routine.run_assert_of apart _ _)]
  exact @run_setEntry { state with memory := { state.memory with frames } } _ _ there room _

-----------------------------------------------------------------------------------------
-- The loop
-----------------------------------------------------------------------------------------

theorem newEntries_length (first : Nat) (taken : List Int)
    : (newEntries first taken).length = taken.length := by
  induction taken generalizing first with
  | nil => rfl
  | cons freePage rest ih => rw [newEntries, List.length_cons, List.length_cons, ih]

/-- Every turn finds enough clear frames if the last one does, by induction on the turns. -/
theorem run_allocatePages (there : state.space.pageTable = .entries (filled ++ unset))
    (room : count ≤ unset.length) (enough : numPages + count ≤ state.memory.frames.numClear + 1)
    (positive : 0 < numPages)
    : ∃ taken frames,
        (allocatePages numPages (List.range' filled.length count)).run state
          = (.ok (),
              {
                space := {
                  state.space with
                  pageTable :=
                    .entries (filled ++ newEntries filled.length taken ++ unset.drop count)
                }
                memory := { state.memory with frames }
              })
        ∧ state.memory.frames.Takes frames taken
        ∧ taken.length = count
        ∧ state.memory.frames.free = taken ++ frames.free := by
  induction count generalizing state filled unset with
  | zero =>
      refine ⟨[], state.memory.frames, ?_, .refl _, rfl, rfl⟩
      rw [newEntries, List.append_nil, List.drop_zero, ← there]
      rfl
  | succ count ih =>
      obtain ⟨freePage, frames, ran, takes, first⟩ :=
        run_allocatePage there (Nat.zero_lt_of_lt room)
          (show numPages ≤ state.memory.frames.numClear by omega) positive
      have clear := takes.count
      rw [List.length_singleton] at clear
      obtain ⟨taken, final, ranRest, takesRest, length, others⟩ :=
        @ih
          {
            space := {
              state.space with
              pageTable := .entries (filled ++ newEntry filled.length freePage :: unset.tail)
            }
            memory := { state.memory with frames }
          }
          (filled ++ [newEntry filled.length freePage]) unset.tail
          (by simp only [List.append_assoc, List.singleton_append])
          (by rw [List.length_tail]; omega) (by simp only; omega)
      refine ⟨freePage :: taken, final, ?_, takes.append takesRest,
        by rw [List.length_cons, length], by rw [first, others, List.cons_append]⟩
      rw [List.range'_succ, allocatePages, Routine.run_bind_ok ran]
      rw [List.length_append, List.length_singleton] at ranRest
      rw [ranRest, newEntries, List.drop_tail]
      simp only [List.append_assoc, List.cons_append, List.nil_append]

/-- Some turn does not, if the last one does not, by induction on the turns. -/
theorem run_allocatePages_few (there : state.space.pageTable = .entries (filled ++ unset))
    (room : count ≤ unset.length) (few : state.memory.frames.numClear + 1 < numPages + count)
    (positive : 0 < numPages) (turns : 0 < count)
    : ((allocatePages numPages (List.range' filled.length count)).run state).1
      = .error .memoryLimitException := by
  induction count generalizing state filled unset with
  | zero => exact absurd turns (lt_irrefl 0)
  | succ count ih =>
      rw [List.range'_succ, allocatePages]
      by_cases enough : numPages ≤ state.memory.frames.numClear
      · obtain ⟨freePage, frames, ran, takes, _⟩ :=
          run_allocatePage there (Nat.zero_lt_of_lt room) enough positive
        have clear := takes.count
        rw [List.length_singleton] at clear
        rw [Routine.run_bind_ok ran]
        have next := @ih
          {
            space := {
              state.space with
              pageTable := .entries (filled ++ newEntry filled.length freePage :: unset.tail)
            }
            memory := { state.memory with frames }
          }
          (filled ++ [newEntry filled.length freePage]) unset.tail
          (by simp only [List.append_assoc, List.singleton_append])
          (by rw [List.length_tail]; omega) (by simp only; omega) (by omega)
        rwa [List.length_append, List.length_singleton] at next
      · rw [Routine.run_bind_error (run_allocatePage_few (not_le.mp enough) _)]

-----------------------------------------------------------------------------------------
-- Admission
-----------------------------------------------------------------------------------------

variable {heap : Nat → TranslationEntry} {noffH : NoffHeader}

/-- The state in which the loop starts. -/
def opened (heap : Nat → TranslationEntry) (noffH : NoffHeader) (memory : Memory) : Loading :=
  {
    space := {
      pageTable := .entries ((List.range (tablePages noffH)).map heap)
      numPages := tablePages noffH
    }
    memory
  }

theorem run_allocate (state : Loading)
    : (allocate heap noffH).run state
      = (do
          allocatePages (tablePages noffH) (List.range' 0 (tablePages noffH))
          Routine.assert (tablePages noffH ≤ numPhysPages) (.fault .assertion)
          : LoadRoutine Unit).run (opened heap noffH state.memory) := by
  simp only [allocate]
  rw [Routine.run_bind_ok (Routine.run_get state), Routine.run_bind_ok (Routine.run_set _ state),
    opened, List.range_eq_range']

theorem opened_table (memory : Memory)
    : (opened heap noffH memory).space.pageTable
      = .entries ([] ++ (List.range (tablePages noffH)).map heap) :=
  rfl

theorem opened_room
    : tablePages noffH ≤ ((List.range (tablePages noffH)).map heap).length := by
  rw [List.length_map, List.length_range]

/-- With almost twice as many clear frames as pages all pages get a frame. -/
theorem allocate_returns (enough : 2 * tablePages noffH ≤ state.memory.frames.numClear + 1)
    : ∃ taken frames,
        (allocate heap noffH).run state
          = (.ok (),
              {
                space := {
                  pageTable := .entries (newEntries 0 taken)
                  numPages := tablePages noffH
                }
                memory := { state.memory with frames }
              })
        ∧ state.memory.frames.Takes frames taken
        ∧ taken.length = tablePages noffH
        ∧ taken = state.memory.frames.free.take (tablePages noffH) := by
  have few := Bitmap.numClear_le state.memory.frames
  have small : tablePages noffH ≤ numPhysPages := by omega
  rw [run_allocate]
  by_cases positive : 0 < tablePages noffH
  · obtain ⟨taken, frames, ran, takes, length, order⟩ :=
      run_allocatePages (opened_table state.memory) (@opened_room heap noffH)
        (by rw [← Nat.two_mul]; exact enough) positive
    change state.memory.frames.free = taken ++ frames.free at order
    refine ⟨taken, frames, ?_, takes, length, by rw [order, List.take_left' length]⟩
    rw [List.length_nil] at ran
    rw [Routine.run_bind_ok ran, Routine.run_assert_of small, List.nil_append,
      List.drop_of_length_le (by rw [List.length_map, List.length_range]), List.append_nil]
    rfl
  · have zero : tablePages noffH = 0 := by omega
    refine ⟨[], state.memory.frames, ?_, .refl _, zero.symm, by rw [zero, List.take_zero]⟩
    rw [opened, zero]
    rfl

/-- With fewer the machine is halted. -/
theorem allocate_stops (few : state.memory.frames.numClear + 1 < 2 * tablePages noffH)
    : ((allocate heap noffH).run state).1 = .error .memoryLimitException := by
  have positive : 0 < tablePages noffH := by omega
  have stopped := run_allocatePages_few (opened_table state.memory) (@opened_room heap noffH)
    (by rw [← Nat.two_mul]; exact few) positive positive
  rw [run_allocate]
  cases outcome : (allocatePages (tablePages noffH) (List.range' 0 (tablePages noffH))).run
      (opened heap noffH state.memory) with
  | mk result after =>
      rw [List.length_nil, outcome] at stopped
      obtain rfl : result = .error .memoryLimitException := stopped
      rw [Routine.run_bind_error outcome]

/-- In the first turn, if there are fewer clear frames than pages. -/
theorem allocate_unmarked (few : state.memory.frames.numClear < tablePages noffH)
    : (allocate heap noffH).run state
      = (.error .memoryLimitException, opened heap noffH state.memory) := by
  obtain ⟨turns, same⟩ := Nat.exists_eq_succ_of_ne_zero (Nat.ne_zero_of_lt few)
  have first := @run_allocatePage_few _ (opened heap noffH state.memory) few 0
  have loop : (allocatePages (tablePages noffH) (List.range' 0 (tablePages noffH))).run
      (opened heap noffH state.memory)
      = (.error .memoryLimitException, opened heap noffH state.memory) := by
    have range : List.range' 0 (tablePages noffH) = 0 :: List.range' 1 turns := by
      rw [same, List.range'_succ]
    rw [range, allocatePages, Routine.run_bind_error first]
  rw [run_allocate, Routine.run_bind_error loop]

/-- The segments are reached, with a new frame for every page, exactly if the pages are at most
the clear frames; otherwise the exception comes before any frame is marked.
-/
def AdmitsExactly (heap : Nat → TranslationEntry) (noffH : NoffHeader) (state : Loading)
    : Prop :=
  ((∃ after taken,
      (allocate heap noffH).run state = (.ok (), after)
      ∧ state.memory.frames.Takes after.memory.frames taken
      ∧ taken.length = tablePages noffH)
    ↔ tablePages noffH ≤ state.memory.frames.numClear)
  ∧ (state.memory.frames.numClear < tablePages noffH
    → ∃ after,
        (allocate heap noffH).run state = (.error .memoryLimitException, after)
        ∧ after.memory.frames = state.memory.frames)

/-- `Load` admits exactly the programs that fit, except where the pages fit in the frames that
are clear at first but not in those that are left when the last one is taken.
-/
theorem admitsExactly_iff (heap : Nat → TranslationEntry) (noffH : NoffHeader)
    (state : Loading)
    : AdmitsExactly heap noffH state
      ↔ state.memory.frames.numClear < tablePages noffH
        ∨ 2 * tablePages noffH ≤ state.memory.frames.numClear + 1 := by
  have unmarked (few : state.memory.frames.numClear < tablePages noffH)
      : ∃ after,
          (allocate heap noffH).run state = (.error .memoryLimitException, after)
          ∧ after.memory.frames = state.memory.frames :=
    ⟨_, allocate_unmarked few, rfl⟩
  have returned (enough : 2 * tablePages noffH ≤ state.memory.frames.numClear + 1)
      : ∃ after taken,
          (allocate heap noffH).run state = (.ok (), after)
          ∧ state.memory.frames.Takes after.memory.frames taken
          ∧ taken.length = tablePages noffH := by
    obtain ⟨taken, frames, ran, takes, length, _⟩ := allocate_returns enough
    exact ⟨_, taken, ran, takes, length⟩
  have stopped (few : state.memory.frames.numClear + 1 < 2 * tablePages noffH)
      : ¬∃ after taken,
          (allocate heap noffH).run state = (.ok (), after)
          ∧ state.memory.frames.Takes after.memory.frames taken
          ∧ taken.length = tablePages noffH := by
    rintro ⟨after, taken, ran, _⟩
    have stop := @allocate_stops state heap noffH few
    rw [ran] at stop
    cases stop
  constructor
  · rintro ⟨exactly, _⟩
    by_contra between
    rw [not_or, not_lt, not_le] at between
    exact stopped between.2 (exactly.mpr between.1)
  · rintro (few | enough)
    · refine ⟨iff_of_false (stopped (by omega)) (not_le.mpr few), unmarked⟩
    · by_cases fits : tablePages noffH ≤ state.memory.frames.numClear
      · exact ⟨iff_of_true (returned enough) fits, unmarked⟩
      · refine ⟨iff_of_false (stopped (by omega)) fits, unmarked⟩

/-- A program of 65 pages is not admitted to 128 clear frames. -/
theorem half_of_memory_refused
    : ¬∀ (heap : Nat → TranslationEntry) (noffH : NoffHeader) (state : Loading),
        AdmitsExactly heap noffH state := by
  intro all
  let empty : Segment := { virtualAddr := 0, inFileAddr := 0, size := 0 }
  obtain ⟨noffH, pages⟩ : ∃ noffH, tablePages noffH = 65 :=
    ⟨{
      noffMagic
      code := { empty with inFileAddr := 52, size := 7296 }
      initData := empty
      readonlyData := empty
      uninitData := empty
    }, by decide⟩
  obtain ⟨state, fresh⟩ : ∃ state : Loading, state.memory.frames = .new numPhysPages :=
    ⟨{ space := .new, memory := { frames := .new numPhysPages, mainMemory := fun _ => 0 } }, rfl⟩
  have clear : state.memory.frames.numClear = 128 := by rw [fresh, Bitmap.numClear_new]; rfl
  obtain ⟨after, taken, ran, _⟩ :=
    (all (fun _ => newEntry 0 0) noffH state).1.mpr (by rw [clear, pages]; decide)
  have stop := @allocate_stops state (fun _ => newEntry 0 0) noffH (by rw [clear, pages]; decide)
  rw [ran] at stop
  cases stop

end Nachos.UserProg.Mp3
