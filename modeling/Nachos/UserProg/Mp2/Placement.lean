import Nachos.UserProg.Mp2.AddrSpace

/-! Loading a program as placing one page after the other: which pages there are, when
placing them stops, and what it leaves behind.
-/

namespace Nachos.UserProg.Mp2

open Bytes Routines

/-- A page that `LoadSegments` places. -/
structure Page where
  content : Buffer
  /-- The position in the file that it is read from is valid. -/
  readable : Bool

namespace Loading

def table (loading : Loading) : List TranslationEntry := loading.space.pageTable.table

/-- The page table can be used. -/
def HasTable (loading : Loading) : Prop := ∃ table, loading.space.pageTable = .entries table

end Loading

/-- The frames `taken` hold the pages, and the entries from `start` on map to them. Nothing
else changed.
-/
structure Placed (before after : Loading) (start : Nat) (pages : List Page) (taken : List Int)
    : Prop where
  hasTable : after.HasTable
  numPages : after.space.numPages = before.space.numPages
  length : after.table.length = before.table.length
  count : taken.length = pages.length
  takes : before.memory.frames.Takes after.memory.frames taken
  inside : pages ≠ [] → start + pages.length ≤ before.table.length
  mapped
    : ∀ index (inside : index < taken.length),
        ∃ entry,
          after.table[start + index]? = some entry
          ∧ entry.valid = true
          ∧ entry.physicalPage = taken[index]
  others
    : ∀ vpn, vpn < start ∨ start + pages.length ≤ vpn → after.table[vpn]? = before.table[vpn]?
  content
    : ∀ index (inside : index < pages.length) (frame : Nat), taken[index]? = some (frame : Int)
      → ∀ offset < pageSize,
          after.memory.mainMemory (frame * pageSize + offset) = pages[index].content offset
  spared
    : ∀ address : Nat, ((address / pageSize : Nat) : Int) ∉ taken
      → after.memory.mainMemory address = before.memory.mainMemory address

/-- No page is placed by doing nothing. -/
theorem Placed.refl {loading : Loading} (hasTable : loading.HasTable) (start : Nat)
    : Placed loading loading start [] [] where
  hasTable := hasTable
  numPages := rfl
  length := rfl
  count := rfl
  takes := .refl _
  inside nonempty := absurd rfl nonempty
  mapped _ inside := absurd inside (Nat.not_lt_zero _)
  others _ _ := rfl
  content _ inside := absurd inside (Nat.not_lt_zero _)
  spared _ _ := rfl

/-- Frames taken later are not among those taken first. -/
theorem Placed.apart {first second third : Loading} {start next : Nat} {left right : List Page}
    {leftTaken rightTaken : List Int} (earlier : Placed first second start left leftTaken)
    (later : Placed second third next right rightTaken)
    : ∀ frame ∈ leftTaken, frame ∉ rightTaken := by
  intro frame leftMember rightMember
  have distinct := (earlier.takes.append later.takes).distinct
  exact (List.nodup_append.mp distinct).2.2 frame leftMember frame rightMember rfl

/-- Placing pages behind those already placed. -/
theorem Placed.append {first second third : Loading} {start : Nat} {left right : List Page}
    {leftTaken rightTaken : List Int} (earlier : Placed first second start left leftTaken)
    (later : Placed second third (start + left.length) right rightTaken)
    : Placed first third start (left ++ right) (leftTaken ++ rightTaken) where
  hasTable := later.hasTable
  numPages := later.numPages.trans earlier.numPages
  length := later.length.trans earlier.length
  count := by rw [List.length_append, List.length_append, earlier.count, later.count]
  takes := earlier.takes.append later.takes
  inside := by
    intro nonempty
    rw [List.length_append]
    by_cases rightEmpty : right = []
    · subst rightEmpty
      rw [List.append_nil] at nonempty
      exact earlier.inside nonempty
    · have fits := later.inside rightEmpty
      rw [earlier.length] at fits
      omega
  mapped index inside := by
    rw [List.length_append] at inside
    by_cases old : index < leftTaken.length
    · obtain ⟨entry, found, valid, frame⟩ := earlier.mapped index old
      have below : start + index < start + left.length := by
        rw [earlier.count] at old
        omega
      refine ⟨entry, (later.others _ (.inl below)).trans found, valid, ?_⟩
      rw [List.getElem_append_left old, frame]
    · rw [earlier.count] at old inside
      obtain ⟨entry, found, valid, frame⟩ := later.mapped (index - left.length) (by omega)
      have position : start + left.length + (index - left.length) = start + index := by omega
      rw [position] at found
      refine ⟨entry, found, valid, ?_⟩
      rw [frame, List.getElem_append_right (by rw [earlier.count]; omega)]
      simp only [earlier.count]
  others vpn outside := by
    rw [List.length_append] at outside
    rw [later.others vpn (by omega), earlier.others vpn (by omega)]
  content index inside frame found offset small := by
    rw [List.length_append] at inside
    by_cases old : index < left.length
    · have stored : leftTaken[index]? = some (frame : Int) := by
        rwa [List.getElem?_append_left (by rw [earlier.count]; exact old)] at found
      have member : (frame : Int) ∈ leftTaken := List.mem_of_getElem? stored
      have page : (frame * pageSize + offset) / pageSize = frame := by
        rw [Nat.mul_comm, Nat.mul_add_div (by decide), Nat.div_eq_of_lt small, Nat.add_zero]
      rw [later.spared _ (by rw [page]; exact earlier.apart later frame member),
        earlier.content index old frame stored offset small, List.getElem_append_left old]
    · have stored : rightTaken[index - left.length]? = some (frame : Int) := by
        rwa [List.getElem?_append_right (by rw [earlier.count]; omega), earlier.count] at found
      rw [later.content _ (by omega) frame stored offset small,
        List.getElem_append_right (by omega)]
  spared address outside := by
    rw [List.mem_append, not_or] at outside
    rw [later.spared address outside.2, earlier.spared address outside.1]

-----------------------------------------------------------------------------------------
-- One page
-----------------------------------------------------------------------------------------

/-- A routine places a page: it needs a free frame, then an entry in the table, then a valid
position in the file.
-/
structure Places (routine : LoadRoutine Bool) (vpn : Nat) (page : Page) : Prop where
  full
    : ∀ state : Loading, state.memory.frames.numClear = 0
      → (routine.run state).1 = .error .assertion
  outside
    : ∀ state : Loading, state.HasTable → 0 < state.memory.frames.numClear
      → state.table.length ≤ vpn
      → (routine.run state).1 = .error .outOfBounds
  unreadable
    : ∀ state : Loading, state.HasTable → 0 < state.memory.frames.numClear
      → vpn < state.table.length
      → page.readable = false
      → (routine.run state).1 = .error .assertion
  returns
    : ∀ state : Loading, state.HasTable → 0 < state.memory.frames.numClear
      → vpn < state.table.length
      → page.readable = true
      → ∃ after frame,
          routine.run state = (.ok true, after) ∧ Placed state after vpn [page] [frame]

/-- Page `i` of a segment, as it is read into a frame that was zeroed. -/
def segmentPage (file : HostFile) (segment : Segment) (i : Nat) : Page :=
  let remainingSize := segment.size - i * pageSize
  let readSize := if remainingSize < pageSize then remainingSize else pageSize
  let position := CInt.wrap (segment.inFileAddr + i * pageSize)
  {
    content := fun offset =>
      if offset < readSize.toNat then file.getD (position.toNat + offset) 0 else 0
    readable := decide (0 ≤ position)
  }

def blankPage : Page := { content := fun _ => 0, readable := true }

/-- The pages of a program, in the order in which they are placed. -/
def image (file : HostFile) : List (Segment × Bool) → List Page
  | [] => List.replicate (userStackSize / pageSize) blankPage
  | (segment, _) :: rest =>
      (List.range (Segment.numPages segment)).map (segmentPage file segment) ++ image file rest

variable {state : Loading} {table : List TranslationEntry} {vpn : Nat}

@[simp]
theorem run_findAndSet (state : Loading)
    : findAndSet.run state
      = (.ok state.memory.frames.findAndSet.1,
          {
            state with
            memory := { state.memory with frames := state.memory.frames.findAndSet.2 }
          }) :=
  rfl

/-- An entry that is in the table is changed without a fault. -/
theorem run_modifyEntry (there : state.space.pageTable = .entries table)
    (change : TranslationEntry → TranslationEntry) (inside : vpn < table.length)
    : (modifyEntry vpn change).run state
      = (.ok (),
          {
            state with
            space := {
              state.space with
              pageTable := .entries (table.set vpn (change table[vpn]))
            }
          }) := by
  have found : table[vpn]? = some table[vpn] := List.getElem?_eq_getElem inside
  rw [modifyEntry, Routine.run_bind_ok (Routine.run_get state), there,
    PageTable.access_entries, Routine.run_bind_ok (Routine.run_lift (.ok table) state)]
  simp only [found]
  rfl

theorem run_modifyEntry_outside (there : state.space.pageTable = .entries table)
    (change : TranslationEntry → TranslationEntry) (outside : table.length ≤ vpn)
    : (modifyEntry vpn change).run state = (.error .outOfBounds, state) := by
  rw [modifyEntry, Routine.run_bind_ok (Routine.run_get state), there,
    PageTable.access_entries, Routine.run_bind_ok (Routine.run_lift (.ok table) state)]
  simp only [List.getElem?_eq_none outside]
  rfl

/-- Bytes are written into the memory when they fit. -/
theorem run_writeMemory {address count : Nat} (fits : address + count ≤ memorySize)
    (source : Buffer) (state : Loading)
    : (writeMemory address source count).run state
      = (.ok (),
          {
            state with
            memory := {
              state.memory with
              mainMemory := blit state.memory.mainMemory address source count
            }
          }) := by
  rw [writeMemory, Routine.run_bind_ok (Routine.run_assert_of fits _ _)]
  rfl

/-- A page placed in the first free frame. -/
theorem placed_single {page : Page} {which : Nat} {frames : Bitmap numPhysPages}
    {mainMemory : Buffer} {entry : TranslationEntry}
    (there : state.space.pageTable = .entries table) (inside : vpn < table.length)
    (takes : state.memory.frames.Takes frames [(which : Int)])
    (valid : entry.valid = true) (frame : entry.physicalPage = which)
    (content : ∀ offset < pageSize, mainMemory (which * pageSize + offset) = page.content offset)
    (spared
      : ∀ address : Nat, address / pageSize ≠ which
        → mainMemory address = state.memory.mainMemory address)
    : Placed state
        {
          space := { state.space with pageTable := .entries (table.set vpn entry) }
          memory := { frames, mainMemory }
        } vpn [page] [(which : Int)] where
  hasTable := ⟨_, rfl⟩
  numPages := rfl
  length := by
    change (table.set vpn entry).length = state.space.pageTable.table.length
    rw [there, List.length_set]
    rfl
  count := rfl
  takes := takes
  inside _ := by
    change vpn + 1 ≤ state.space.pageTable.table.length
    rw [there]
    exact inside
  mapped index small := by
    obtain rfl : index = 0 := Nat.lt_one_iff.mp small
    exact ⟨entry, List.getElem?_set_self inside, valid, frame⟩
  others other outside := by
    have apart : vpn ≠ other := by
      rintro rfl
      rcases outside with before | behind
      · exact lt_irrefl _ before
      · exact Nat.not_succ_le_self _ behind
    change (table.set vpn entry)[other]? = state.space.pageTable.table[other]?
    rw [there, List.getElem?_set_ne apart]
    rfl
  content index small found foundFrame offset inPage := by
    obtain rfl : index = 0 := Nat.lt_one_iff.mp small
    obtain rfl : which = found := Int.natCast_inj.mp (Option.some.inj foundFrame)
    exact content offset inPage
  spared address outside :=
    spared address (fun same => outside (List.mem_singleton.mpr (congrArg _ same)))

/-- The first free frame, and what the search for it leaves. -/
theorem exists_frame (room : 0 < state.memory.frames.numClear)
    : ∃ (which : Nat) (frames : Bitmap numPhysPages),
        state.memory.frames.findAndSet = ((which : Int), frames)
        ∧ which < numPhysPages
        ∧ state.memory.frames.Takes frames [(which : Int)] := by
  obtain ⟨which, frames, found, nonneg, takes⟩ := Bitmap.takes_findAndSet room
  obtain ⟨which, rfl⟩ := Int.eq_ofNat_of_zero_le nonneg
  have inside := (takes.inside _ (List.mem_singleton_self _)).2
  exact ⟨which, frames, found, Int.ofNat_lt.mp inside, takes⟩

theorem frame_fits {which : Nat} (inside : which < numPhysPages)
    : which * pageSize + pageSize ≤ memorySize := by
  rw [memorySize_eq, ← Nat.succ_mul]
  exact Nat.mul_le_mul_right pageSize inside

/-- What both loops do: take a frame, enter it in the table, zero it and fill it. -/
def placeWith (vpn : Nat) (change : Int → TranslationEntry → TranslationEntry)
    (fill : Int → LoadRoutine Bool)
    : LoadRoutine Bool := do
  let pageid ← findAndSet
  if pageid = -1 then
    exceptionHandler
    return false
  modifyEntry vpn (change pageid)
  bzero (pageid.toNat * pageSize) pageSize
  fill pageid

/-- A fill of a zeroed frame leaves the content of the page there, if it can be read. -/
structure Fills (fill : Int → LoadRoutine Bool) (page : Page) : Prop where
  unreadable
    : page.readable = false → ∀ (state : Loading) (which : Nat),
        ((fill which).run state).1 = .error .assertion
  returns
    : page.readable = true → ∀ (state : Loading) (which : Nat), which < numPhysPages
      → (∀ offset < pageSize, state.memory.mainMemory (which * pageSize + offset) = 0)
      → ∃ mainMemory,
          (fill which).run state
            = (.ok true, { state with memory := { state.memory with mainMemory } })
          ∧ (∀ offset < pageSize,
              mainMemory (which * pageSize + offset) = page.content offset)
          ∧ ∀ address : Nat, address / pageSize ≠ which
            → mainMemory address = state.memory.mainMemory address

theorem page_bounds {address which : Nat} (apart : address / pageSize ≠ which)
    : address < which * pageSize ∨ which * pageSize + pageSize ≤ address := by
  rw [pageSize_eq] at apart ⊢
  omega

/-- To take a frame, enter it and fill it places a page, by cases on whether a frame is free. -/
theorem places_placeWith {change : Int → TranslationEntry → TranslationEntry}
    {fill : Int → LoadRoutine Bool} {page : Page} (fills : Fills fill page)
    (valid : ∀ which entry, (change which entry).valid = true)
    (frame : ∀ which entry, (change which entry).physicalPage = which)
    : Places (placeWith vpn change fill) vpn page := by
  -- a free frame is taken and entered in the table before anything is read
  have taken (state : Loading) (which : Nat) (frames : Bitmap numPhysPages)
      (found : state.memory.frames.findAndSet = ((which : Int), frames))
      : (placeWith vpn change fill).run state
        = (do
            modifyEntry vpn (change which)
            bzero (which * pageSize) pageSize
            fill which : LoadRoutine Bool).run
            { state with memory := { state.memory with frames } } := by
    have apart : (which : Int) ≠ -1 := by omega
    rw [placeWith, Routine.run_bind_ok (run_findAndSet state), found]
    simp only [apart, if_false, Int.toNat_natCast]
  have zeroed (state : Loading) (table : List TranslationEntry)
      (there : state.space.pageTable = .entries table) (inside : vpn < table.length)
      (which : Nat) (frames : Bitmap numPhysPages) (small : which < numPhysPages)
      (found : state.memory.frames.findAndSet = ((which : Int), frames))
      : (placeWith vpn change fill).run state
        = (fill which).run
            {
              space := {
                state.space with
                pageTable := .entries (table.set vpn (change which table[vpn]))
              }
              memory := {
                frames
                mainMemory :=
                  blit state.memory.mainMemory (which * pageSize) (fun _ => 0) pageSize
              }
            } := by
    rw [taken state which frames found]
    rw [Routine.run_bind_ok (@run_modifyEntry
      { state with memory := { state.memory with frames } } _ _ there _ inside)]
    rw [bzero, Routine.run_bind_ok (run_writeMemory (frame_fits small) _ _)]
  refine ⟨fun state none => ?_, ?_, ?_, ?_⟩
  · rw [placeWith, Routine.run_bind_ok (run_findAndSet state), Bitmap.findAndSet_of_full none]
    rfl
  · rintro state ⟨table, there⟩ room beyond
    obtain ⟨which, frames, found, _, _⟩ := exists_frame room
    have outside : table.length ≤ vpn := by
      rw [Loading.table, there] at beyond
      exact beyond
    rw [taken state which frames found, Routine.run_bind_error (@run_modifyEntry_outside
      { state with memory := { state.memory with frames } } _ _ there _ outside)]
  · rintro state ⟨table, there⟩ room within bad
    obtain ⟨which, frames, found, small, _⟩ := exists_frame room
    have inside : vpn < table.length := by
      rw [Loading.table, there] at within
      exact within
    rw [zeroed state table there inside which frames small found]
    exact fills.unreadable bad _ which
  · rintro state ⟨table, there⟩ room within good
    obtain ⟨which, frames, found, small, takes⟩ := exists_frame room
    have inside : vpn < table.length := by
      rw [Loading.table, there] at within
      exact within
    rw [zeroed state table there inside which frames small found]
    have zero (offset : Nat) (inPage : offset < pageSize)
        : blit state.memory.mainMemory (which * pageSize) (fun _ => 0) pageSize
            (which * pageSize + offset) = 0 :=
      blit_inside _ _ (Nat.le_add_right _ _) (Nat.add_lt_add_left inPage _)
    obtain ⟨mainMemory, filled, content, spared⟩ :=
      fills.returns good
        {
          space := {
            state.space with
            pageTable := .entries (table.set vpn (change which table[vpn]))
          }
          memory := {
            frames
            mainMemory := blit state.memory.mainMemory (which * pageSize) (fun _ => 0) pageSize
          }
        } which small zero
    refine ⟨_, which, filled, placed_single there inside takes (valid which _) (frame which _)
      content (fun address apart => ?_)⟩
    rw [spared address apart]
    exact blit_outside state.memory.mainMemory (fun _ => 0) (page_bounds apart)

/-- The stack is left zeroed. -/
theorem places_stackPage (currVPN i : Nat)
    : Places (stackPage currVPN i) (currVPN + i) blankPage := by
  refine @places_placeWith _ (fun pageid _ => _) (fun _ => pure true) blankPage ?_
    (fun _ _ => rfl) (fun _ _ => rfl)
  refine ⟨fun bad => Bool.noConfusion bad, fun _ state which _ zero => ?_⟩
  exact ⟨state.memory.mainMemory, rfl, zero, fun _ _ => rfl⟩

/-- How `LoadSegment` fills the frame of a page. -/
def fillPage (file : HostFile) (segment : Segment) (i : Nat) (pageid : Int)
    : LoadRoutine Bool := do
  let remainingSize := segment.size - i * pageSize
  let readSize := if remainingSize < pageSize then remainingSize else pageSize
  let data ← Routine.lift
    (file.readAt readSize (CInt.wrap (segment.inFileAddr + i * pageSize)))
  writeMemory (pageid.toNat * pageSize) (Bytes.ofList data) data.length
  return true

/-- What a file has from a position on, for at most so many bytes. -/
theorem ofList_take_drop (file : HostFile) (position count offset : Nat)
    : Bytes.ofList ((file.drop position).take count) offset
      = if offset < count then file.getD (position + offset) 0 else 0 := by
  rw [Bytes.ofList, List.getD_eq_getElem?_getD, List.getElem?_take]
  split
  · rw [List.getElem?_drop, ← List.getD_eq_getElem?_getD]
  · rfl

/-- The part of the file that the page shows is read into its frame. -/
theorem fills_fillPage (file : HostFile) (segment : Segment) (i : Nat)
    : Fills (fillPage file segment i) (segmentPage file segment i) where
  unreadable bad state which := by
    have negative : ¬0 ≤ CInt.wrap (segment.inFileAddr + i * pageSize) := by
      simpa [segmentPage] using bad
    rw [fillPage, HostFile.readAt, if_neg negative]
    rfl
  returns good state which small zero := by
    have position : 0 ≤ CInt.wrap (segment.inFileAddr + i * pageSize) := by
      simpa [segmentPage] using good
    generalize inside : (file.drop (CInt.wrap (segment.inFileAddr + i * pageSize)).toNat).take
      (if segment.size - i * pageSize < pageSize then segment.size - i * pageSize
        else pageSize).toNat = data
    have short : data.length ≤ pageSize := by
      rw [← inside, List.length_take]
      split <;> omega
    have fits : which * pageSize + data.length ≤ memorySize :=
      (Nat.add_le_add_left short _).trans (frame_fits small)
    have content (offset : Nat)
        : Bytes.ofList data offset = (segmentPage file segment i).content offset := by
      rw [← inside, ofList_take_drop]
      rfl
    refine ⟨blit state.memory.mainMemory (which * pageSize) (Bytes.ofList data) data.length,
      ?_, fun offset inPage => ?_, fun address apart => ?_⟩
    · rw [fillPage, HostFile.readAt, if_pos position, inside,
        Routine.run_bind_ok (Routine.run_lift (.ok data) state), Int.toNat_natCast,
        Routine.run_bind_ok (run_writeMemory fits _ state)]
      rfl
    · by_cases filled : offset < data.length
      · rw [blit_inside _ _ (Nat.le_add_right _ _) (Nat.add_lt_add_left filled _),
          Nat.add_sub_cancel_left, content]
      · rw [blit_outside _ _ (.inr (Nat.add_le_add_left (not_lt.mp filled) _)), zero offset inPage,
          ← content, Bytes.ofList, List.getD_eq_getElem?_getD,
          List.getElem?_eq_none (not_lt.mp filled), Option.getD_none]
    · refine blit_outside _ _ ?_
      rcases page_bounds apart with before | behind
      · exact .inl before
      · exact .inr ((Nat.add_le_add_left short _).trans behind)

/-- A page of a segment is read from the file. -/
theorem places_loadPage (file : HostFile) (segment : Segment) (startVPN : Nat)
    (readOnly : Bool) (i : Nat)
    : Places (loadPage file segment startVPN readOnly i) (startVPN + i)
        (segmentPage file segment i) :=
  @places_placeWith _
    (fun pageid entry => { entry with physicalPage := pageid, valid := true, readOnly })
    (fillPage file segment i) _ (fills_fillPage file segment i) (fun _ _ => rfl) (fun _ _ => rfl)

-----------------------------------------------------------------------------------------
-- The loops
-----------------------------------------------------------------------------------------

/-- Why placing pages from `start` on stops, if it does: at the first page for which no frame
is clear, the table has no entry or the position in the file is not valid.
-/
def stopsAt (capacity : Nat) : (clear start : Nat) → List Page → Option Fault
  | _, _, [] => none
  | 0, _, _ :: _ => some .assertion
  | clear + 1, start, page :: rest =>
      if capacity ≤ start then some .outOfBounds
      else if page.readable then stopsAt capacity clear (start + 1) rest
      else some .assertion

theorem stopsAt_nil (capacity clear start : Nat) : stopsAt capacity clear start [] = none := by
  cases clear <;> rfl

/-- A routine places pages, one after the other from `start` on. -/
structure PlacesAll (routine : LoadRoutine Bool) (start : Nat) (pages : List Page) : Prop where
  stops
    : ∀ (state : Loading) (fault : Fault), state.HasTable
      → stopsAt state.table.length state.memory.frames.numClear start pages = some fault
      → (routine.run state).1 = .error fault
  returns
    : ∀ state : Loading, state.HasTable
      → stopsAt state.table.length state.memory.frames.numClear start pages = none
      → ∃ after taken,
          routine.run state = (.ok true, after) ∧ Placed state after start pages taken

theorem PlacesAll.nil (start : Nat) : PlacesAll (pure true) start [] where
  stops state fault _ stop := by
    rw [stopsAt_nil] at stop
    cases stop
  returns state hasTable _ := ⟨state, [], rfl, .refl hasTable start⟩

/-- A routine that stops is not followed by another one. -/
theorem run_then_error {first rest : LoadRoutine Bool} {fault : Fault}
    (failed : (first.run state).1 = .error fault)
    : (Routine.run (do if ← first then rest else return false) state).1 = .error fault := by
  cases outcome : first.run state with
  | mk result after =>
      rw [outcome] at failed
      obtain rfl : result = .error fault := failed
      rw [Routine.run_bind_error outcome]

theorem run_then_ok {first rest : LoadRoutine Bool} {middle : Loading}
    (ran : first.run state = (.ok true, middle))
    : Routine.run (do if ← first then rest else return false) state = rest.run middle := by
  rw [Routine.run_bind_ok ran, if_pos rfl]

theorem Placed.numClear {before after : Loading} {start : Nat} {pages : List Page}
    {taken : List Int} (placed : Placed before after start pages taken)
    : after.memory.frames.numClear = before.memory.frames.numClear - pages.length := by
  have count := placed.takes.count
  rw [placed.count] at count
  omega

/-- Placing the first page uses one frame and one entry. -/
theorem PlacesAll.cons {first rest : LoadRoutine Bool} {start : Nat} {page : Page}
    {pages : List Page} (head : Places first start page)
    (tail : PlacesAll rest (start + 1) pages)
    : PlacesAll (do if ← first then rest else return false) start (page :: pages) where
  stops state fault hasTable stop := by
    cases clear : state.memory.frames.numClear with
    | zero =>
        rw [clear, stopsAt] at stop
        obtain rfl := Option.some.inj stop
        exact run_then_error (head.full state clear)
    | succ others =>
        have room : 0 < state.memory.frames.numClear := clear ▸ Nat.succ_pos others
        rw [clear, stopsAt] at stop
        by_cases beyond : state.table.length ≤ start
        · rw [if_pos beyond] at stop
          obtain rfl := Option.some.inj stop
          exact run_then_error (head.outside state hasTable room beyond)
        · have inside := not_le.mp beyond
          rw [if_neg beyond] at stop
          cases readable : page.readable with
          | false =>
              rw [readable, if_neg Bool.false_ne_true] at stop
              obtain rfl := Option.some.inj stop
              exact run_then_error (head.unreadable state hasTable room inside readable)
          | true =>
              obtain ⟨middle, frame, ran, placed⟩ :=
                head.returns state hasTable room inside readable
              rw [readable, if_pos rfl] at stop
              rw [run_then_ok ran]
              refine tail.stops middle fault placed.hasTable ?_
              rwa [placed.length, placed.numClear, clear]
  returns state hasTable free := by
    cases clear : state.memory.frames.numClear with
    | zero =>
        rw [clear, stopsAt] at free
        cases free
    | succ others =>
        have room : 0 < state.memory.frames.numClear := clear ▸ Nat.succ_pos others
        rw [clear, stopsAt] at free
        split at free
        · cases free
        · have inside := not_le.mp ‹_›
          split at free
          · obtain ⟨middle, frame, ran, placed⟩ :=
              head.returns state hasTable room inside ‹_›
            have next := tail.returns middle placed.hasTable
              (by rwa [placed.length, placed.numClear, clear])
            obtain ⟨after, taken, ranRest, placedRest⟩ := next
            exact ⟨after, frame :: taken, (run_then_ok ran).trans ranRest,
              placed.append placedRest⟩
          · cases free

/-- Pages behind others stop only if the others do not, by induction on the others. -/
theorem stopsAt_append (capacity : Nat) (left right : List Page) (clear start : Nat)
    : stopsAt capacity clear start (left ++ right)
      = (stopsAt capacity clear start left).or
          (stopsAt capacity (clear - left.length) (start + left.length) right) := by
  induction left generalizing clear start with
  | nil => rw [stopsAt_nil]; rfl
  | cons page rest ih =>
      cases clear with
      | zero => rfl
      | succ others =>
          rw [List.cons_append, stopsAt, stopsAt, ih, List.length_cons, Nat.add_sub_add_right,
            Nat.add_assoc, Nat.add_comm 1]
          split
          · rfl
          · split <;> rfl

/-- Two routines, one after the other. -/
theorem PlacesAll.append {first rest : LoadRoutine Bool} {start : Nat} {left right : List Page}
    (earlier : PlacesAll first start left) (later : PlacesAll rest (start + left.length) right)
    : PlacesAll (do if ← first then rest else return false) start (left ++ right) where
  stops state fault hasTable stop := by
    rw [stopsAt_append] at stop
    cases begun : stopsAt state.table.length state.memory.frames.numClear start left with
    | some fault' =>
        rw [begun] at stop
        obtain rfl := Option.some.inj stop
        exact run_then_error (earlier.stops state _ hasTable begun)
    | none =>
        obtain ⟨middle, taken, ran, placed⟩ := earlier.returns state hasTable begun
        rw [begun, Option.none_or] at stop
        rw [run_then_ok ran]
        refine later.stops middle fault placed.hasTable ?_
        rwa [placed.length, placed.numClear]
  returns state hasTable free := by
    rw [stopsAt_append, Option.or_eq_none_iff] at free
    obtain ⟨middle, taken, ran, placed⟩ := earlier.returns state hasTable free.1
    obtain ⟨after, others, ranRest, placedRest⟩ := later.returns middle placed.hasTable
      (by rw [placed.length, placed.numClear]; exact free.2)
    exact ⟨after, taken ++ others, (run_then_ok ran).trans ranRest, placed.append placedRest⟩

/-- The pages of a segment are placed, by induction on the turns of the loop. -/
theorem placesAll_loadPages (file : HostFile) (segment : Segment) (startVPN : Nat)
    (readOnly : Bool) (first count : Nat)
    : PlacesAll (loadPages file segment startVPN readOnly (List.range' first count))
        (startVPN + first) ((List.range' first count).map (segmentPage file segment)) := by
  induction count generalizing first with
  | zero => exact .nil _
  | succ count ih =>
      rw [List.range'_succ, List.map_cons, loadPages]
      exact .cons (places_loadPage file segment startVPN readOnly first) (ih (first + 1))

theorem placesAll_loadSegment (file : HostFile) (segment : Segment) (startVPN : Nat)
    (readOnly : Bool)
    : PlacesAll (loadSegment file segment startVPN readOnly) startVPN
        ((List.range (Segment.numPages segment)).map (segmentPage file segment)) := by
  rw [loadSegment, List.range_eq_range']
  exact placesAll_loadPages file segment startVPN readOnly 0 _

/-- The pages of the stack are placed, by induction on the turns of the loop. -/
theorem placesAll_stackPages (currVPN first count : Nat)
    : PlacesAll (stackPages currVPN (List.range' first count)) (currVPN + first)
        (List.replicate count blankPage) := by
  induction count generalizing first with
  | zero => exact .nil _
  | succ count ih =>
      rw [List.range'_succ, List.replicate_succ, stackPages]
      exact .cons (places_stackPage currVPN first) (ih (first + 1))

/-- A segment that is empty, or whose size is negative, has no pages. -/
theorem numPages_of_nonpos {segment : Segment} (empty : ¬0 < segment.size)
    : Segment.numPages segment = 0 := by
  obtain ⟨size, same⟩ : ∃ size, segment.size = -size := ⟨-segment.size, (neg_neg _).symm⟩
  have nonneg : 0 ≤ size := by omega
  have quotient : 0 ≤ size.tdiv pageSize := Int.tdiv_nonneg nonneg (Int.natCast_nonneg _)
  have remainder : 0 ≤ size.tmod pageSize := Int.tmod_nonneg _ nonneg
  rw [Segment.numPages, CInt.divRoundUp, same, Int.neg_tdiv, Int.neg_tmod, if_neg (by omega)]
  omega

/-- The segments that are left and the stack, by induction on the segments. -/
theorem placesAll_loadFrom (file : HostFile) (segments : List (Segment × Bool)) (currVPN : Nat)
    : PlacesAll (loadFrom file currVPN segments) currVPN (image file segments) := by
  induction segments generalizing currVPN with
  | nil =>
      rw [loadFrom, image, List.range_eq_range']
      exact placesAll_stackPages currVPN 0 _
  | cons head rest ih =>
      obtain ⟨segment, readOnly⟩ := head
      rw [loadFrom, image]
      split
      · refine (placesAll_loadSegment file segment currVPN readOnly).append ?_
        rw [List.length_map, List.length_range]
        exact ih _
      · rw [numPages_of_nonpos ‹_›]
        exact ih currVPN

end Nachos.UserProg.Mp2
