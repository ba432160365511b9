import Nachos.Lib.Runs
import Nachos.Machine.VirtualMemory
import Nachos.UserProg.Mp2.LoadedImage
import Nachos.UserProg.Mp2.Programs

/-! A program does the same wherever the second kernel loads it. The frames that `Load` finds free
and what was in memory before do not matter: the virtual memory is the one of the file.
-/

namespace Nachos.UserProg.Mp2
open Bytes Mips Routines Routine

variable {state after : Loading} {file : HostFile} {noffH : NoffHeader} {stack : Buffer}

-----------------------------------------------------------------------------------------
-- The bits of the page table
-----------------------------------------------------------------------------------------

/-- Whether the segments put a read-only page at a number, from a page on. -/
def marksReadOnly : Nat → List (Segment × Bool) → Nat → Bool
  | _, [], _ => false
  | start, (segment, readOnly) :: rest, vpn =>
      if vpn < start + Segment.numPages segment then readOnly
      else marksReadOnly (start + Segment.numPages segment) rest vpn

/-- No page was used, and the pages that are in memory are read-only where they should be. -/
def Marked (marks : Nat → Bool) (state : Loading) : Prop :=
  ∀ (vpn : Nat) entry, state.table[vpn]? = some entry
    → entry.use = false ∧ entry.dirty = false ∧ entry.readOnly = (marks vpn && entry.valid)

variable {marks : Nat → Bool}

theorem keeps_marked_findAndSet : Keeps (Marked marks) findAndSet :=
  keeps_get_bind (fun _ marked => marked)

theorem keeps_marked_writeMemory (address : Nat) (source : Buffer) (count : Nat)
    : Keeps (Marked marks) (writeMemory address source count) :=
  keeps_bind (keeps_assert _ _) (fun _ => keeps_get_bind (fun _ marked => marked))

/-- An entry may change to one with the right bits. -/
theorem keeps_marked_modifyEntry {vpn : Nat} {change : TranslationEntry → TranslationEntry}
    (right
      : ∀ entry, entry.use = false ∧ entry.dirty = false
        → (change entry).use = false ∧ (change entry).dirty = false
          ∧ (change entry).readOnly = (marks vpn && (change entry).valid))
    : Keeps (Marked marks) (modifyEntry vpn change) := by
  refine keeps_get_bind (fun state marked => ?_)
  cases there : state.space.pageTable with
  | null => exact marked
  | deleted => exact marked
  | entries table =>
      rw [PageTable.access_entries, run_bind_ok (run_lift _ _)]
      have same : state.table = table := by
        rw [Loading.table, there]
        rfl
      cases found : table[vpn]? with
      | none => exact marked
      | some entry =>
          intro page other foundAfter
          change (table.set vpn (change entry))[page]? = some other at foundAfter
          rw [List.getElem?_set] at foundAfter
          by_cases hit : vpn = page
          · subst hit
            rw [if_pos rfl, if_pos (List.getElem?_eq_some_iff.mp found).1] at foundAfter
            obtain rfl := Option.some.inj foundAfter
            obtain ⟨use, dirty, _⟩ := marked vpn entry (by rw [same, found])
            exact right entry ⟨use, dirty⟩
          · rw [if_neg hit] at foundAfter
            exact marked page other (by rw [same, foundAfter])

theorem keeps_marked_exceptionHandler : Keeps (Marked marks) exceptionHandler := keeps_throw _

/-- A page of a segment gets the mark of its segment. -/
theorem keeps_marked_loadPage (segment : Segment) {startVPN i : Nat} {readOnly : Bool}
    (right : marks (startVPN + i) = readOnly)
    : Keeps (Marked marks) (loadPage file segment startVPN readOnly i) := by
  refine keeps_bind keeps_marked_findAndSet (fun pageid => keeps_ite ?_ ?_)
  · exact keeps_bind keeps_marked_exceptionHandler (fun _ => keeps_pure false)
  · refine keeps_bind (keeps_marked_modifyEntry (fun entry unused => ?_)) (fun _ => ?_)
    · exact ⟨unused.1, unused.2, by rw [right, Bool.and_true]⟩
    · refine keeps_bind (keeps_marked_writeMemory _ _ _) (fun _ => ?_)
      exact keeps_bind (keeps_lift _) (fun _ =>
        keeps_bind (keeps_marked_writeMemory _ _ _) (fun _ => keeps_pure true))

/-- A page of the stack is not read-only. -/
theorem keeps_marked_stackPage {currVPN i : Nat} (right : marks (currVPN + i) = false)
    : Keeps (Marked marks) (stackPage currVPN i) := by
  refine keeps_bind keeps_marked_findAndSet (fun pageid => keeps_ite ?_ ?_)
  · exact keeps_bind keeps_marked_exceptionHandler (fun _ => keeps_pure false)
  · refine keeps_bind (keeps_marked_modifyEntry (fun entry _ => ?_)) (fun _ => ?_)
    · exact ⟨rfl, rfl, by rw [right]; rfl⟩
    · exact keeps_bind (keeps_marked_writeMemory _ _ _) (fun _ => keeps_pure true)

/-- A part that is followed by the rest when it succeeds. -/
theorem keeps_then {property : Loading → Prop} {first rest : LoadRoutine Bool}
    (keepsFirst : Keeps property first) (keepsRest : Keeps property rest)
    : Keeps property (do if ← first then rest else return false) :=
  keeps_bind keepsFirst (fun _ => keeps_ite keepsRest (keeps_pure false))

/-- All pages of a segment, by induction on the turns of the loop. -/
theorem keeps_marked_loadPages (segment : Segment) {startVPN : Nat} {readOnly : Bool}
    {turns : List Nat} (right : ∀ i ∈ turns, marks (startVPN + i) = readOnly)
    : Keeps (Marked marks) (loadPages file segment startVPN readOnly turns) := by
  induction turns with
  | nil => exact keeps_pure true
  | cons i rest ih =>
      obtain ⟨first, others⟩ := List.forall_mem_cons.mp right
      exact keeps_then (keeps_marked_loadPage segment first) (ih others)

/-- All pages of the stack, by induction on the turns of the loop. -/
theorem keeps_marked_stackPages {currVPN : Nat} {turns : List Nat}
    (right : ∀ i ∈ turns, marks (currVPN + i) = false)
    : Keeps (Marked marks) (stackPages currVPN turns) := by
  induction turns with
  | nil => exact keeps_pure true
  | cons i rest ih =>
      obtain ⟨first, others⟩ := List.forall_mem_cons.mp right
      exact keeps_then (keeps_marked_stackPage first) (ih others)

/-- The segments mark their pages, by induction on them. -/
theorem keeps_marked_loadFrom {segments : List (Segment × Bool)} {currVPN : Nat}
    (right : ∀ vpn, currVPN ≤ vpn → marks vpn = marksReadOnly currVPN segments vpn)
    : Keeps (Marked marks) (loadFrom file currVPN segments) := by
  induction segments generalizing currVPN with
  | nil => exact keeps_marked_stackPages (fun i _ => right _ (Nat.le_add_right _ _))
  | cons first rest ih =>
      obtain ⟨segment, readOnly⟩ := first
      have others (vpn : Nat) (above : currVPN + Segment.numPages segment ≤ vpn)
          : marks vpn = marksReadOnly (currVPN + Segment.numPages segment) rest vpn := by
        rw [right vpn (by omega), marksReadOnly, if_neg (by omega)]
      rw [loadFrom]
      split
      · refine keeps_then (keeps_marked_loadPages segment (fun i member => ?_)) (ih others)
        have small := List.mem_range.mp member
        rw [right _ (Nat.le_add_right _ _), marksReadOnly, if_pos (by omega)]
      · rename_i empty
        rw [numPages_of_nonpos empty, Nat.add_zero] at others
        exact ih others

/-- A table without valid pages is marked, whatever the marks. -/
theorem marked_opened (memory : Memory) : Marked marks (opened noffH memory) := by
  intro vpn entry found
  have invalid := opened_invalid noffH memory entry (List.mem_of_getElem? found)
  rw [opened_table] at found
  obtain ⟨i, _, rfl⟩ := List.mem_map.mp (List.mem_of_getElem? found)
  exact ⟨rfl, rfl, by rw [invalid, Bool.and_false]⟩

-----------------------------------------------------------------------------------------
-- Two loads
-----------------------------------------------------------------------------------------

/-- The machine when the program that was loaded starts. -/
def atStart (loaded : Loading) : Machine :=
  {
    registers := initRegisters loaded.space.numPages
    mainMemory := loaded.memory.mainMemory
    pageTable := loaded.table
  }

/-- What a `Load` that returned TRUE left. -/
theorem placed_of_load (loaded : (load stack (some file)).run state = (.ok true, after))
    : Marked (marksReadOnly 0 (NoffHeader.read stack file).segments) after
      ∧ ∃ taken,
          Placed (opened (NoffHeader.read stack file) state.memory) after 0
            (image file (NoffHeader.read stack file).segments) taken := by
  by_cases magic : (NoffHeader.read stack file).noffMagic = noffMagic
  · cases stop : stopsAt (tablePages (NoffHeader.read stack file)) state.memory.frames.numClear 0
        (image file (NoffHeader.read stack file).segments) with
    | some fault =>
        have stopped := load_stops magic stop
        rw [loaded] at stopped
        cases stopped
    | none =>
        obtain ⟨final, taken, ran, placed⟩ :=
          (run_loadSegments file (NoffHeader.read stack file) state.memory).2 stop
        have returned := loaded
        rw [run_load magic, run_bind_ok ran] at returned
        obtain rfl : final = after := congrArg Prod.snd returned
        have marked := @keeps_marked_loadFrom file
          (marksReadOnly 0 (NoffHeader.read stack file).segments)
          (NoffHeader.read stack file).segments 0 (fun _ _ => rfl)
          (opened (NoffHeader.read stack file) state.memory)
          (@marked_opened (NoffHeader.read stack file) _ state.memory)
        rw [show loadFrom file 0 (NoffHeader.read stack file).segments
          = loadSegments file (NoffHeader.read stack file) from rfl, ran] at marked
        exact ⟨marked, taken, placed⟩
  · rw [run_load_badMagic magic] at loaded
    cases loaded

variable {pages : List Page} {taken : List Int} {vpn : Nat} {entry : TranslationEntry}
  {memory : Memory}

/-- The entries of a page table after `Load`: those of pages, each in its frame, and others that
cannot be used.
-/
theorem Placed.held (placed : Placed (opened noffH memory) after 0 pages taken)
    (found : after.table[vpn]? = some entry)
    : (entry.valid = decide (vpn < pages.length))
      ∧ (vpn < pages.length
        → taken[vpn]? = some (home entry : Int) ∧ home entry < numPhysPages) := by
  by_cases inside : vpn < pages.length
  · have within : vpn < taken.length := placed.count ▸ inside
    obtain ⟨other, there, valid, same⟩ := placed.mapped vpn within
    rw [Nat.zero_add, found] at there
    obtain rfl := Option.some.inj there
    have bounds := placed.takes.inside _ (List.getElem_mem within)
    have small : (numPhysPages : Int) = 128 := rfl
    have number : (home entry : Int) = taken[vpn] := by
      rw [home, CInt.unsigned, same]
      omega
    refine ⟨valid.trans (decide_eq_true inside).symm, fun _ => ⟨?_, ?_⟩⟩
    · rw [List.getElem?_eq_getElem within, number]
    · omega
  · have same := placed.others vpn (.inr (by omega))
    have invalid := opened_invalid _ _ entry (List.mem_of_getElem? (same.symm.trans found))
    exact ⟨invalid.trans (decide_eq_false inside).symm, fun within => absurd within inside⟩

/-- Pages that were placed lie in separate frames of the memory. -/
theorem Placed.separate (placed : Placed (opened noffH memory) after 0 pages taken)
    : Separate after.table where
  inside vpn entry found valid := by
    obtain ⟨same, there⟩ := placed.held found
    exact (there (of_decide_eq_true (same.symm.trans valid))).2
  distinct vpn other entry another found foundToo valid validToo same := by
    obtain ⟨sameValid, there⟩ := placed.held found
    obtain ⟨sameValid', there'⟩ := placed.held foundToo
    have first := (there (of_decide_eq_true (sameValid.symm.trans valid))).1
    have second := (there' (of_decide_eq_true (sameValid'.symm.trans validToo))).1
    have inside := (List.getElem?_eq_some_iff.mp first).1
    refine (List.getElem?_inj inside placed.takes.distinct).mp ?_
    rw [first, second, same]

/-- Two loads of a file show the same virtual memory. -/
theorem sameView_of_loads {stack other : Buffer} {state state' first second : Loading}
    (same : NoffHeader.read stack file = NoffHeader.read other file)
    (loaded : (load stack (some file)).run state = (.ok true, first))
    (again : (load other (some file)).run state' = (.ok true, second))
    : SameView (atStart first) (atStart second) := by
  obtain ⟨marked, taken, placed⟩ := placed_of_load loaded
  obtain ⟨marked', taken', placed'⟩ := placed_of_load again
  rw [← same] at marked' placed'
  have numPages : first.space.numPages = second.space.numPages :=
    placed.numPages.trans placed'.numPages.symm
  have length : first.table.length = second.table.length :=
    placed.length.trans placed'.length.symm
  refine ⟨congrArg initRegisters numPages, ?_, ⟨placed.separate, placed'.separate⟩, ?_⟩
  · refine List.ext_getElem? (fun vpn => ?_)
    change (first.table.map flags)[vpn]? = (second.table.map flags)[vpn]?
    rw [List.getElem?_map, List.getElem?_map]
    cases found : first.table[vpn]? with
    | none =>
        rw [List.getElem?_eq_none_iff] at found
        rw [List.getElem?_eq_none (length ▸ found)]
    | some entry =>
        have inside := (List.getElem?_eq_some_iff.mp found).1
        have there := List.getElem?_eq_getElem (length ▸ inside)
        obtain ⟨use, dirty, readOnly⟩ := marked vpn entry found
        obtain ⟨use', dirty', readOnly'⟩ := marked' vpn _ there
        have valid := (placed.held found).1
        have valid' := (placed'.held there).1
        rw [there, Option.map_some, Option.map_some, flags, flags, use, use', dirty, dirty',
          readOnly, readOnly', valid, valid']
  · intro vpn entry another found foundToo valid offset inside
    obtain ⟨sameValid, there⟩ := placed.held found
    have within := of_decide_eq_true (sameValid.symm.trans valid)
    have here := (there within).1
    have hereToo := ((placed'.held foundToo).2 within).1
    exact (placed.content vpn within _ here offset inside).trans
      (placed'.content vpn within _ hereToo offset inside).symm

/-- No system call brings bytes. -/
def Event.Plain : Event → Prop
  | .instruction => True
  | .call answer => answer.data = []

/-- Events that bring no bytes have the same effect on two programs with the same view, by induction
on the events.
-/
theorem related_follow {events : List Event} (plain : ∀ event ∈ events, event.Plain)
    {program other : Program} (both : program.Related SameView other)
    : Option.Rel (Program.Related SameView) (Runs.follow Program.next events program)
        (Runs.follow Program.next events other) := by
  induction events generalizing program other with
  | nil => exact .some both
  | cons event rest ih =>
      obtain ⟨first, others⟩ := List.forall_mem_cons.mp plain
      have pair := related_next accessible_sameView both event (by
        rintro answer rfl _ _
        have none : answer.data = [] := first
        have same (machine : Machine) : withData answer machine = machine := by
          rw [withData, none]
          exact congrArg (fun mainMemory => { machine with mainMemory })
            (blit_zero _ _ _)
        rw [same, same]
        exact both.machine)
      rw [Runs.follow, Runs.follow]
      cases here : program.next event with
      | none =>
          rw [here] at pair
          cases there : other.next event with
          | none => exact .none
          | some final =>
              rw [there] at pair
              cases pair
      | some after =>
          rw [here] at pair
          cases there : other.next event with
          | none =>
              rw [there] at pair
              cases pair
          | some final =>
              rw [there] at pair
              exact ih others (Option.rel_some_some.mp pair)

/-- The program does the same after both loads, whatever happens to it, by induction on the events. A
file that is as long as a header gives the same header every time (`read_eq_of_length_le`).
-/
theorem events_eq_of_loads {stack other : Buffer} {state state' first second : Loading}
    (same : NoffHeader.read stack file = NoffHeader.read other file)
    (loaded : (load stack (some file)).run state = (.ok true, first))
    (again : (load other (some file)).run state' = (.ok true, second)) {events : List Event}
    (plain : ∀ event ∈ events, event.Plain)
    : Option.Rel (Program.Related SameView)
        (Runs.follow Program.next events { machine := atStart first, trapped := false })
        (Runs.follow Program.next events { machine := atStart second, trapped := false }) :=
  related_follow plain ⟨sameView_of_loads same loaded again, rfl⟩

-----------------------------------------------------------------------------------------
-- A program of nothing but its stack
-----------------------------------------------------------------------------------------

/-- A header of empty segments. The stack begins at address zero, and zeros do nothing. -/
def emptyProgram : HostFile := [0xad, 0xdf, 0xba, 0] ++ List.replicate 48 0

/-- The header of the empty program, read word by word. -/
theorem read_emptyProgram (stack : Buffer)
    : NoffHeader.read stack emptyProgram
      = {
          noffMagic
          code := { virtualAddr := 0, inFileAddr := 0, size := 0 }
          initData := { virtualAddr := 0, inFileAddr := 0, size := 0 }
          readonlyData := { virtualAddr := 0, inFileAddr := 0, size := 0 }
          uninitData := { virtualAddr := 0, inFileAddr := 0, size := 0 }
        } := by
  have whole := @NoffHeader.read_of_length emptyProgram rfl [] stack
  rw [List.append_nil] at whole
  rw [whole]
  decide +kernel

/-- The program is loaded into any eight frames. -/
theorem exists_load_empty {memory : Memory} (room : 8 ≤ memory.frames.numClear)
    : ∃ after taken,
        (load (fun _ => 0) (some emptyProgram)).run { space := .new, memory } = (.ok true, after)
        ∧ Placed (opened (NoffHeader.read (fun _ => 0) emptyProgram) memory) after 0
            (List.replicate 8 blankPage) taken := by
  have header := read_emptyProgram (fun _ => 0)
  have magic : (NoffHeader.read (fun _ => 0) emptyProgram).noffMagic = noffMagic := by
    rw [header]
  have pages : image emptyProgram (NoffHeader.read (fun _ => 0) emptyProgram).segments
      = List.replicate 8 blankPage := by
    rw [header]
    rfl
  have stop
      : stopsAt (tablePages (NoffHeader.read (fun _ => 0) emptyProgram)) memory.frames.numClear 0
          (image emptyProgram (NoffHeader.read (fun _ => 0) emptyProgram).segments)
        = none := by
    refine stopsAt_eq_none_iff.mpr ⟨?_, .inr ?_, image_readable ?_⟩
    · rwa [pages, List.length_replicate]
    · rw [pages, List.length_replicate, header]
      decide
    · rw [header]
      decide
  obtain ⟨after, taken, ran, placed⟩ := @load_returns { space := .new, memory } _ _ magic stop
  rw [pages] at placed
  exact ⟨after, taken, ran, placed⟩

/-- A word of zeros is an instruction that a program passes. -/
theorem exists_next_of_zero {machine : Machine} {place : Nat}
    (translates : Translates machine.pageTable (machine.registers pcReg) 4 false place)
    (zero : Mips.wordAt machine.mainMemory place = 0#32) (none : machine.registers loadReg = 0#32)
    : ∃ after, Program.next { machine, trapped := false } .instruction = some after := by
  obtain ⟨table, _, read⟩ := run_readMem translates
  have pc : (readRegister pcReg).run machine = (.ok (machine.registers pcReg), machine) := rfl
  rw [zero] at read
  obtain ⟨effect, after, operated, loads⟩
      : ∃ effect after,
          (operate (decode 0#32)).run { machine with pageTable := table } = (.ok effect, after)
          ∧ after.registers loadReg = (0#5).setWidth 32 :=
    ⟨_, _, rfl, (registers_set_gpr_special (by decide) _).trans none⟩
  obtain ⟨final, ran⟩ : ∃ final, oneInstruction.run machine = (.ok (), final) := by
    rw [oneInstruction, run_bind_ok pc, run_bind_ok read, run_bind_ok operated]
    exact ⟨_, run_finish loads effect⟩
  rw [Program.next, ran]
  exact ⟨_, rfl⟩

/-- The empty program goes on after a load. -/
theorem exists_next_empty {memory : Memory} {after : Loading} {taken : List Int}
    (placed
      : Placed (opened (NoffHeader.read (fun _ => 0) emptyProgram) memory) after 0
          (List.replicate 8 blankPage) taken)
    : ∃ moved,
        Program.next { machine := atStart after, trapped := false } .instruction = some moved := by
  have length : (List.replicate 8 blankPage).length = 8 := List.length_replicate
  obtain ⟨entry, found, valid, _⟩ := placed.mapped 0 (by rw [placed.count, length]; decide)
  obtain ⟨held, inside⟩ := (placed.held found).2 (by rw [length]; decide)
  have blank (offset : Nat) (small : offset < pageSize)
      : after.memory.mainMemory (home entry * pageSize + offset) = 0 := by
    have content := placed.content 0 (by rw [length]; decide) (home entry) held offset small
    rwa [List.getElem_replicate] at content
  have translates : Translates after.table 0#32 4 false (home entry * pageSize) := by
    have whole : (home entry + 1) * pageSize ≤ memorySize := Nat.mul_le_mul_right pageSize inside
    rw [Nat.succ_mul] at whole
    have page : pageSize = 128 := rfl
    refine translates_iff.mpr ⟨by decide, entry, found, valid, by simp, ?_, rfl, by omega⟩
    rw [home] at inside
    omega
  refine exists_next_of_zero translates ?_ rfl
  have first := blank 0 (by decide)
  rw [Nat.add_zero] at first
  change Mips.wordAt after.memory.mainMemory (home entry * pageSize) = 0#32
  rw [Mips.wordAt, blank 3 (by decide), blank 2 (by decide), blank 1 (by decide), first]
  rfl

/-- A program that is loaded twice, into other frames the second time. -/
theorem events_eq_empty
    : ∃ first second,
        (load (fun _ => 0) (some emptyProgram)).run
            { space := .new, memory := { frames := .new numPhysPages, mainMemory := fun _ => 0 } }
          = (.ok true, first)
        ∧ (load (fun _ => 0) (some emptyProgram)).run { space := .new, memory := first.memory }
          = (.ok true, second)
        ∧ Option.Rel (Program.Related SameView)
            (Runs.follow Program.next [.instruction]
              { machine := atStart first, trapped := false })
            (Runs.follow Program.next [.instruction]
              { machine := atStart second, trapped := false }) := by
  obtain ⟨first, taken, loaded, placed⟩ :=
    @exists_load_empty { frames := .new numPhysPages, mainMemory := fun _ => 0 } (by
      change 8 ≤ (Bitmap.new numPhysPages).numClear
      rw [Bitmap.numClear_new]
      decide)
  have count := placed.takes.count
  rw [placed.count, List.length_replicate] at count
  obtain ⟨second, _, again, _⟩ := @exists_load_empty first.memory (by
    change first.memory.frames.numClear + 8 = (Bitmap.new numPhysPages).numClear at count
    rw [Bitmap.numClear_new] at count
    have size : numPhysPages = 128 := rfl
    omega)
  have same := @NoffHeader.read_eq_of_length_le emptyProgram (by decide) (fun _ => 0) (fun _ => 0)
  exact ⟨first, second, loaded, again, events_eq_of_loads same loaded again (by
    rintro event member
    obtain rfl := List.mem_singleton.mp member
    trivial)⟩

end Nachos.UserProg.Mp2
