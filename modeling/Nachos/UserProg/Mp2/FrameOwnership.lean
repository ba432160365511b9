import Nachos.KernelLib.Ownership
import Nachos.Lib.Runs
import Nachos.UserProg.Mp2.LoadedImage

/-! Address spaces that come and go: every frame in use is mapped by one of them, once.
-/

namespace Nachos.UserProg

open Bytes Routines

namespace AddrSpace

/-- The page table has as many entries as the address space says. -/
inductive Tabled : AddrSpace → Prop where
  | new : Tabled .new
  | loaded (table : List TranslationEntry)
      : Tabled { pageTable := .entries table, numPages := table.length }

/-- Frames are cleared one after the other, by induction on them. -/
theorem clearFrames_eq {held : List Int} (frames : Bitmap numPhysPages)
    (inside : ∀ which ∈ held, 0 ≤ which ∧ which < numPhysPages)
    : ∃ cleared, clearFrames frames held = .ok cleared ∧ frames.Releases cleared held := by
  induction held generalizing frames with
  | nil => exact ⟨frames, rfl, fun which => by simp⟩
  | cons which rest ih =>
      obtain ⟨first, others⟩ := List.forall_mem_cons.mp inside
      obtain ⟨cleared, done, releases⟩ := ih (frames.clearBit which.toNat) others
      refine ⟨cleared, ?_, (Bitmap.releases_clearBit frames first).append releases⟩
      simp only [clearFrames, Bitmap.clear_of_inside frames first, done]

/-- The destructor gives back the frames that the address space maps. -/
theorem Tabled.destroy {space : AddrSpace} (tabled : space.Tabled)
    (frames : Bitmap numPhysPages)
    (inside : ∀ which ∈ space.frames, 0 ≤ which ∧ which < numPhysPages)
    : ∃ cleared, space.destroy frames = .ok cleared ∧ frames.Releases cleared space.frames := by
  cases tabled with
  | new => exact ⟨frames, rfl, fun which => by simp [AddrSpace.frames, AddrSpace.new,
      PageTable.table, validFrames]⟩
  | loaded table =>
      obtain ⟨cleared, done, releases⟩ := clearFrames_eq frames inside
      refine ⟨cleared, ?_, releases⟩
      rw [AddrSpace.frames, PageTable.table] at done
      by_cases empty : table.length = 0
      · obtain rfl := List.length_eq_zero_iff.mp empty
        exact done
      · simp only [AddrSpace.destroy, PageTable.access, PageTable.delete, empty, ne_eq,
          not_false_eq_true, if_true, lt_irrefl, if_false, List.take_length, done, bind,
          Except.bind, pure, Except.pure]

end AddrSpace

namespace Mp2

variable {state after : Loading} {file : HostFile} {stack : Buffer}

/-- A `Load` that succeeds maps the frames that it takes, and no others, and writes only to
them.
-/
theorem exists_taken (loaded : (load stack (some file)).run state = (.ok true, after))
    : ∃ taken,
        state.memory.frames.Takes after.memory.frames taken
        ∧ after.space.frames = taken
        ∧ after.space.Tabled
        ∧ ∀ address : Nat, ((address / pageSize : Nat) : Int) ∉ taken
            → after.memory.mainMemory address = state.memory.mainMemory address := by
  by_cases magic : (NoffHeader.read stack file).noffMagic = noffMagic
  · cases stop : stopsAt (tablePages (NoffHeader.read stack file)) state.memory.frames.numClear 0
        (image file (NoffHeader.read stack file).segments) with
    | some fault =>
        have stopped := load_stops magic stop
        rw [loaded] at stopped
        cases stopped
    | none =>
        obtain ⟨final, taken, ran, placed⟩ := load_returns magic stop
        rw [loaded] at ran
        obtain rfl : after = final := congrArg Prod.snd ran
        refine ⟨taken, placed.takes, frames_of_placed placed (opened_invalid _ _), ?_,
          placed.spared⟩
        obtain ⟨table, there⟩ := placed.hasTable
        have length := placed.length
        rw [opened_table, newTable_length, Loading.table, there] at length
        have numPages := placed.numPages
        rw [opened_numPages, ← length] at numPages
        have whole : after.space = { pageTable := .entries table, numPages := table.length } := by
          rw [← there]
          exact congrArg (AddrSpace.mk after.space.pageTable) numPages
        rw [whole]
        exact .loaded table
  · rw [run_load_badMagic magic] at loaded
    cases loaded

-----------------------------------------------------------------------------------------
-- Runs
-----------------------------------------------------------------------------------------

/-- The address spaces that exist, by name, and the memory that they share. -/
structure Processes where
  spaces : Nat → Option AddrSpace
  memory : Memory

inductive Operation where
  | construct (name : Nat)
  | load (name : Nat) (stack : Buffer) (file : HostFile)
  | destroy (name : Nat)

namespace Processes

/-- No program was started yet. -/
def initial (mainMemory : Buffer) : Processes :=
  { spaces := fun _ => none, memory := { frames := .new numPhysPages, mainMemory } }

/-- The operations that do not fail, on address spaces that exist. -/
inductive Step (condition : Processes → Operation → Prop)
    : Processes → Operation → Processes → Prop where
  | construct {state : Processes} {name : Nat} (allowed : condition state (.construct name))
      (unused : state.spaces name = none)
      : Step condition state (.construct name)
          { state with spaces := Function.update state.spaces name (some .new) }
  | load {state : Processes} {name : Nat} {stack : Buffer} {file : HostFile} {space : AddrSpace}
      {after : Loading} (allowed : condition state (.load name stack file))
      (found : state.spaces name = some space)
      (loaded
        : (Mp2.load stack (some file)).run { space, memory := state.memory } = (.ok true, after))
      : Step condition state (.load name stack file)
          {
            spaces := Function.update state.spaces name (some after.space)
            memory := after.memory
          }
  | destroy {state : Processes} {name : Nat} {space : AddrSpace}
      {frames : Bitmap numPhysPages} (allowed : condition state (.destroy name))
      (found : state.spaces name = some space)
      (destroyed : space.destroy state.memory.frames = .ok frames)
      : Step condition state (.destroy name)
          {
            spaces := Function.update state.spaces name none
            memory := { state.memory with frames }
          }

/-- An address space is loaded at most once. -/
def LoadsOnce (state : Processes) : Operation → Prop
  | .load name _ _ => state.spaces name = some .new
  | _ => True

/-- The frames that the valid entries of an address space map to. -/
def held (state : Processes) (name : Nat) : List Int :=
  (state.spaces name).elim [] AddrSpace.frames

/-- Every frame in use is mapped once. -/
structure Exclusive (state : Processes) : Prop where
  heldBy : state.memory.frames.HeldBy state.held
  tabled : ∀ name space, state.spaces name = some space → space.Tabled

theorem held_update (state : Processes) (name : Nat) (space : Option AddrSpace)
    (memory : Memory)
    : held { spaces := Function.update state.spaces name space, memory }
      = Function.update state.held name (space.elim [] AddrSpace.frames) :=
  Function.comp_update (fun space => Option.elim space [] AddrSpace.frames) state.spaces name space

/-- A new space that has its table leaves all with theirs, by cases on the name. -/
theorem tabled_update {state : Processes} {name : Nat} {next : Option AddrSpace}
    (tabled : ∀ name space, state.spaces name = some space → space.Tabled)
    (fresh : ∀ space, next = some space → space.Tabled)
    : ∀ other space, Function.update state.spaces name next other = some space
      → space.Tabled := by
  intro other space found
  by_cases same : other = name
  · subst same
    rw [Function.update_self] at found
    exact fresh space found
  · rw [Function.update_of_ne same] at found
    exact tabled other space found

/-- A new address space has no frames yet. -/
theorem Exclusive.construct {state : Processes} {name : Nat} (exclusive : state.Exclusive)
    (unused : state.spaces name = none)
    : Exclusive { state with spaces := Function.update state.spaces name (some .new) } where
  heldBy := by
    have nothing : state.held name = [] := by
      rw [held, unused]
      rfl
    rw [held_update state name (some .new) state.memory]
    change state.memory.frames.HeldBy (Function.update state.held name [])
    rw [← nothing, Function.update_eq_self]
    exact exclusive.heldBy
  tabled := tabled_update exclusive.tabled
    (fun space same => Option.some.inj same ▸ .new)

/-- Loading an address space that maps nothing. -/
theorem Exclusive.load {state : Processes} {name : Nat} {stack : Buffer} {file : HostFile}
    {after : Loading} (exclusive : state.Exclusive) (fresh : state.spaces name = some .new)
    (loaded
      : (Mp2.load stack (some file)).run { space := .new, memory := state.memory }
        = (.ok true, after))
    : Exclusive
        {
          spaces := Function.update state.spaces name (some after.space)
          memory := after.memory
        } := by
  obtain ⟨taken, takes, maps, tabled, _⟩ := exists_taken loaded
  refine ⟨?_, tabled_update exclusive.tabled (fun space same => Option.some.inj same ▸ tabled)⟩
  have nothing : state.held name = [] := by
    rw [held, fresh]
    rfl
  rw [held_update state name (some after.space) after.memory]
  change after.memory.frames.HeldBy (Function.update state.held name after.space.frames)
  rw [maps]
  exact exclusive.heldBy.take nothing takes

/-- The destructor returns, and gives back what the address space maps. -/
theorem Exclusive.destroy {state : Processes} {name : Nat} {space : AddrSpace}
    (exclusive : state.Exclusive) (found : state.spaces name = some space)
    : ∃ frames,
        space.destroy state.memory.frames = .ok frames
        ∧ Exclusive
            {
              spaces := Function.update state.spaces name none
              memory := { state.memory with frames }
            } := by
  have maps : state.held name = space.frames := by
    rw [held, found]
    rfl
  have inside := exclusive.heldBy.inside name
  rw [maps] at inside
  obtain ⟨frames, done, releases⟩ :=
    (exclusive.tabled name space found).destroy state.memory.frames inside
  refine ⟨frames, done, ?_, tabled_update exclusive.tabled (fun _ same => by cases same)⟩
  rw [held_update state name none { state.memory with frames }]
  change frames.HeldBy (Function.update state.held name [])
  rw [← maps] at releases
  exact exclusive.heldBy.release releases

/-- Every step keeps the frames of the processes apart, by cases on it. -/
theorem Exclusive.step {state after : Processes} {operation : Operation}
    (exclusive : state.Exclusive) (step : Step LoadsOnce state operation after)
    : after.Exclusive := by
  cases step with
  | construct _ unused => exact exclusive.construct unused
  | load once found loaded =>
      obtain rfl := Option.some.inj (found.symm.trans once)
      exact exclusive.load once loaded
  | destroy _ found destroyed =>
      obtain ⟨frames, done, kept⟩ := exclusive.destroy found
      obtain rfl := Except.ok.inj (destroyed.symm.trans done)
      exact kept

/-- The program of one page and its stack is loaded into any nine frames. -/
theorem exists_load_page (space : AddrSpace) {memory : Memory}
    (room : 9 ≤ memory.frames.numClear)
    : ∃ after taken,
        (Mp2.load (fun _ => 0) (some (pageProgram 0))).run { space, memory } = (.ok true, after)
        ∧ memory.frames.Takes after.memory.frames taken
        ∧ after.space.frames = taken
        ∧ taken.length = 9 := by
  have header := read_pageProgram (.inl rfl) (fun _ => 0)
  have magic : (NoffHeader.read (fun _ => 0) (pageProgram 0)).noffMagic = noffMagic := by
    rw [header]
  have pages : pageCount (NoffHeader.read (fun _ => 0) (pageProgram 0)) = 9 := by
    rw [header]
    decide
  have entries : tablePages (NoffHeader.read (fun _ => 0) (pageProgram 0)) = 9 := by
    rw [header]
    decide
  have length := image_length (pageProgram 0) (NoffHeader.read (fun _ => 0) (pageProgram 0))
  have stop
      : stopsAt (tablePages (NoffHeader.read (fun _ => 0) (pageProgram 0)))
          memory.frames.numClear 0
          (image (pageProgram 0) (NoffHeader.read (fun _ => 0) (pageProgram 0)).segments)
        = none := by
    refine stopsAt_eq_none_iff.mpr ⟨?_, .inr ?_, image_readable ?_⟩
    · rw [length, pages]
      exact room
    · rw [length, pages, entries]
    · rw [header]
      decide
  obtain ⟨after, taken, ran, placed⟩ :=
    @load_returns { space, memory } _ _ magic stop
  refine ⟨after, taken, ran, placed.takes, frames_of_placed placed (opened_invalid _ _), ?_⟩
  rw [placed.count, length, pages]

end Processes

end Mp2

end Nachos.UserProg
