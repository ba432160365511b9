import Nachos.Threads.LifeCycle
import Nachos.UserProg.Mp2.FrameOwnership
import Nachos.UserProg.Mp3.LoadIsolation
import Nachos.UserProg.Processes

/-! Whether the frames of a program come back when its thread is deleted, in the second kernel
with its scheduling left open, and in the third with its scheduler.
-/

namespace Nachos.UserProg

open Bytes Routines Threads

-----------------------------------------------------------------------------------------
-- Frames that the loaders map
-----------------------------------------------------------------------------------------

/-- A translation keeps the frames: it changes flags of one entry only. -/
theorem AddrSpace.frames_of_translate {space touched : AddrSpace} {vaddr paddr : Nat}
    {isReadWrite : Bool}
    (translated : space.translate vaddr isReadWrite = .ok (.ok (paddr, touched)))
    : touched.frames = space.frames := by
  rw [translate] at translated
  split at translated
  · cases translated
  · cases there : space.pageTable with
    | null => simp [there, PageTable.access] at translated
    | deleted => simp [there, PageTable.access] at translated
    | entries table =>
        simp only [there, PageTable.access] at translated
        cases found : table[vaddr / pageSize]? with
        | none => simp [found] at translated
        | some entry =>
            simp only [found] at translated
            split at translated
            · cases translated
            · split at translated
              · cases translated
              · split at translated
                · simp only [Except.ok.injEq, Prod.mk.injEq] at translated
                  rw [← translated.2, frames, frames, there]
                  exact validFrames_touch found isReadWrite
                · cases translated

namespace Mp3

variable {state after : Loading} {file : HostFile} {segment : Segment}

theorem validFrames_newEntries (first : Nat) (taken : List Int)
    : AddrSpace.validFrames (newEntries first taken) = taken := by
  induction taken generalizing first with
  | nil => rfl
  | cons frame rest ih => exact congrArg (frame :: ·) (ih (first + 1))

/-- A state of loading with given frames in use and given frames mapped. -/
def Framed (bitmap : Bitmap numPhysPages) (frames : List Int) (state : Loading) : Prop :=
  state.memory.frames = bitmap ∧ state.space.frames = frames

variable {bitmap : Bitmap numPhysPages} {frames : List Int}

theorem keeps_attempt {α : Type} {property : Loading → Prop} (outcome : Except Fault α)
    : Routine.Keeps property (attempt outcome) := by
  cases outcome with
  | ok value => exact Routine.keeps_pure value
  | error fault => exact Routine.keeps_throw _

theorem keeps_writeMemory (address : Int) (data : List Byte)
    : Routine.Keeps (Framed bitmap frames) (writeMemory address data) :=
  Routine.keeps_bind (Routine.keeps_assert _ _)
    (fun _ => Routine.keeps_get_bind (fun _ holds => holds))

/-- To copy a byte takes and returns no frame, by cases on the translation of its address. -/
theorem keeps_copyByte (file : HostFile) (segment : Segment) (i : Nat)
    : Routine.Keeps (Framed bitmap frames) (copyByte file segment i) := by
  refine Routine.keeps_get_bind (fun state holds => ?_)
  cases translated : state.space.translate
      (CInt.unsigned (segment.virtualAddr + i)).toNat true with
  | error fault => exact holds
  | ok result =>
      cases result with
      | error exception => exact holds
      | ok touched =>
          have kept : Framed bitmap frames { state with space := touched.2 } :=
            ⟨holds.1, (AddrSpace.frames_of_translate translated).trans holds.2⟩
          exact Routine.keeps_bind (keeps_attempt _) (fun data => keeps_writeMemory _ data) _ kept

theorem keeps_copySegment (file : HostFile) (segment : Segment)
    : Routine.Keeps (Framed bitmap frames) (copySegment file segment) := by
  rw [copySegment]
  induction List.range (CInt.unsigned segment.size).toNat with
  | nil => exact Routine.keeps_pure ()
  | cons i rest ih => exact Routine.keeps_bind (keeps_copyByte file segment i) (fun _ => ih)

theorem keeps_readReadonlyData (file : HostFile) (segment : Segment)
    : Routine.Keeps (Framed bitmap frames) (readReadonlyData file segment) := by
  rw [readReadonlyData]
  split
  · exact Routine.keeps_bind (keeps_attempt _) (fun data => keeps_writeMemory _ data)
  · exact Routine.keeps_pure ()

/-- A `Load` that succeeds maps the frames that it takes, one for each page. -/
theorem exists_taken {stack : Buffer} {heap : Nat → TranslationEntry}
    (loaded : (load stack heap (some file)).run state = (.ok true, after))
    : state.memory.frames.Takes after.memory.frames after.space.frames
      ∧ after.space.frames.length = tablePages (NoffHeader.read stack file) := by
  simp only [load] at loaded
  obtain ⟨_, first, asserted, rest⟩ := Routine.of_run_bind_ok loaded
  by_cases magic : (NoffHeader.read stack file).noffMagic = noffMagic
  swap
  · rw [Routine.run_assert_not magic] at asserted
    cases asserted
  rw [Routine.run_assert_of magic] at asserted
  obtain rfl : state = first := congrArg Prod.snd asserted
  obtain ⟨_, second, allocated, copied⟩ := Routine.of_run_bind_ok rest
  by_cases enough : 2 * tablePages (NoffHeader.read stack file) ≤ state.memory.frames.numClear + 1
  swap
  · have stopped := @allocate_stops state heap _ (not_le.mp enough)
    rw [allocated] at stopped
    cases stopped
  obtain ⟨taken, bitmap, done, takes, length, _⟩ := @allocate_returns state heap _ enough
  rw [allocated] at done
  obtain rfl := congrArg Prod.snd done
  have start : Framed bitmap taken
      {
        space := {
          pageTable := .entries (newEntries 0 taken)
          numPages := tablePages (NoffHeader.read stack file)
        }
        memory := { state.memory with frames := bitmap }
      } :=
    ⟨rfl, validFrames_newEntries 0 taken⟩
  have kept := Routine.keeps_bind (keeps_copySegment file (NoffHeader.read stack file).code)
    (fun _ => Routine.keeps_bind
      (keeps_copySegment file (NoffHeader.read stack file).initData)
      (fun _ => Routine.keeps_bind
        (keeps_readReadonlyData file (NoffHeader.read stack file).readonlyData)
        (fun _ => Routine.keeps_pure true)))
    _ start
  rw [copied] at kept
  rw [kept.1, kept.2]
  exact ⟨takes, length⟩

/-- `Load` never returns FALSE once the file is open. -/
theorem returned_of_load {stack : Buffer} {heap : Nat → TranslationEntry} {returned : Bool}
    (loaded : (load stack heap (some file)).run state = (.ok returned, after))
    : returned = true := by
  simp only [load] at loaded
  obtain ⟨_, _, _, loaded⟩ := Routine.of_run_bind_ok loaded
  obtain ⟨_, _, _, loaded⟩ := Routine.of_run_bind_ok loaded
  obtain ⟨_, _, _, loaded⟩ := Routine.of_run_bind_ok loaded
  obtain ⟨_, _, _, loaded⟩ := Routine.of_run_bind_ok loaded
  obtain ⟨_, _, _, loaded⟩ := Routine.of_run_bind_ok loaded
  exact (Except.ok.inj (congrArg Prod.fst loaded)).symm

/-- What `Load` makes of a new address space, whatever the file and the memory of the host. -/
def loader : Loader := fun memory returned space after =>
  ∃ stack heap executable,
    (load stack heap executable).run { space := .new, memory }
      = (.ok returned, { space, memory := after })

/-- The load of the second kernel maps the frames that it takes, by cases on whether the file
opens.
-/
theorem loader_mapsTaken : loader.MapsTaken := by
  rintro memory returned space after ⟨stack, heap, executable, ran⟩
  cases executable with
  | none =>
      obtain ⟨rfl, rfl⟩ := Loading.mk.inj (congrArg Prod.snd ran)
      exact .refl _
  | some file =>
      obtain rfl := returned_of_load ran
      exact (exists_taken ran).1

end Mp3

namespace Mp2

/-- `Load` never returns FALSE once the file is open: it stops instead. -/
theorem returned_of_load {stack : Buffer} {file : HostFile} {state after : Loading}
    {returned : Bool} (loaded : (load stack (some file)).run state = (.ok returned, after))
    : returned = true := by
  by_cases magic : (NoffHeader.read stack file).noffMagic = noffMagic
  · cases stop : stopsAt (tablePages (NoffHeader.read stack file)) state.memory.frames.numClear 0
        (image file (NoffHeader.read stack file).segments) with
    | some fault =>
        have stopped := load_stops magic stop
        rw [loaded] at stopped
        cases stopped
    | none =>
        obtain ⟨final, taken, done, _⟩ := load_returns magic stop
        rw [loaded] at done
        exact Except.ok.inj (congrArg Prod.fst done)
  · rw [run_load_badMagic magic] at loaded
    cases loaded

def loader : Loader := fun memory returned space after =>
  ∃ stack executable,
    (load stack executable).run { space := .new, memory }
      = (.ok returned, { space, memory := after })

/-- The load of the third kernel maps the frames that it takes, by cases on whether the file opens.
-/
theorem loader_mapsTaken : loader.MapsTaken := by
  rintro memory returned space after ⟨stack, executable, ran⟩
  cases executable with
  | none =>
      obtain ⟨rfl, rfl⟩ := Loading.mk.inj (congrArg Prod.snd ran)
      exact .refl _
  | some file =>
      obtain rfl := returned_of_load ran
      obtain ⟨taken, takes, rfl, _⟩ := exists_taken ran
      exact takes

-----------------------------------------------------------------------------------------
-- Threads of the second kernel
-----------------------------------------------------------------------------------------

/-- The thread objects of the second kernel. Whether the current thread is in the `Sleep` of its
`Finish`, and whether SWITCH just went over to it, stands for where it goes on.
-/
structure Threads where
  exist : ThreadId → Bool
  currentThread : ThreadId
  finishing : Bool
  switched : Bool
  toBeDestroyed : Option ThreadId

/-- What happens to threads; which one is next to run is left open. -/
inductive Turn where
  | construct (t : ThreadId)
  | finish
  | run (nextThread : ThreadId)
  | checkToBeDestroyed

namespace Threads

/-- The main thread runs. -/
def initial (main : ThreadId) : Threads :=
  {
    exist := fun t => t = main
    currentThread := main
    finishing := false
    switched := false
    toBeDestroyed := none
  }

/-- A thread's own code runs only outside `Sleep` and `Run`. -/
def Legal (threads : Threads) : Turn → Prop
  | .construct t =>
      threads.exist t = false ∧ threads.finishing = false ∧ threads.switched = false
  | .finish => threads.finishing = false ∧ threads.switched = false
  | .run nextThread =>
      threads.exist nextThread ∧ threads.switched = false
      ∧ (threads.finishing → nextThread ≠ threads.currentThread)
  | .checkToBeDestroyed => threads.switched

def perform (turn : Turn) (threads : Threads) : Except Fault Threads :=
  match turn with
  | .construct t => .ok { threads with exist := Function.update threads.exist t true }
  | .finish => .ok { threads with finishing := true }
  | .run nextThread =>
      if threads.finishing ∧ threads.toBeDestroyed ≠ none then .error .assertion
      else
        .ok {
          threads with
          toBeDestroyed :=
            if threads.finishing then some threads.currentThread else threads.toBeDestroyed
          currentThread := nextThread
          finishing := false
          switched := true
        }
  | .checkToBeDestroyed =>
      match threads.toBeDestroyed with
      | none => .ok { threads with switched := false }
      | some t =>
          if t = threads.currentThread then .error .assertion
          else
            .ok {
              threads with
              exist := Function.update threads.exist t false
              toBeDestroyed := none
              switched := false
            }

instance (threads : Threads) (turn : Turn) : Decidable (threads.Legal turn) :=
  match turn with
  | .construct _ => inferInstanceAs (Decidable (_ ∧ _))
  | .finish => inferInstanceAs (Decidable (_ ∧ _))
  | .run _ => inferInstanceAs (Decidable (_ ∧ _))
  | .checkToBeDestroyed => inferInstanceAs (Decidable (_ = true))

/-- The step that a turn takes, if it may come next. -/
def next (threads : Threads) (turn : Turn) : Option Threads :=
  if threads.Legal turn then (threads.perform turn).toOption else none

def machine : ThreadMachine Threads Turn :=
  {
    step := fun threads turn after => threads.next turn = some after
    exist
    running := fun threads =>
      if threads.finishing ∨ threads.switched then none else some threads.currentThread
  }

end Threads

end Mp2

-----------------------------------------------------------------------------------------
-- Threads of the third kernel
-----------------------------------------------------------------------------------------

namespace Mp3

/-- The third kernel runs a thread's own code when the thread is in no call. -/
def machine : ThreadMachine Kernel Kernel.Action :=
  {
    step := Kernel.Step
    exist := fun kernel t => (kernel.scheduler.threads t).isSome
    running := fun kernel =>
      if kernel.control = .thread ∧ kernel.calls kernel.currentThread = [] then
        some kernel.currentThread
      else none
  }

end Mp3

-----------------------------------------------------------------------------------------
-- Runs of both kernels
-----------------------------------------------------------------------------------------

/-- In both kernels the frames in use are those of the threads that exist as long as no thread
is deleted whose address space maps frames; and its deletion leaves its frames in use.
-/
theorem framesReturned_iff_harmless (main : ThreadId) (initPriority : Int) (execExit : Bool)
    (mainMemory : Buffer)
    : (∀ state,
        Runs.Reachable (Processes.HarmlessStep Mp2.Threads.machine Mp2.loader)
          (.initial (.initial main) mainMemory) state
        → state.Returned
          ∧ ∀ operation after,
              Processes.Step Mp2.Threads.machine Mp2.loader state operation after
              → (Processes.Frees Mp2.Threads.machine state after
                  ↔ Processes.Harmless Mp2.Threads.machine state after)
                ∧ (after.Returned ↔ Processes.Harmless Mp2.Threads.machine state after))
      ∧ ∀ first state,
          Kernel.initial main initPriority execExit = .ok first
          → Runs.Reachable (Processes.HarmlessStep Mp3.machine Mp3.loader)
              (.initial first mainMemory) state
          → state.Returned
            ∧ ∀ operation after,
                Processes.Step Mp3.machine Mp3.loader state operation after
                → (Processes.Frees Mp3.machine state after
                    ↔ Processes.Harmless Mp3.machine state after)
                  ∧ (after.Returned ↔ Processes.Harmless Mp3.machine state after) :=
  ⟨fun _ reachable => Processes.returned_iff_harmless Mp2.loader_mapsTaken reachable,
    fun _ _ _ reachable => Processes.returned_iff_harmless Mp3.loader_mapsTaken reachable⟩

-----------------------------------------------------------------------------------------
-- One program
-----------------------------------------------------------------------------------------

/-- In the second kernel the main thread makes two threads and finishes. The first loads its
program and finishes, and the second deletes it.
-/
theorem secondKernel_leaks
    : ∃ state final,
        Runs.Reachable (Processes.HarmlessStep Mp2.Threads.machine Mp2.loader)
          (.initial (.initial 0) (fun _ => 0)) state
        ∧ (state.held 1).length = 9
        ∧ Runs.Reachable (Processes.Step Mp2.Threads.machine Mp2.loader)
          (.initial (.initial 0) (fun _ => 0)) final
        ∧ ¬final.Returned := by
  obtain ⟨loaded, taken, ran, _, rfl, count⟩ :=
    @Mp2.Processes.exists_load_page .new { frames := .new numPhysPages, mainMemory := fun _ => 0 } (by
      change 9 ≤ (Bitmap.new numPhysPages).numClear
      rw [Bitmap.numClear_new]
      decide)
  have tested : Processes.executes Mp2.Threads.machine Mp2.Threads.next 1 (.initial 0)
      [.construct 1, .construct 2] [.finish, .run 1, .checkToBeDestroyed] [.finish, .run 2]
      .checkToBeDestroyed := by
    decide
  obtain ⟨state, final, reached, found, leaked⟩ :=
    Processes.exists_leak (fun _ _ _ moved => moved) Mp2.loader_mapsTaken tested
      ⟨_, _, ran⟩ (by
        rintro empty
        rw [empty] at count
        cases count)
  exact ⟨state, final, reached, (congrArg List.length (Processes.held_of_space found)).trans count,
    leaked⟩

/-- The same in the third kernel, where the timer never comes. -/
theorem thirdKernel_leaks
    : ∃ first state final,
        Kernel.initial 0 50 false = .ok first
        ∧ Runs.Reachable (Processes.HarmlessStep Mp3.machine Mp3.loader)
          (.initial first (fun _ => 0)) state
        ∧ (state.held 1).length = 9
        ∧ Runs.Reachable (Processes.Step Mp3.machine Mp3.loader) (.initial first (fun _ => 0)) final
        ∧ ¬final.Returned := by
  obtain ⟨first, started, _⟩ := Kernel.exists_initial 0 50 false
  obtain ⟨_, loaded, ran⟩ :=
    @Mp3.exists_load_text { space := .new, memory := ⟨.new numPhysPages, fun _ => 0⟩ } (fun _ => 0) 0
      (.inl rfl) (fun i => Mp3.newEntry i 0) (by
        change 19 ≤ (Bitmap.new numPhysPages).numClear
        rw [Bitmap.numClear_new]
        decide)
  have tested : (Kernel.initial 0 50 false).toOption.any (fun first =>
      Processes.executes Mp3.machine Kernel.next 1 first
        [.call (.construct 1 50), .call (.construct 2 50)]
        [
          .call (.fork 1), .call (.fork 2), .call .finish, .findNext, .resume, .handled, .resume
        ]
        [.call .finish, .findNext] .resume) := by
    decide +kernel
  rw [started] at tested
  obtain ⟨maps, count⟩ := Mp3.exists_taken ran
  rw [Mp3.read_textProgram (.inl rfl)] at count
  have pages : loaded.space.frames.length = 9 := count.trans (by decide)
  obtain ⟨state, final, reached, found, leaked⟩ :=
    Processes.exists_leak Kernel.step_of_next Mp3.loader_mapsTaken tested ⟨_, _, _, ran⟩ (by
      rintro empty
      rw [empty] at pages
      cases pages)
  exact ⟨first, state, final, started, reached,
    (congrArg List.length (Processes.held_of_space found)).trans pages, leaked⟩

/-- In neither kernel are all frames returned in every run. -/
theorem exit_leaks
    : (¬∀ main mainMemory state,
        Runs.Reachable (Processes.Step Mp2.Threads.machine Mp2.loader)
          (.initial (.initial main) mainMemory) state
        → state.Returned)
      ∧ ¬∀ main initPriority execExit first,
          Kernel.initial main initPriority execExit = .ok first
          → ∀ mainMemory state,
              Runs.Reachable (Processes.Step Mp3.machine Mp3.loader) (.initial first mainMemory)
                state
              → state.Returned := by
  obtain ⟨_, second, _, _, reachedSecond, leakedSecond⟩ := secondKernel_leaks
  obtain ⟨first, _, third, started, _, _, reachedThird, leakedThird⟩ := thirdKernel_leaks
  exact ⟨fun all => leakedSecond (all 0 _ second reachedSecond),
    fun all => leakedThird (all 0 50 false first started _ third reachedThird)⟩

/-- While the program of each run above is executed the frames in use are its nine. -/
theorem framesReturned_of_running
    : (∃ state : Processes Mp2.Threads, (state.held 1).length = 9 ∧ state.Returned)
      ∧ ∃ state : Processes Kernel, (state.held 1).length = 9 ∧ state.Returned := by
  obtain ⟨second, _, reachedSecond, countSecond, _⟩ := secondKernel_leaks
  obtain ⟨first, third, _, started, reachedThird, countThird, _⟩ := thirdKernel_leaks
  exact ⟨⟨second, countSecond, ((framesReturned_iff_harmless 0 50 false _).1 second reachedSecond).1⟩,
    third, countThird,
    ((framesReturned_iff_harmless 0 50 false _).2 first third started reachedThird).1⟩

end Nachos.UserProg
