import Nachos.KernelLib.Ownership
import Nachos.Lib.Runs
import Nachos.Threads.ReadyQueue
import Nachos.UserProg.PageTable

/-! User processes: threads that point to address spaces, over any scheduling of the threads
and any loader that takes the frames it maps. When a thread is deleted its pointer is gone, and
the address space stays as it is.
-/

namespace Nachos.UserProg

open Bytes Threads

/-- What schedules the threads, and what can be seen of it: which thread objects exist, and
which thread runs its own code.
-/
structure ThreadMachine (σ α : Type) where
  step : σ → α → σ → Prop
  exist : σ → ThreadId → Bool
  running : σ → Option ThreadId

/-- What `Load` makes of a new address space: what it returns, the address space and memory. -/
abbrev Loader := Memory → Bool → AddrSpace → Memory → Prop

/-- A loader that maps the frames that it takes. -/
def Loader.MapsTaken (loader : Loader) : Prop :=
  ∀ memory returned space after,
    loader memory returned space after → memory.frames.Takes after.frames space.frames

/-- The threads with the address spaces that they point to, and physical memory. -/
structure Processes (σ : Type) where
  threads : σ
  space : ThreadId → Option AddrSpace
  memory : Memory

inductive Operation (α : Type) where
  /-- Anything that the threads do. -/
  | schedule (action : α)
  /-- `Exec` gives a new thread an address space. -/
  | newSpace (t : ThreadId)
  /-- `ForkExecute` loads the program of the thread that runs it. -/
  | load

namespace Processes

variable {σ α : Type} {machine : ThreadMachine σ α} {loader : Loader}
  {state after : Processes σ} {operation : Operation α}

/-- The machine is started, with all frames free. -/
def initial (first : σ) (mainMemory : Buffer) : Processes σ :=
  {
    threads := first
    space := fun _ => none
    memory := { frames := .new numPhysPages, mainMemory }
  }

/-- The destructor of `Thread` does not touch `space`. -/
def scheduled (machine : ThreadMachine σ α) (state : Processes σ) (threads : σ) : Processes σ :=
  {
    state with
    threads
    space := fun t => if machine.exist threads t then state.space t else none
  }

/-- The operations that return. -/
inductive Step (machine : ThreadMachine σ α) (loader : Loader)
    : Processes σ → Operation α → Processes σ → Prop where
  | schedule {state : Processes σ} {action : α} {threads : σ}
      (step : machine.step state.threads action threads)
      : Step machine loader state (.schedule action) (state.scheduled machine threads)
  | newSpace {state : Processes σ} {t : ThreadId}
      (running : (machine.running state.threads).isSome)
      (exist : machine.exist state.threads t) (null : state.space t = none)
      : Step machine loader state (.newSpace t)
          { state with space := Function.update state.space t (some .new) }
  | load {state : Processes σ} {t : ThreadId} {returned : Bool} {space : AddrSpace}
      {memory : Memory} (running : machine.running state.threads = some t)
      (exist : machine.exist state.threads t) (found : state.space t = some .new)
      (loaded : loader state.memory returned space memory)
      : Step machine loader state .load
          { state with space := Function.update state.space t (some space), memory }

/-- The frames that the address space of a thread maps. -/
def held (state : Processes σ) (t : ThreadId) : List Int :=
  (state.space t).elim [] AddrSpace.frames

/-- The frames in use are those of the address spaces that threads point to, each one mapped
once; and when these map none, memory is as in a machine just started.
-/
structure Returned (state : Processes σ) : Prop where
  exact : state.memory.frames.HeldBy state.held
  restored
    : (∀ t, state.held t = []) → state.memory.frames = .new numPhysPages

/-- No thread that the operation deletes points to an address space that maps frames. -/
def Harmless (machine : ThreadMachine σ α) (state after : Processes σ) : Prop :=
  ∀ t, machine.exist state.threads t = true → machine.exist after.threads t = false →
    state.held t = []

/-- No frame of a thread that the operation deletes is in use any more. -/
def Frees (machine : ThreadMachine σ α) (state after : Processes σ) : Prop :=
  ∀ t, machine.exist state.threads t = true → machine.exist after.threads t = false →
    ∀ frame ∈ state.held t, after.memory.frames.testBit frame.toNat = false

-----------------------------------------------------------------------------------------
-- One operation
-----------------------------------------------------------------------------------------

/-- Frames are held by threads that exist. -/
structure Sound (machine : ThreadMachine σ α) (state : Processes σ) : Prop where
  exact : state.memory.frames.HeldBy state.held
  housed : ∀ t, machine.exist state.threads t = false → state.space t = none

theorem held_of_space {t : ThreadId} {space : AddrSpace} (found : state.space t = some space)
    : state.held t = space.frames := by
  rw [held, found]
  rfl

theorem held_update (state : Processes σ) (t : ThreadId) (space : AddrSpace) (memory : Memory)
    : held { state with space := Function.update state.space t (some space), memory }
      = Function.update state.held t space.frames :=
  Function.comp_update (fun space => Option.elim space [] AddrSpace.frames) state.space t
    (some space)

theorem held_scheduled (state : Processes σ) (threads : σ) (t : ThreadId)
    : (state.scheduled machine threads).held t
      = if machine.exist threads t then state.held t else [] := by
  simp only [held, scheduled]
  split <;> rfl

/-- A new space with the frames that it has taken keeps the processes sound. -/
theorem Sound.update {t : ThreadId} {space : AddrSpace} {memory : Memory}
    (sound : state.Sound machine) (exist : machine.exist state.threads t)
    (taken : memory.frames.HeldBy (Function.update state.held t space.frames))
    : Sound machine { state with space := Function.update state.space t (some space), memory } := by
  refine ⟨held_update state t space memory ▸ taken, fun other absent => ?_⟩
  change Function.update state.space t (some space) other = none
  rw [Function.update_of_ne]
  · exact sound.housed other absent
  · rintro rfl
    exact Bool.false_ne_true (absent.symm.trans exist)

/-- Threads come and go without harm. -/
theorem Sound.scheduled {threads : σ} (sound : state.Sound machine)
    (harmless : Harmless machine state (state.scheduled machine threads))
    : (state.scheduled machine threads).Sound machine := by
  have same : (state.scheduled machine threads).held = state.held := by
    funext t
    rw [held_scheduled]
    split
    · rfl
    · rename_i gone
      cases before : machine.exist state.threads t with
      | true => exact (harmless t before (Bool.eq_false_iff.mpr gone)).symm
      | false => rw [held, sound.housed t before]; rfl
  refine ⟨same ▸ sound.exact, fun t absent => ?_⟩
  change (if machine.exist threads t then state.space t else none) = none
  exact if_neg (Bool.eq_false_iff.mp absent)

/-- Every operation that deletes no holder of frames keeps the frames owned. -/
theorem Sound.step (maps : loader.MapsTaken) (sound : state.Sound machine)
    (step : Step machine loader state operation after)
    (harmless : Harmless machine state after)
    : after.Sound machine := by
  cases step with
  | schedule _ => exact sound.scheduled harmless
  | newSpace running exist null =>
      rename_i t
      have nothing : state.held t = [] := by
        rw [held, null]
        rfl
      refine @Sound.update _ _ _ _ _ .new state.memory sound exist ?_
      change state.memory.frames.HeldBy (Function.update state.held t [])
      rw [← nothing, Function.update_eq_self]
      exact sound.exact
  | load _ exist found loaded =>
      exact sound.update exist (sound.exact.take (held_of_space found) (maps _ _ _ _ loaded))

theorem initial_sound (machine : ThreadMachine σ α) (first : σ) (mainMemory : Buffer)
    : (initial first mainMemory).Sound machine :=
  ⟨.new (fun _ => rfl), fun _ _ => rfl⟩

/-- Frames that nobody holds are free. -/
theorem returned_of_heldBy (exact : state.memory.frames.HeldBy state.held) : state.Returned := by
  refine ⟨exact, fun none => Bitmap.ext_of_testBit (by decide) (fun which _ => ?_)⟩
  rw [Bitmap.testBit_new, Bool.eq_false_iff, ne_eq, exact.marked]
  rintro ⟨t, member⟩
  rw [none t] at member
  cases member

/-- The frames of a deleted thread stay in use. -/
theorem Sound.frees_iff (sound : state.Sound machine)
    (step : Step machine loader state operation after)
    : Frees machine state after ↔ Harmless machine state after := by
  constructor
  · intro frees t before gone
    cases step with
    | newSpace => exact absurd (gone.symm.trans before) Bool.false_ne_true
    | load => exact absurd (gone.symm.trans before) Bool.false_ne_true
    | schedule =>
        refine List.eq_nil_iff_forall_not_mem.mpr (fun frame member => ?_)
        have clear := frees t before gone frame member
        have nonneg := (sound.exact.inside t frame member).1
        refine Bool.false_ne_true (clear.symm.trans ?_)
        refine (sound.exact.marked frame.toNat).mpr ⟨t, ?_⟩
        rwa [Int.toNat_of_nonneg nonneg]
  · intro harmless t before gone frame member
    rw [harmless t before gone] at member
    cases member

/-- Frames that stay in use belong to no thread any more. -/
theorem Sound.harmless_of_returned (sound : state.Sound machine)
    (step : Step machine loader state operation after) (returned : after.Returned)
    : Harmless machine state after := by
  intro t before gone
  cases step with
  | newSpace => exact absurd (gone.symm.trans before) Bool.false_ne_true
  | load => exact absurd (gone.symm.trans before) Bool.false_ne_true
  | schedule =>
      refine List.eq_nil_iff_forall_not_mem.mpr (fun frame member => ?_)
      have nonneg := (sound.exact.inside t frame member).1
      have inUse : state.memory.frames.testBit frame.toNat = true :=
        (sound.exact.marked frame.toNat).mpr ⟨t, by rwa [Int.toNat_of_nonneg nonneg]⟩
      obtain ⟨owner, own⟩ := (returned.exact.marked frame.toNat).mp inUse
      rw [Int.toNat_of_nonneg nonneg, held_scheduled] at own
      split at own
      · rename_i there
        have apart : owner ≠ t := by
          rintro rfl
          exact Bool.false_ne_true (gone.symm.trans there)
        exact sound.exact.apart owner t apart frame own member
      · cases own

-----------------------------------------------------------------------------------------
-- Runs
-----------------------------------------------------------------------------------------

/-- A step that deletes no thread whose address space maps frames. -/
def HarmlessStep (machine : ThreadMachine σ α) (loader : Loader) (state : Processes σ)
    (operation : Operation α) (after : Processes σ)
    : Prop :=
  Step machine loader state operation after ∧ Harmless machine state after

/-- As long as no holder of frames is deleted the frames in use are those of the threads that
exist, and the first deletion of one leaves its frames in use.
-/
theorem returned_iff_harmless (maps : loader.MapsTaken) {first : σ} {mainMemory : Buffer}
    (reachable : Runs.Reachable (HarmlessStep machine loader) (initial first mainMemory) state)
    : state.Returned
      ∧ ∀ operation after,
          Step machine loader state operation after
          → (Frees machine state after ↔ Harmless machine state after)
            ∧ (after.Returned ↔ Harmless machine state after) := by
  have sound : state.Sound machine :=
    @Runs.Reachable.invariant _ _ _ _ _ (Sound machine) reachable
      (initial_sound machine first mainMemory)
      (fun _ _ _ sound step => sound.step maps step.1 step.2)
  refine ⟨returned_of_heldBy sound.exact, fun operation after step =>
    ⟨sound.frees_iff step, sound.harmless_of_returned step, fun harmless => ?_⟩⟩
  exact returned_of_heldBy (sound.step maps step harmless).exact

-----------------------------------------------------------------------------------------
-- One program
-----------------------------------------------------------------------------------------

section

variable {next : σ → α → Option σ} {start : Processes σ} {threads : σ} {t : ThreadId}

/-- Steps of the threads, computed by `next`, during all of which `t` exists. -/
def keeping (machine : ThreadMachine σ α) (next : σ → α → Option σ) (t : ThreadId) (threads : σ)
    (action : α)
    : Option σ :=
  (next threads action).filter (fun after => machine.exist after t)

/-- Threads are scheduled while the only one with frames exists, by induction on the steps. -/
theorem exists_scheduled
    (computed
      : ∀ threads action after,
          next threads action = some after → machine.step threads action after)
    {actions : List α} (alone : ∀ other, other ≠ t → state.held other = [])
    (before : Runs.Reachable (HarmlessStep machine loader) start state)
    (followed : Runs.follow (keeping machine next t) actions state.threads = some threads)
    : ∃ after,
        Runs.Reachable (HarmlessStep machine loader) start after
        ∧ after.threads = threads
        ∧ after.memory = state.memory
        ∧ after.space t = state.space t
        ∧ ∀ other, other ≠ t → after.held other = [] := by
  induction actions generalizing state with
  | nil => exact ⟨state, before, Option.some.inj followed, rfl, rfl, alone⟩
  | cons action rest ih =>
      obtain ⟨middle, first, others⟩ := Option.bind_eq_some_iff.mp followed
      obtain ⟨moved, there⟩ := Option.filter_eq_some_iff.mp first
      have step : Step machine loader state (.schedule action) (state.scheduled machine middle) :=
        .schedule (computed _ _ _ moved)
      have harmless : Harmless machine state (state.scheduled machine middle) := by
        intro other _ gone
        refine alone other ?_
        rintro rfl
        exact Bool.false_ne_true (gone.symm.trans there)
      have aloneAfter (other : ThreadId) (apart : other ≠ t)
          : (state.scheduled machine middle).held other = [] := by
        rw [held_scheduled, alone other apart, ite_self]
      obtain ⟨after, reached, atEnd, memory, space, last⟩ :=
        ih aloneAfter (before.snoc ⟨step, harmless⟩) others
      exact ⟨after, reached, atEnd, memory, space.trans (if_pos there), last⟩

/-- Operations that leave the threads alone delete none. -/
theorem harmless_of_same (same : after.threads = state.threads) : Harmless machine state after := by
  intro t before gone
  rw [same] at gone
  exact absurd (gone.symm.trans before) Bool.false_ne_true

/-- A program is executed by one thread, alone. -/
theorem exists_loaded
    (computed
      : ∀ threads action after,
          next threads action = some after → machine.step threads action after)
    {first made own : σ} {mainMemory : Buffer} {space : AddrSpace} {memory : Memory}
    {making going : List α} (followed : Runs.follow (keeping machine next t) making first = some made)
    (exist : machine.exist made t) (running : (machine.running made).isSome)
    (moved : Runs.follow (keeping machine next t) going made = some own)
    (there : machine.exist own t) (runs : machine.running own = some t)
    (loaded : loader { frames := .new numPhysPages, mainMemory } true space memory)
    : ∃ state,
        Runs.Reachable (HarmlessStep machine loader) (initial first mainMemory) state
        ∧ state.threads = own
        ∧ state.memory = memory
        ∧ state.space t = some space
        ∧ ∀ other, other ≠ t → state.held other = [] := by
  obtain ⟨fresh, reached, atMade, freshMemory, null, alone⟩ :=
    exists_scheduled computed (fun _ _ => rfl)
      (@Runs.Reachable.refl _ _ (HarmlessStep machine loader) (initial first mainMemory)) followed
  subst atMade
  have given : Step machine loader fresh (.newSpace t) _ := .newSpace running exist null
  have aloneGiven (other : ThreadId) (apart : other ≠ t)
      : held { fresh with space := Function.update fresh.space t (some .new) } other = [] := by
    rw [held_update fresh t .new fresh.memory, Function.update_of_ne apart]
    exact alone other apart
  obtain ⟨ready, reachedOwn, atOwn, readyMemory, found, aloneReady⟩ :=
    exists_scheduled computed aloneGiven (reached.snoc ⟨given, harmless_of_same rfl⟩) moved
  subst atOwn
  have new : ready.space t = some .new := found.trans (Function.update_self ..)
  have same : ready.memory = { frames := .new numPhysPages, mainMemory } :=
    readyMemory.trans freshMemory
  have executed : Step machine loader ready .load _ :=
    .load runs there new (same ▸ loaded)
  refine ⟨_, reachedOwn.snoc ⟨executed, harmless_of_same rfl⟩, rfl, rfl,
    Function.update_self .., fun other apart => ?_⟩
  rw [held_update ready t space memory, Function.update_of_ne apart]
  exact aloneReady other apart

/-- Whether the thread `t` is made and runs its own code, and is deleted in the end. -/
def executes (machine : ThreadMachine σ α) (next : σ → α → Option σ) (t : ThreadId) (first : σ)
    (making going leaving : List α) (delete : α)
    : Bool :=
  (Runs.follow (keeping machine next t) making first).any (fun made =>
    machine.exist made t && (machine.running made).isSome
    && (Runs.follow (keeping machine next t) going made).any (fun own =>
      machine.exist own t && decide (machine.running own = some t)
      && (Runs.follow (keeping machine next t) leaving own).any (fun last =>
        machine.exist last t
        && (next last delete).any (fun left => !machine.exist left t))))

/-- A program is loaded and its thread finishes: the frames are in use before the thread is
deleted, and still after it.
-/
theorem exists_leak
    (computed
      : ∀ threads action after,
          next threads action = some after → machine.step threads action after)
    (maps : loader.MapsTaken) {first : σ} {mainMemory : Buffer} {space : AddrSpace}
    {memory : Memory} {making going leaving : List α} {delete : α}
    (tested : executes machine next t first making going leaving delete)
    (loaded : loader { frames := .new numPhysPages, mainMemory } true space memory)
    (nonempty : space.frames ≠ [])
    : ∃ state final,
        Runs.Reachable (HarmlessStep machine loader) (initial first mainMemory) state
        ∧ state.space t = some space
        ∧ Runs.Reachable (Step machine loader) (initial first mainMemory) final
        ∧ ¬final.Returned := by
  obtain ⟨made, followed, tested⟩ := (Option.any_eq_true _ _).mp tested
  simp only [Bool.and_eq_true] at tested
  obtain ⟨⟨exist, running⟩, tested⟩ := tested
  obtain ⟨own, moved, tested⟩ := (Option.any_eq_true _ _).mp tested
  simp only [Bool.and_eq_true, decide_eq_true_eq] at tested
  obtain ⟨⟨there, runs⟩, tested⟩ := tested
  obtain ⟨last, left, tested⟩ := (Option.any_eq_true _ _).mp tested
  simp only [Bool.and_eq_true] at tested
  obtain ⟨still, tested⟩ := tested
  obtain ⟨final, deletes, gone⟩ := (Option.any_eq_true _ _).mp tested
  rw [Bool.not_eq_true'] at gone
  obtain ⟨state, reached, atOwn, _, found, alone⟩ :=
    exists_loaded computed followed exist running moved there runs loaded
  subst atOwn
  obtain ⟨after, ⟨run, kept⟩, atLast, _, same, _⟩ := exists_scheduled computed alone reached left
  subst atLast
  have step : Step machine loader after (.schedule delete) (after.scheduled machine final) :=
    .schedule (computed _ _ _ deletes)
  refine ⟨state, after.scheduled machine final, reached, found,
    Runs.Reachable.snoc ⟨run, kept.mono fun _ _ _ step => step.1⟩ step, ?_⟩
  rw [((returned_iff_harmless maps ⟨run, kept⟩).2 _ _ step).2]
  intro harmless
  have nothing := harmless t still gone
  rw [held_of_space (same.trans found)] at nothing
  exact nonempty nothing

end

end Processes

end Nachos.UserProg
