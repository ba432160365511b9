import Nachos.UserProg.Mp2.SameProgram
import Nachos.UserProg.Mp2.TimeSharing

/-! A program of the second kernel runs as if it had the machine for itself. Threads map frames of
their own, so that what the others do to memory is out of its reach, and its registers come back
as they were saved.
-/

namespace Nachos.UserProg.Mp2.TimeSharing
open Bytes Mips Routines
open Nachos.Threads (ThreadId)

variable {state after : TimeSharing} {action : Action} {t other : ThreadId}

-----------------------------------------------------------------------------------------
-- What every step keeps
-----------------------------------------------------------------------------------------

/-- Threads hold frames of their own, all in use; the machine points to the page table of the
program that it runs; and programs that do not run are suspended.
-/
structure Sound (state : TimeSharing) : Prop where
  inUse
    : ∀ t, ∀ frame ∈ state.held t,
        (0 ≤ frame ∧ frame < numPhysPages) ∧ state.memory.frames.testBit frame.toNat = true
  apart : ∀ t other, t ≠ other → ∀ frame ∈ state.held t, frame ∉ state.held other
  housed : ∀ t, state.stage t ≠ .new → (state.space t).isSome
  points
    : ∀ trapped owner, state.stage state.currentThread = .program trapped
      → state.suspended state.currentThread = false → state.pageTable = some owner
      → owner = state.currentThread
  waits
    : ∀ t trapped, state.stage t = .program trapped → t ≠ state.currentThread
      → state.suspended t = true

theorem held_eq (state : TimeSharing) (t : ThreadId)
    : state.held t = (state.space t).elim [] AddrSpace.frames := by
  rw [held, table]
  cases state.space t <;> rfl

/-- The frames after a change to the address space of a thread. -/
theorem held_update {space : Option AddrSpace}
    (changed : after.space = Function.update state.space t space)
    : after.held = Function.update state.held t (space.elim [] AddrSpace.frames) := by
  funext other
  rw [held_eq, changed]
  by_cases same : other = t
  · rw [same, Function.update_self, Function.update_self]
  · rw [Function.update_of_ne same, Function.update_of_ne same, held_eq]

theorem initial_sound (main : ThreadId) (registers : Register → BitVec 32) (mainMemory : Buffer)
    : (initial main registers mainMemory).Sound where
  inUse t frame member := absurd member List.not_mem_nil
  apart t other _ frame member := absurd member List.not_mem_nil
  housed t stage := absurd rfl stage
  points trapped owner stage := by cases stage
  waits t trapped stage := by cases stage

/-- A `Load` of a new address space: the frames that it maps were free, and it wrote only to them.
-/
theorem taken_of_loader {memory final : Memory} {returned : Bool} {space : AddrSpace}
    (loaded : loader memory returned space final)
    : memory.frames.Takes final.frames space.frames
      ∧ ∀ address : Nat, ((address / pageSize : Nat) : Int) ∉ space.frames
          → final.mainMemory address = memory.mainMemory address := by
  obtain ⟨stack, executable, ran⟩ := loaded
  cases executable with
  | none =>
      obtain ⟨rfl, rfl⟩ := Loading.mk.inj (congrArg Prod.snd ran)
      exact ⟨.refl _, fun _ _ => rfl⟩
  | some file =>
      obtain rfl := returned_of_load ran
      obtain ⟨taken, takes, rfl, _, spared⟩ := exists_taken ran
      exact ⟨takes, spared⟩

-----------------------------------------------------------------------------------------
-- One step
-----------------------------------------------------------------------------------------

/-- Where the pointer of the machine goes. -/
theorem owner_of_restoreState {space : AddrSpace} {owner : ThreadId}
    (points : restoreState t space = some owner)
    : owner = t := by
  rw [restoreState] at points
  split at points
  · cases points
  · exact (Option.some.inj points).symm

/-- Nobody holds other frames than before. -/
theorem Sound.of_held (sound : state.Sound)
    (less : ∀ t, ∀ frame ∈ after.held t, frame ∈ state.held t)
    (memory : after.memory.frames = state.memory.frames)
    : (∀ t, ∀ frame ∈ after.held t,
        (0 ≤ frame ∧ frame < numPhysPages) ∧ after.memory.frames.testBit frame.toNat = true)
      ∧ ∀ t other, t ≠ other → ∀ frame ∈ after.held t, frame ∉ after.held other := by
  constructor
  · intro t frame member
    rw [memory]
    exact sound.inUse t frame (less t frame member)
  · intro t other different frame member shared
    exact sound.apart t other different frame (less t frame member) (less other frame shared)

/-- The thread that is switched away from is suspended, as every other program already was. -/
theorem Sound.left (sound : state.Sound) (nextThread : ThreadId)
    : (state.left nextThread).Sound where
  inUse := sound.inUse
  apart := sound.apart
  housed := sound.housed
  points trapped owner program awake := by
    exfalso
    change state.stage nextThread = _ at program
    change Function.update state.suspended state.currentThread true nextThread = false at awake
    by_cases same : nextThread = state.currentThread
    · rw [same, Function.update_self] at awake
      cases awake
    · rw [Function.update_of_ne same, sound.waits nextThread trapped program same] at awake
      cases awake
  waits t trapped program _ := by
    change Function.update state.suspended state.currentThread true t = true
    by_cases same : t = state.currentThread
    · rw [same, Function.update_self]
    · rw [Function.update_of_ne same, sound.waits t trapped program same]

/-- The thread that is switched back to gets its registers and its table again, by cases on whether
it has a space.
-/
theorem Sound.resume (sound : state.Sound) : state.restored.Sound := by
  have waits (t : ThreadId) (trapped : Bool) (program : state.stage t = .program trapped)
      (other : t ≠ state.currentThread)
      : Function.update state.suspended state.currentThread false t = true :=
    (Function.update_of_ne other ..).trans (sound.waits t trapped program other)
  unfold restored
  dsimp only
  cases found : state.space state.currentThread with
  | none =>
      refine ⟨sound.inUse, sound.apart, sound.housed, ?_, waits⟩
      intro trapped owner program
      have housed := sound.housed state.currentThread (by
        change state.stage state.currentThread = _ at program
        rw [program]
        exact Stage.noConfusion)
      rw [found] at housed
      cases housed
  | some space =>
      exact ⟨sound.inUse, sound.apart, sound.housed,
        fun _ _ _ _ points => owner_of_restoreState points, waits⟩

/-- A thread that gets an address space holds no frame yet. -/
theorem Sound.given (sound : state.Sound) (t : ThreadId) : (state.housed t).Sound := by
  have less (other : ThreadId) : ∀ frame ∈ (state.housed t).held other, frame ∈ state.held other := by
    intro frame member
    rw [held_update rfl] at member
    by_cases same : other = t
    · rw [same, Function.update_self] at member
      exact absurd member List.not_mem_nil
    · rwa [Function.update_of_ne same] at member
  obtain ⟨inUse, apart⟩ := Sound.of_held sound less rfl
  refine ⟨inUse, apart, fun other begun => ?_, sound.points, sound.waits⟩
  change (Function.update state.space t (some .new) other).isSome = true
  by_cases same : other = t
  · rw [same, Function.update_self]
    rfl
  · rw [Function.update_of_ne same]
    exact sound.housed other begun

/-- A load keeps the programs sound: its frames were free. -/
theorem Sound.filled (sound : state.Sound) {returned : Bool} {space : AddrSpace} {memory : Memory}
    (new : state.stage state.currentThread = .new)
    (loaded : loader state.memory returned space memory)
    : (state.filled returned space memory).Sound := by
  obtain ⟨takes, _⟩ := taken_of_loader loaded
  have held : (state.filled returned space memory).held
      = Function.update state.held state.currentThread space.frames :=
    @held_update state (state.filled returned space memory) state.currentThread (some space) rfl
  have fresh (other : ThreadId) : ∀ frame ∈ space.frames, frame ∉ state.held other := by
    intro frame taken member
    have inUse := (sound.inUse other frame member).2
    rw [takes.clear frame taken] at inUse
    cases inUse
  have unprogrammed (trapped : Bool)
      : (state.filled returned space memory).stage state.currentThread ≠ .program trapped := by
    change (if returned then Function.update state.stage state.currentThread .loaded
      else state.stage) state.currentThread ≠ _
    split
    · rw [Function.update_self]
      exact Stage.noConfusion
    · rw [new]
      exact Stage.noConfusion
  have others {other : ThreadId} (different : other ≠ state.currentThread)
      : (state.filled returned space memory).stage other = state.stage other := by
    change (if returned then Function.update state.stage state.currentThread .loaded
      else state.stage) other = _
    split
    · exact Function.update_of_ne different ..
    · rfl
  refine ⟨fun t frame member => ?_, fun t other different frame member => ?_, fun t begun => ?_,
    fun trapped _ program => absurd program (unprogrammed trapped), fun t trapped program other => ?_⟩
  · rw [held] at member
    change _ ∧ memory.frames.testBit frame.toNat = true
    rw [takes.bits, Bool.or_eq_true, decide_eq_true_iff]
    by_cases same : t = state.currentThread
    · rw [same, Function.update_self] at member
      have nonneg := (takes.inside frame member).1
      exact ⟨takes.inside frame member, .inl (by rwa [Int.toNat_of_nonneg nonneg])⟩
    · rw [Function.update_of_ne same] at member
      obtain ⟨inside, inUse⟩ := sound.inUse t frame member
      exact ⟨inside, .inr inUse⟩
  · rw [held] at member ⊢
    by_cases same : t = state.currentThread
    · rw [same, Function.update_self] at member
      rw [Function.update_of_ne (fun equal => different (same.trans equal.symm))]
      exact fresh other frame member
    · rw [Function.update_of_ne same] at member
      by_cases again : other = state.currentThread
      · rw [again, Function.update_self]
        exact fun taken => fresh t frame taken member
      · rw [Function.update_of_ne again]
        exact sound.apart t other different frame member
  · change (Function.update state.space state.currentThread (some space) t).isSome = true
    by_cases same : t = state.currentThread
    · rw [same, Function.update_self]
      rfl
    · rw [Function.update_of_ne same]
      exact sound.housed t (others same ▸ begun)
  · exact sound.waits t trapped ((others other).symm.trans program) other

/-- A program that starts keeps the programs sound: only registers and table are set. -/
theorem Sound.started (sound : state.Sound) {space : AddrSpace}
    (found : state.space state.currentThread = some space)
    : (state.started space).Sound where
  inUse := sound.inUse
  apart := sound.apart
  housed t begun := by
    by_cases same : t = state.currentThread
    · subst same
      exact congrArg Option.isSome found
    · refine sound.housed t ?_
      exact fun new => begun ((Function.update_of_ne same ..).trans new)
  points _ _ _ _ points := owner_of_restoreState points
  waits t trapped program other :=
    sound.waits t trapped ((Function.update_of_ne other ..).symm.trans program) other

/-- An event of the running program keeps the programs sound, since it stays in its frames. -/
theorem Sound.ran (sound : state.Sound) {event : Event} {trapped : Bool} {numPages : Nat}
    {table : List TranslationEntry} {after : Program}
    (found
      : state.space state.currentThread = some { pageTable := .entries table, numPages })
    (points : state.pageTable = some state.currentThread)
    (moved : (state.running table trapped).next event = some after)
    : (state.ran state.currentThread numPages after).Sound := by
  have same : AddrSpace.validFrames after.machine.pageTable = state.held state.currentThread := by
    rw [frames_next moved, held_eq, found]
    rfl
  have held : (state.ran state.currentThread numPages after).held = state.held := by
    rw [held_update rfl]
    exact (congrArg (Function.update state.held state.currentThread) same).trans
      (Function.update_eq_self ..)
  obtain ⟨inUse, apart⟩ := @Sound.of_held state (state.ran state.currentThread numPages after) sound
    (fun t frame member => by rwa [held] at member) rfl
  refine ⟨inUse, apart, fun t begun => ?_, fun _ owner _ _ pointsTo => ?_,
    fun t other program different => ?_⟩
  · change (Function.update state.space state.currentThread _ t).isSome = true
    by_cases same : t = state.currentThread
    · rw [same, Function.update_self]
      rfl
    · rw [Function.update_of_ne same]
      exact sound.housed t fun new => begun ((Function.update_of_ne same ..).trans new)
  · exact (Option.some.inj (points.symm.trans pointsTo)).symm
  · exact sound.waits t other ((Function.update_of_ne different ..).symm.trans program) different

/-- A space that is deleted returns its frames, which nobody else holds. -/
theorem Sound.deleted (sound : state.Sound) (other : t ≠ state.currentThread)
    : (state.deleted t).Sound := by
  have less (owner : ThreadId) : ∀ frame ∈ (state.deleted t).held owner, frame ∈ state.held owner := by
    intro frame member
    rw [held_update rfl] at member
    by_cases same : owner = t
    · rw [same, Function.update_self] at member
      exact absurd member List.not_mem_nil
    · rwa [Function.update_of_ne same] at member
  obtain ⟨inUse, apart⟩ := Sound.of_held sound less rfl
  have kept {owner : ThreadId} (different : owner ≠ t)
      : (state.deleted t).stage owner = state.stage owner
        ∧ (state.deleted t).space owner = state.space owner
        ∧ (state.deleted t).suspended owner = state.suspended owner :=
    ⟨Function.update_of_ne different .., Function.update_of_ne different ..,
      Function.update_of_ne different ..⟩
  have gone : (state.deleted t).stage t = .new := Function.update_self ..
  obtain ⟨stage, _, suspended⟩ := kept other.symm
  refine ⟨inUse, apart, fun owner begun => ?_, fun trapped owner program awake => ?_,
    fun owner trapped program different => ?_⟩
  · by_cases same : owner = t
    · subst same
      exact absurd gone begun
    · obtain ⟨stage, space, _⟩ := kept same
      rw [space]
      exact sound.housed owner (stage ▸ begun)
  · exact sound.points trapped owner (stage.symm.trans program) (suspended.symm.trans awake)
  · by_cases same : owner = t
    · subst same
      rw [gone] at program
      cases program
    · obtain ⟨stage, _, suspended⟩ := kept same
      exact suspended.trans (sound.waits owner trapped (stage.symm.trans program) different)

/-- Every step of the kernel keeps its threads apart. -/
theorem Sound.step (sound : state.Sound) (step : Step state action after) : after.Sound := by
  cases step with
  | run _ => exact sound.left _
  | resume _ => exact sound.resume
  | exec _ _ _ _ => exact sound.given _
  | load _ new _ loaded => exact sound.filled new loaded
  | execute _ _ found => exact sound.started found
  | event runs program points found moved =>
      obtain rfl := sound.points _ _ program runs points
      exact sound.ran found points moved
  | delete other => exact sound.deleted other

-----------------------------------------------------------------------------------------
-- One program among the others
-----------------------------------------------------------------------------------------

/-- What a thread has stays the same through a step of the others. -/
structure Untouched (t : ThreadId) (state after : TimeSharing) : Prop where
  registers : (after.view t).machine.registers = (state.view t).machine.registers
  table : after.table t = state.table t
  stage : after.stage t = state.stage t
  bytes
    : ∀ address, Reaches (state.held t) address
      → after.memory.mainMemory address = state.memory.mainMemory address

/-- A program that is not current, or is suspended, has its registers saved. -/
theorem registers_of_saved (saved : t = state.currentThread → state.suspended t = true)
    : (state.view t).machine.registers = state.userRegisters t := by
  refine if_neg (fun both => ?_)
  rw [saved both.1] at both
  exact Bool.noConfusion both.2

theorem registers_of_ne (other : t ≠ state.currentThread)
    : (state.view t).machine.registers = state.userRegisters t :=
  registers_of_saved (fun same => absurd same other)

/-- Frames that two threads reach are those of one thread. -/
theorem Sound.eq_of_reaches (sound : state.Sound) {address : Nat}
    (here : Reaches (state.held t) address) (there : Reaches (state.held other) address)
    : t = other := by
  by_contra different
  obtain ⟨frame, member, number⟩ := here
  obtain ⟨shared, again, same⟩ := there
  have inside := (sound.inUse t frame member).1
  have insideAgain := (sound.inUse other shared again).1
  have small : (numPhysPages : Int) = 128 := rfl
  have equal : frame = shared := by
    unfold CInt.unsigned at number same
    omega
  exact sound.apart t other different frame member (equal ▸ again)

theorem table_congr (same : after.space t = state.space t) : after.table t = state.table t := by
  rw [table, table, same]

/-- A program is not touched when the running thread is left, by cases on the thread. -/
theorem Sound.untouched_left (sound : state.Sound) {trapped : Bool}
    (program : state.stage t = .program trapped) (nextThread : ThreadId)
    (runs : state.suspended state.currentThread = false)
    : Untouched t state (state.left nextThread) where
  registers := by
    have housed : (state.space t).isSome :=
      sound.housed t (by rw [program]; exact Stage.noConfusion)
    have suspended : (state.left nextThread).suspended t = true := by
      change Function.update state.suspended state.currentThread true t = true
      by_cases same : t = state.currentThread
      · rw [same, Function.update_self]
      · rw [Function.update_of_ne same, sound.waits t trapped program same]
    rw [registers_of_saved (fun _ => suspended)]
    change state.saveUserState t = _
    by_cases same : t = state.currentThread
    · subst same
      rw [saveUserState, if_pos housed, Function.update_self]
      exact (if_pos ⟨rfl, runs⟩).symm
    · rw [registers_of_ne same, saveUserState]
      split
      · exact Function.update_of_ne same ..
      · rfl
  table := rfl
  stage := rfl
  bytes _ _ := rfl

/-- A program is not touched when another thread's registers are restored, by cases on the thread.
-/
theorem Sound.untouched_restored (sound : state.Sound) {trapped : Bool}
    (program : state.stage t = .program trapped)
    (back : state.suspended state.currentThread = true)
    : Untouched t state state.restored := by
  have housed : (state.space t).isSome :=
    sound.housed t (by rw [program]; exact Stage.noConfusion)
  by_cases same : t = state.currentThread
  · subst same
    obtain ⟨space, found⟩ := Option.isSome_iff_exists.mp housed
    have shape : state.restored = {
        state with
        suspended := Function.update state.suspended state.currentThread false
        registers := state.userRegisters state.currentThread
        pageTable := restoreState state.currentThread space
      } := by
      unfold restored
      dsimp only
      rw [found]
    rw [shape]
    refine ⟨?_, rfl, rfl, fun _ _ => rfl⟩
    rw [registers_of_saved (fun _ => back)]
    exact if_pos ⟨rfl, Function.update_self ..⟩
  · unfold restored
    dsimp only
    split
    · refine ⟨?_, rfl, rfl, fun _ _ => rfl⟩
      rw [registers_of_ne same]
      exact registers_of_ne same
    · refine ⟨?_, rfl, rfl, fun _ _ => rfl⟩
      rw [registers_of_ne same]
      exact registers_of_ne same

/-- A step that leaves the processor, the thread and memory as they are. -/
theorem untouched_of_same (space : after.space t = state.space t)
    (stage : after.stage t = state.stage t)
    (registers : (after.view t).machine.registers = (state.view t).machine.registers)
    (bytes
      : ∀ address, Reaches (state.held t) address
        → after.memory.mainMemory address = state.memory.mainMemory address)
    : Untouched t state after :=
  ⟨registers, table_congr space, stage, bytes⟩

/-- The program that runs is the one of the current thread. -/
theorem running_eq {trapped : Bool} {table : List TranslationEntry} {numPages : Nat}
    (runs : state.suspended state.currentThread = false)
    (program : state.stage state.currentThread = .program trapped)
    (found
      : state.space state.currentThread = some { pageTable := .entries table, numPages })
    : state.running table trapped = state.view state.currentThread := by
  have same : state.table state.currentThread = table := by
    rw [TimeSharing.table, found]
    rfl
  rw [view, if_pos ⟨rfl, runs⟩, same, program]
  cases trapped <;> rfl

/-- A program changes no memory outside its frames. -/
theorem spared_of_event {event : Event} {trapped : Bool} {table : List TranslationEntry}
    {numPages : Nat} {after : Program} (runs : state.suspended state.currentThread = false)
    (program : state.stage state.currentThread = .program trapped)
    (found
      : state.space state.currentThread = some { pageTable := .entries table, numPages })
    (moved : (state.running table trapped).next event = some after)
    (within
      : event.Within (state.held state.currentThread) (state.view state.currentThread).machine)
    {address : Nat} (outside : ¬Reaches (state.held state.currentThread) address)
    : after.machine.mainMemory address = state.memory.mainMemory address := by
  rw [running_eq runs program found] at moved
  exact mainMemory_next within moved outside

/-- A step that does not run the program leaves what it has as it is. -/
theorem Sound.untouched (sound : state.Sound) {trapped : Bool}
    (program : state.stage t = .program trapped) (step : Step state action after)
    (confined : state.Confined action) (kept : action ≠ .delete t)
    (others : ∀ event, action ≠ .event t event)
    : Untouched t state after := by
  cases step with
  | run runs => exact sound.untouched_left program _ runs
  | resume back => exact sound.untouched_restored program back
  | @exec given runs other unbegun null =>
      have different : t ≠ given := by
        rintro rfl
        have housed := sound.housed t (by rw [program]; exact Stage.noConfusion)
        rw [null] at housed
        cases housed
      exact untouched_of_same (Function.update_of_ne different ..) rfl rfl (fun _ _ => rfl)
  | @load returned space memory runs new found loaded =>
      have different : t ≠ state.currentThread := by
        rintro rfl
        rw [new] at program
        cases program
      obtain ⟨takes, spared⟩ := taken_of_loader loaded
      have stage : (state.filled returned space memory).stage t = state.stage t := by
        change (if returned then Function.update state.stage state.currentThread .loaded
          else state.stage) t = _
        split
        · exact Function.update_of_ne different ..
        · rfl
      refine untouched_of_same (Function.update_of_ne different ..) stage rfl
        (fun address reached => spared address (fun taken => ?_))
      obtain ⟨frame, member, number⟩ := reached
      obtain ⟨inside, inUse⟩ := sound.inUse t frame member
      have small : (numPhysPages : Int) = 128 := rfl
      have same : frame = (address / pageSize : Nat) := by
        unfold CInt.unsigned at number
        omega
      rw [takes.clear frame (same ▸ taken)] at inUse
      cases inUse
  | execute runs loaded found =>
      have different : t ≠ state.currentThread := by
        rintro rfl
        rw [loaded] at program
        cases program
      refine untouched_of_same rfl (Function.update_of_ne different ..) ?_ (fun _ _ => rfl)
      rw [registers_of_ne different]
      exact registers_of_ne different
  | @event event trapped owner table numPages after runs running points found moved =>
      have different : t ≠ state.currentThread := by
        rintro rfl
        exact others event rfl
      obtain rfl := sound.points _ _ running runs points
      refine untouched_of_same (Function.update_of_ne different ..)
        (Function.update_of_ne different ..) ?_ (fun address reached => ?_)
      · rw [registers_of_ne different]
        exact registers_of_ne different
      · refine spared_of_event runs running found moved (confined _ _ rfl) ?_
        exact fun again => different (sound.eq_of_reaches reached again)
  | @delete gone other =>
      have different : t ≠ gone := fun same => kept (congrArg Action.delete same.symm)
      refine untouched_of_same (Function.update_of_ne different ..)
        (Function.update_of_ne different ..) ?_ (fun _ _ => rfl)
      change (if t = state.currentThread ∧ Function.update state.suspended gone false t = false then
        state.registers else state.userRegisters t) = _
      rw [Function.update_of_ne different]
      rfl

-----------------------------------------------------------------------------------------
-- Runs
-----------------------------------------------------------------------------------------

/-- A thread of the kernel beside its program alone, with the same frames. -/
structure Follows (t : ThreadId) (frames : List Int) (state : TimeSharing) (alone : Program)
    : Prop where
  sound : state.Sound
  program : ∃ trapped, state.stage t = .program trapped
  alike : (state.view t).Related (Alike frames state.memory.mainMemory) alone

/-- The events of the program of a thread. -/
def eventOf (t : ThreadId) : Action → Option Event
  | .event owner event => if owner = t then some event else none
  | _ => none

/-- An action with an event of this program is that event. -/
theorem eq_of_eventOf {event : Event} (own : eventOf t action = some event)
    : action = .event t event := by
  cases action with
  | event owner other =>
      rw [eventOf] at own
      split at own
      · rename_i same
        rw [same, Option.some.inj own]
      · cases own
  | _ => cases own

/-- A step that does not delete the thread, and in which `SC_Read` stays in the frames of its
caller.
-/
def Sparing (t : ThreadId) (state : TimeSharing) (action : Action) (after : TimeSharing) : Prop :=
  Step state action after ∧ state.Confined action ∧ action ≠ .delete t

variable {frames : List Int} {alone : Program}

/-- A step of the others leaves the program where it is. -/
theorem Follows.stays (follows : Follows t frames state alone) (sparing : Sparing t state action after)
    (others : eventOf t action = none)
    : Follows t frames after alone := by
  obtain ⟨step, confined, kept⟩ := sparing
  obtain ⟨trapped, program⟩ := follows.program
  have untouched := follows.sound.untouched program step confined kept (by
    rintro event rfl
    rw [eventOf, if_pos rfl] at others
    cases others)
  have held : state.held t = frames := follows.alike.machine.maps
  refine ⟨follows.sound.step step, ⟨trapped, untouched.stage.trans program⟩, ⟨?_, ?_⟩⟩
  · exact
      {
        registers := untouched.registers.trans follows.alike.machine.registers
        pageTable := untouched.table.trans follows.alike.machine.pageTable
        maps := (congrArg AddrSpace.validFrames untouched.table).trans held
        inside := fun address reached =>
          (untouched.bytes address (held.symm ▸ reached)).trans
            (follows.alike.machine.inside address reached)
        outside := fun _ _ => rfl
      }
  · rw [← follows.alike.trapped]
    simp only [view, untouched.stage]

/-- An event of the program happens to the program alone. -/
theorem Follows.moves (follows : Follows t frames state alone) {event : Event}
    (sparing : Sparing t state action after) (own : eventOf t action = some event)
    : ∃ moved, alone.next event = some moved ∧ Follows t frames after moved := by
  obtain ⟨step, confined, _⟩ := sparing
  have sound := follows.sound.step step
  obtain rfl := eq_of_eventOf own
  cases step with
  | @event _ trapped owner table numPages moved awake program points found goes =>
      obtain rfl := follows.sound.points _ _ program awake points
      have within := confined _ _ rfl
      rw [running_eq awake program found] at goes
      rw [show state.held state.currentThread = frames from follows.alike.machine.maps] at within
      obtain ⟨final, alone, both⟩ := alike_next follows.alike within goes
      have registers : ((state.ran state.currentThread numPages moved).view
          state.currentThread).machine.registers = moved.machine.registers :=
        if_pos ⟨rfl, awake⟩
      have table : (state.ran state.currentThread numPages moved).table state.currentThread
          = moved.machine.pageTable := by
        change (Function.update state.space state.currentThread _ state.currentThread).elim [] _ = _
        rw [Function.update_self]
        rfl
      have stage : (state.ran state.currentThread numPages moved).stage state.currentThread
          = .program moved.trapped :=
        Function.update_self ..
      refine ⟨final, alone, sound, ⟨_, stage⟩, ⟨?_, ?_⟩⟩
      · exact
          {
            registers := registers.trans both.machine.registers
            pageTable := table.trans both.machine.pageTable
            maps := (congrArg AddrSpace.validFrames table).trans both.machine.maps
            inside := both.machine.inside
            outside := fun _ _ => rfl
          }
      · rw [← both.trapped]
        change decide ((state.ran state.currentThread numPages moved).stage state.currentThread
          = .program true) = _
        rw [stage]
        cases moved.trapped <;> rfl

/-- The program of a thread that has just been started, in a memory of its own. -/
def atStart (state : TimeSharing) (t : ThreadId) (mainMemory : Buffer) : Program :=
  {
    machine := {
      registers := initRegisters ((state.space t).elim 0 AddrSpace.numPages)
      mainMemory
      pageTable := state.table t
    }
    trapped := false
  }

/-- From `Execute` on a program does what it does alone, in any memory that has the same bytes in
its frames, whatever runs between its instructions.
-/
theorem runs_as_alone {main : ThreadId} {registers : Register → BitVec 32}
    {mainMemory memory : Buffer} {started final : TimeSharing} {actions : List Action}
    (reached : Runs.Reachable Step (initial main registers mainMemory) state)
    (execute : Step state .execute started)
    (image
      : ∀ address, Reaches (started.held state.currentThread) address
        → memory address = started.memory.mainMemory address)
    (run : Runs.Run (Sparing state.currentThread) started actions final)
    : ∃ alone,
        Runs.follow Program.next (actions.filterMap (eventOf state.currentThread))
            (started.atStart state.currentThread memory)
          = some alone
        ∧ (final.view state.currentThread).Related
            (Alike (started.held state.currentThread) final.memory.mainMemory) alone := by
  have sound : state.Sound :=
    @Runs.Reachable.invariant _ _ _ _ _ Sound reached (initial_sound main registers mainMemory)
      (fun _ _ _ sound step => sound.step step)
  have first : Follows state.currentThread (started.held state.currentThread) started
      (started.atStart state.currentThread memory) := by
    cases execute with
    | @execute space runs _ found =>
        have stage : (state.started space).stage state.currentThread = .program false :=
          Function.update_self ..
        refine ⟨sound.started found, ⟨false, stage⟩, ⟨?_, ?_⟩⟩
        · refine ⟨?_, rfl, rfl, fun address within => (image address within).symm, fun _ _ => rfl⟩
          refine (if_pos ⟨rfl, runs⟩).trans ?_
          change initRegisters space.numPages
            = initRegisters ((state.space state.currentThread).elim 0 AddrSpace.numPages)
          rw [found]
          rfl
        · change decide ((state.started space).stage state.currentThread = .program true) = false
          rw [stage]
          rfl
  obtain ⟨alone, followed, last⟩ :=
    run.project first
      (fun _ _ _ _ _ follows sparing own => follows.moves sparing own)
      (fun _ _ _ _ follows sparing others => follows.stays sparing others)
  exact ⟨alone, followed, last.alike⟩

theorem restored_current (state : TimeSharing)
    : state.restored.currentThread = state.currentThread := by
  unfold restored
  dsimp only
  cases state.space state.currentThread <;> rfl

/-- A new thread loads the empty program into eight frames, starts it and runs an instruction. -/
theorem exists_ran_empty (runs : state.suspended state.currentThread = false)
    (new : state.stage state.currentThread = .new)
    (found : state.space state.currentThread = some .new)
    (room : 8 ≤ state.memory.frames.numClear)
    : ∃ space memory ran,
        let filled := state.filled true space memory
        Step state .load filled
        ∧ Step filled .execute (filled.started space)
        ∧ Step (filled.started space) (.event state.currentThread .instruction)
            ((filled.started space).ran state.currentThread 8 ran)
        ∧ memory.frames.numClear + 8 = state.memory.frames.numClear := by
  obtain ⟨loading, taken, loaded, placed⟩ := exists_load_empty room
  obtain ⟨table, there⟩ := placed.hasTable
  obtain ⟨moved, goes⟩ := exists_next_empty placed
  have count := placed.takes.count
  rw [placed.count, List.length_replicate] at count
  have numPages : loading.space.numPages = 8 := by
    rw [placed.numPages, opened_numPages, read_emptyProgram]
    rfl
  have whole : loading.space = { pageTable := .entries table, numPages := 8 } := by
    rw [← numPages, ← there]
  let filled := state.filled true loading.space loading.memory
  have stage : filled.stage state.currentThread = .loaded := Function.update_self ..
  have own : filled.space state.currentThread = some loading.space := Function.update_self ..
  have points : (filled.started loading.space).pageTable = some state.currentThread := by
    change restoreState state.currentThread loading.space = _
    rw [restoreState, whole]
    rfl
  have program : (filled.started loading.space).stage state.currentThread = .program false :=
    Function.update_self ..
  have running : (filled.started loading.space).running table false
      = { machine := Mp2.atStart loading, trapped := false } := by
    rw [Mp2.atStart, Loading.table, there]
    rfl
  refine ⟨loading.space, loading.memory, moved, ?_, ?_, ?_, count⟩
  · exact .load runs new found ⟨_, _, loaded⟩
  · exact @Step.execute filled loading.space runs stage own
  · exact @Step.event (filled.started loading.space) .instruction false state.currentThread table 8
      moved runs program points (own.trans (congrArg some whole)) (running ▸ goes)

/-- The actions after `Execute` of thread 1: it runs an instruction, the main thread makes thread 2,
which loads the program into other frames and runs an instruction, and thread 1 goes on.
-/
def takeTurns : List Action :=
  [
    .event 1 .instruction, .run 0, .resume, .exec 2, .run 2, .load, .execute, .event 2 .instruction,
    .run 1, .resume
  ]

/-- Witness: two programs that take turns. -/
theorem runs_as_alone_taking_turns
    : ∃ started final : TimeSharing, ∃ alone : Program,
        Runs.Run (Sparing 1) started takeTurns final
        ∧ final.currentThread = 1
        ∧ Runs.follow Program.next [.instruction]
            (started.atStart 1 started.memory.mainMemory) = some alone
        ∧ (final.view 1).Related (Alike (started.held 1) final.memory.mainMemory) alone := by
  let created := (initial 0 (fun _ => 0#32) (fun _ => 0)).housed 1
  have clear : created.memory.frames.numClear = 128 := Bitmap.numClear_new
  obtain ⟨space, memory, moved, load, execute, event, count⟩ :=
    @exists_ran_empty (created.left 1) rfl rfl rfl (by
      change 8 ≤ created.memory.frames.numClear
      omega)
  let started := ((created.left 1).filled true space memory).started space
  let ran := started.ran 1 8 moved
  let back := (ran.left 0).restored
  let again := (back.housed 2).left 2
  obtain ⟨space', memory', moved', load', execute', event', _⟩ :=
    @exists_ran_empty again rfl rfl rfl (by
      change memory.frames.numClear + 8 = created.memory.frames.numClear at count
      change 8 ≤ memory.frames.numClear
      omega)
  let others := ((again.filled true space' memory').started space').ran 2 8 moved'
  have plain {state after : TimeSharing} {action : Action} (step : Step state action after)
      (none : ∀ t event, action = .event t event → event = .instruction)
      (kept : action ≠ .delete 1)
      : Sparing 1 state action after := by
    refine ⟨step, fun t event same => ?_, kept⟩
    obtain rfl := none t event same
    trivial
  have run : Runs.Run (Sparing 1) started takeTurns (others.left 1).restored := by
    have leaves : Step ran (.run 0) (ran.left 0) := .run rfl
    have mainBack : Step (ran.left 0) .resume back := .resume rfl
    have apart : (2 : ThreadId) ≠ 0 := by decide
    have makes : Step back (.exec 2) (back.housed 2) := .exec rfl apart rfl rfl
    have enters : Step (back.housed 2) (.run 2) again := .run rfl
    have returns : Step others (.run 1) (others.left 1) := .run rfl
    have goesOn : Step (others.left 1) .resume (others.left 1).restored := .resume rfl
    have one := (Runs.Run.nil started).snoc
      (plain event (by rintro _ _ ⟨⟩; rfl) (by rintro ⟨⟩))
    have two := one.snoc (plain leaves (by rintro _ _ ⟨⟩) (by rintro ⟨⟩))
    have three := two.snoc (plain mainBack (by rintro _ _ ⟨⟩) (by rintro ⟨⟩))
    have four := three.snoc (plain makes (by rintro _ _ ⟨⟩) (by rintro ⟨⟩))
    have five := four.snoc (plain enters (by rintro _ _ ⟨⟩) (by rintro ⟨⟩))
    have six := five.snoc (plain load' (by rintro _ _ ⟨⟩) (by rintro ⟨⟩))
    have seven := six.snoc (plain execute' (by rintro _ _ ⟨⟩) (by rintro ⟨⟩))
    have eight := seven.snoc (plain event' (by rintro _ _ ⟨⟩; rfl) (by rintro ⟨⟩))
    have nine := eight.snoc (plain returns (by rintro _ _ ⟨⟩) (by rintro ⟨⟩))
    exact nine.snoc (plain goesOn (by rintro _ _ ⟨⟩) (by rintro ⟨⟩))
  have reached : Runs.Reachable Step (initial 0 (fun _ => 0#32) (fun _ => 0))
      ((created.left 1).filled true space memory) := by
    have made : Step (initial 0 (fun _ => 0#32) (fun _ => 0)) (.exec 1) created :=
      .exec rfl (by decide) rfl rfl
    have entered : Step created (.run 1) (created.left 1) := .run rfl
    exact (((Runs.Reachable.refl _).snoc made).snoc entered).snoc load
  obtain ⟨alone, followed, related⟩ := runs_as_alone reached execute (fun _ _ => rfl) run
  refine ⟨started, (others.left 1).restored, alone, run, ?_, followed, related⟩
  exact restored_current _

end Nachos.UserProg.Mp2.TimeSharing
