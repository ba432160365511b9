import Nachos.Threads.SemaphoreQueues
import Nachos.Threads.StatusChanges

/-! What holds of threads, semaphores and calls whenever a thread may go on or a handler may
run, and that each operation of the kernel keeps it.
-/

namespace Nachos.Threads

-----------------------------------------------------------------------------------------
-- The life of one thread
-----------------------------------------------------------------------------------------

/-- How far the life of the thread at an address is. -/
inductive Phase where
  | absent
  | alive
  /-- Finished, with no other thread switched to since. -/
  | finished
  /-- Finished, and another thread was switched to. -/
  | left
  deriving DecidableEq

/-- The life that a thread must have: it becomes ready and runs only until it finishes. Once
another thread was switched to it is deleted, before any other switch. A deleted thread's
address is free.
-/
def Phase.after (t : ThreadId) (phase : Phase) : Event → Option Phase
  | .constructed other =>
      if other = t then (if phase = .absent then some .alive else none) else some phase
  | .readied other =>
      if other = t then (if phase = .alive then some .alive else none) else some phase
  | .dispatched other =>
      match phase with
      | .absent => if other = t then none else some .absent
      | .alive => some .alive
      | .finished => if other = t then none else some .left
      | .left => none
  | .finished other =>
      if other = t then (if phase = .alive then some .finished else none) else some phase
  | .deleted other =>
      if other = t then (if phase = .left then some .absent else none) else some phase

/-- The phase that the events of a run lead to, unless one of them came out of turn. -/
def Phase.following (t : ThreadId) (history : List Event) : Option Phase :=
  history.foldlM (Phase.after t) .absent

/-- One more event at the end of a history is one more step of the phase. -/
theorem Phase.following_snoc (t : ThreadId) (history : List Event) (event : Event)
    : Phase.following t (history ++ [event])
      = (Phase.following t history).bind (fun phase => phase.after t event) := by
  rw [following, List.foldlM_append]
  simp [following, bind]

/-- The phase that a status stands for. -/
def Phase.ofStatus (left : Bool) : Option ThreadStatus → Phase
  | none => .absent
  | some .terminated => if left then .left else .finished
  | some _ => .alive

/-- The phase of a thread by its status. -/
def Kernel.phase (kernel : Kernel) (t : ThreadId) : Phase :=
  .ofStatus (kernel.toBeDestroyed = some t) (kernel.scheduler.statusOf t)

/-- The events so far led every thread to the phase that it is in. -/
def Kernel.Lives (kernel : Kernel) : Prop :=
  ∀ t, Phase.following t kernel.history = some (kernel.phase t)

/-- One more event, which leads every thread to its new phase. -/
theorem Kernel.Lives.snoc {kernel after : Kernel} {event : Event} (lives : kernel.Lives)
    (history : after.history = kernel.history ++ [event])
    (phases : ∀ t, (kernel.phase t).after t event = some (after.phase t))
    : after.Lives := by
  intro t
  rw [history, Phase.following_snoc, lives t]
  exact phases t

-----------------------------------------------------------------------------------------
-- Calls that threads are in
-----------------------------------------------------------------------------------------

/-- Calls that are made while interrupts may be on. -/
def Frame.Inner : Frame → Prop
  | .begun | .oneTick _ => True
  | _ => False

/-- The calls of a thread that runs its own code or is interrupted in it. -/
def Inner (calls : List Frame) : Prop := ∀ frame ∈ calls, frame.Inner

/-- The calls of a thread that got the processor back. -/
inductive Blocked : List Frame → Prop where
  | yield (oldLevel : IntStatus) {rest : List Frame} (inner : Inner rest)
      : Blocked (.yield oldLevel :: rest)
  | p (s : SemaphoreId) (oldLevel : IntStatus) {rest : List Frame} (inner : Inner rest)
      : Blocked (.p s oldLevel :: rest)

/-- The calls of a thread that SWITCH may go on with. -/
inductive Suspended : List Frame → Prop where
  | begin : Suspended [.begin]
  | run {rest : List Frame} (blocked : Blocked rest) : Suspended (.run :: rest)

/-- A frame that does not wait may be called on top of others. -/
theorem Inner.cons {frame : Frame} {calls : List Frame} (inner : Inner calls)
    (own : frame.Inner)
    : Inner (frame :: calls) :=
  List.forall_mem_cons.mpr ⟨own, inner⟩

namespace Kernel

-----------------------------------------------------------------------------------------
-- What always holds
-----------------------------------------------------------------------------------------

/-- The books of the kernel, while `next` is about to run and `leaving` has finished. -/
structure Sound (kernel : Kernel) (next leaving : Option ThreadId) : Prop where
  accurate : kernel.scheduler.Accurate next
  waiting : Waiting kernel.semaphores kernel.scheduler.statusOf
  suspended : ∀ t, t ≠ kernel.currentThread →
    kernel.scheduler.statusOf t = some .ready ∨ kernel.scheduler.statusOf t = some .waiting →
    Suspended (kernel.calls t)
  opened : ∀ (t : ThreadId) (s : SemaphoreId) (oldLevel : IntStatus),
    .p s oldLevel ∈ kernel.calls t → (kernel.semaphores s).isSome
  terminated : ∀ t, kernel.scheduler.statusOf t = some .terminated ↔ leaving = some t
  lives : kernel.Lives

/-- Two states with the same books. -/
structure Same (kernel after : Kernel) : Prop where
  threads : after.scheduler.threads = kernel.scheduler.threads
  readyList : after.scheduler.readyList = kernel.scheduler.readyList
  toBeDestroyed : after.toBeDestroyed = kernel.toBeDestroyed
  currentThread : after.currentThread = kernel.currentThread
  semaphores : after.semaphores = kernel.semaphores
  calls : after.calls = kernel.calls
  history : after.history = kernel.history

variable {kernel after : Kernel} {next leaving : Option ThreadId} {t : ThreadId}

/-- What is the same has the same status of every thread. -/
theorem Same.statusOf (same : Same kernel after)
    : after.scheduler.statusOf = kernel.scheduler.statusOf := by
  funext t
  rw [SchedulerState.statusOf, SchedulerState.statusOf, same.threads]

/-- Soundness looks only at what `Same` keeps. -/
theorem Sound.congr (sound : kernel.Sound next leaving) (same : Same kernel after)
    : after.Sound next leaving := by
  have status := same.statusOf
  constructor
  · exact sound.accurate.congr same.readyList (fun t => by rw [status])
  · rw [same.semaphores, status]
    exact sound.waiting
  · rw [same.currentThread, status, same.calls]
    exact sound.suspended
  · rw [same.calls, same.semaphores]
    exact sound.opened
  · rw [status]
    exact sound.terminated
  · intro t
    rw [same.history, phase, same.toBeDestroyed, status]
    exact sound.lives t

/-- The current thread may enter calls that use existing semaphores only. -/
theorem Sound.recall {calls : List Frame} (sound : kernel.Sound next leaving)
    (opened : ∀ (s : SemaphoreId) (oldLevel : IntStatus),
      .p s oldLevel ∈ calls → (kernel.semaphores s).isSome)
    : Sound { kernel with calls := Function.update kernel.calls kernel.currentThread calls }
        next leaving := by
  refine { sound with suspended := fun t other status => ?_, opened := fun t s level member => ?_ }
  · change Suspended (Function.update kernel.calls kernel.currentThread calls t)
    rw [Function.update_of_ne other]
    exact sound.suspended t other status
  · change Frame.p s level ∈ Function.update kernel.calls kernel.currentThread calls t at member
    by_cases own : t = kernel.currentThread
    · rw [own, Function.update_self] at member
      exact opened s level member
    · rw [Function.update_of_ne own] at member
      exact sound.opened t s level member

/-- A call that returns keeps the kernel sound, which looks at no calls but those of P. -/
theorem Sound.pop (sound : kernel.Sound next leaving) : kernel.pop.Sound next leaving :=
  sound.recall (fun s level member => sound.opened _ s level (List.mem_of_mem_tail member))

/-- A call keeps the kernel sound when the semaphore of a P is there. -/
theorem Sound.push {frame : Frame} (sound : kernel.Sound next leaving)
    (opened : ∀ (s : SemaphoreId) (oldLevel : IntStatus),
      frame = .p s oldLevel → (kernel.semaphores s).isSome)
    : (kernel.push kernel.currentThread frame).Sound next leaving := by
  refine sound.recall (fun s level member => ?_)
  rcases List.mem_cons.mp member with rfl | before
  · exact opened s level rfl
  · exact sound.opened _ s level before

theorem calls_push (kernel : Kernel) (t : ThreadId) (frame : Frame)
    : (kernel.push t frame).calls t = frame :: kernel.calls t :=
  Function.update_self ..

theorem calls_pop (kernel : Kernel)
    : kernel.pop.calls kernel.currentThread = (kernel.calls kernel.currentThread).tail :=
  Function.update_self ..

-----------------------------------------------------------------------------------------
-- Where the processor may be
-----------------------------------------------------------------------------------------

/-- One thread runs, and none has finished. -/
structure Active (kernel : Kernel) : Prop where
  sound : kernel.Sound none none
  unmarked : kernel.toBeDestroyed = none
  running : ∀ t,
    kernel.scheduler.statusOf t = some .running ↔ t = kernel.currentThread

/-- The current thread runs its own code, or is about to return to it. -/
structure Working (kernel : Kernel) : Prop where
  active : kernel.Active
  control : kernel.control = .thread
  outside : kernel.interrupt.inHandler = false
  inner : Inner (kernel.calls kernel.currentThread)

/-- The current thread goes on in a call that gave up the processor. -/
structure Returning (kernel : Kernel) : Prop where
  active : kernel.Active
  control : kernel.control = .thread
  outside : kernel.interrupt.inHandler = false
  off : kernel.interrupt.level = .intOff
  blocked : Blocked (kernel.calls kernel.currentThread)

/-- The current thread is interrupted. -/
structure Ticking (kernel : Kernel) : Prop where
  active : kernel.Active
  control : kernel.control = .tick
  off : kernel.interrupt.level = .intOff
  inner : Inner (kernel.calls kernel.currentThread)

/-- SWITCH just went over to the current thread. -/
structure Switched (kernel : Kernel) : Prop where
  sound : kernel.Sound none kernel.toBeDestroyed
  running : ∀ t,
    kernel.scheduler.statusOf t = some .running ↔ t = kernel.currentThread
  control : kernel.control = .thread
  outside : kernel.interrupt.inHandler = false
  off : kernel.interrupt.level = .intOff
  suspended : Suspended (kernel.calls kernel.currentThread)

/-- The thread that is leaving the processor in `Sleep`. -/
def sleeper (finishing : Bool) (kernel : Kernel) : Option ThreadId :=
  if finishing then some kernel.currentThread else none

/-- The current thread is in the loop of `Sleep`. -/
structure Sleeping (kernel : Kernel) (finishing : Bool) : Prop where
  sound : kernel.Sound none (kernel.sleeper finishing)
  unmarked : kernel.toBeDestroyed = none
  idle : ∀ t, kernel.scheduler.statusOf t ≠ some .running
  off : kernel.interrupt.level = .intOff
  blocked : finishing = false → Blocked (kernel.calls kernel.currentThread)
  control :
    kernel.control = .sleep finishing ∧ kernel.interrupt.inHandler = false
    ∨ kernel.control = .idle finishing ∧ kernel.interrupt.status = .idleMode

/-- The processor is in one of the places where a thread or a handler may go on. -/
inductive Invariant (kernel : Kernel) : Prop where
  | working (working : kernel.Working)
  | returning (returning : kernel.Returning)
  | ticking (ticking : kernel.Ticking)
  | switched (switched : kernel.Switched)
  | sleeping {finishing : Bool} (sleeping : kernel.Sleeping finishing)
  | halted {leaving : Option ThreadId} (control : kernel.control = .halted)
      (sound : kernel.Sound none leaving)

/-- Activity looks only at what `Same` keeps. -/
theorem Active.congr (active : kernel.Active) (same : Same kernel after) : after.Active where
  sound := active.sound.congr same
  unmarked := same.toBeDestroyed.trans active.unmarked
  running t := by
    rw [same.statusOf, same.currentThread]
    exact active.running t

/-- A call keeps the running thread active. -/
theorem Active.push {frame : Frame} (active : kernel.Active)
    (opened : ∀ (s : SemaphoreId) (oldLevel : IntStatus),
      frame = .p s oldLevel → (kernel.semaphores s).isSome)
    : (kernel.push kernel.currentThread frame).Active :=
  { active with sound := active.sound.push opened }

/-- A call that returns keeps the running thread active. -/
theorem Active.pop (active : kernel.Active) : kernel.pop.Active :=
  { active with sound := active.sound.pop }

-----------------------------------------------------------------------------------------
-- Interrupt levels
-----------------------------------------------------------------------------------------

/-- To disable interrupts takes no tick. -/
theorem setLevel_off (kernel : Kernel)
    : kernel.setLevel .intOff = .ok { kernel with interrupt.level := .intOff } := by
  simp [setLevel, pure, Except.pure]

/-- The assertion passes while interrupts are disabled. -/
theorem requireOff_of (off : kernel.interrupt.level = .intOff) : kernel.requireOff = .ok () :=
  if_pos off

/-- Interrupts that are turned on may come at once. -/
theorem Working.setLevel (working : kernel.Working) (now : IntStatus)
    : ∃ after,
        kernel.setLevel now = .ok after
        ∧ Same kernel after
        ∧ (after.Working ∨ after.Ticking) := by
  obtain ⟨active, control, outside, inner⟩ := working
  cases now with
  | intOff =>
      have same : Same kernel { kernel with interrupt.level := .intOff } :=
        ⟨rfl, rfl, rfl, rfl, rfl, rfl, rfl⟩
      exact ⟨_, setLevel_off kernel, same, .inl ⟨active.congr same, control, outside, inner⟩⟩
  | intOn =>
      cases level : kernel.interrupt.level with
      | intOn =>
          have same : Same kernel { kernel with interrupt.level := .intOn } :=
            ⟨rfl, rfl, rfl, rfl, rfl, rfl, rfl⟩
          refine ⟨_, ?_, same, .inl ⟨active.congr same, control, outside, inner⟩⟩
          simp [Kernel.setLevel, outside, level, pure, Except.pure]
      | intOff =>
          have same : Same kernel (Kernel.oneTick { kernel with interrupt.level := .intOn }) :=
            ⟨rfl, rfl, rfl, rfl, rfl, rfl, rfl⟩
          refine ⟨_, ?_, same, .inr ⟨active.congr same, rfl, rfl, inner⟩⟩
          simp [Kernel.setLevel, outside, level, pure, Except.pure]

end Kernel

end Nachos.Threads
