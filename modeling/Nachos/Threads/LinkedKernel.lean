import Nachos.Threads.LifeCycle
import Nachos.Threads.LinkedScheduler
import Nachos.Threads.QueueIndependence

/-! The kernel with its ready lists as linked lists in the heap. As long as agings are calm it does
what the kernel over sequences of threads does.
-/

namespace Nachos.Threads
open Routines Routine LinkedList Outcome

namespace Kernel

/-- Every aging is calm. -/
def Calm (kernel : Kernel) : Action → Prop
  | .timer => kernel.scheduler.Calm
  | _ => True

instance (kernel : Kernel) (action : Action) : Decidable (kernel.Calm action) :=
  match action with
  | .timer => inferInstanceAs (Decidable kernel.scheduler.Calm)
  | .call _ | .resume | .device _ | .handled | .findNext | .advance _ | .noInterrupts =>
      .isTrue trivial

/-- A step in a run in which agings are calm. -/
def CalmStep (kernel : Kernel) (action : Action) (after : Kernel) : Prop :=
  kernel.Calm action ∧ kernel.Step action after

/-- Such a step as it is computed. -/
def calmNext (kernel : Kernel) (action : Action) : Option Kernel :=
  if kernel.Calm action then kernel.next action else none

theorem calmStep_of_next {kernel after : Kernel} {action : Action}
    (computed : kernel.calmNext action = some after)
    : kernel.CalmStep action after := by
  rw [calmNext] at computed
  split at computed
  · exact ⟨‹_›, step_of_next _ _ _ computed⟩
  · cases computed

end Kernel

/-- The kernel beside its ready lists. The lists in `kernel` itself are not used. -/
structure LinkedKernel where
  kernel : Kernel
  store : Store ThreadId
  lists : Level → Header

namespace LinkedKernel

-----------------------------------------------------------------------------------------
-- Operations
-----------------------------------------------------------------------------------------

/-- What the scheduler works on. -/
def ready (linked : LinkedKernel) : LinkedQueue :=
  {
    threads := linked.kernel.scheduler.threads
    totalTicks := linked.kernel.scheduler.totalTicks
    store := linked.store
    lists := linked.lists
  }

def putReady (linked : LinkedKernel) (queue : LinkedQueue) : LinkedKernel :=
  {
    kernel :=
      {
        linked.kernel with
        scheduler.threads := queue.threads
        scheduler.totalTicks := queue.totalTicks
      }
    store := queue.store
    lists := queue.lists
  }

/-- A routine of the scheduler. -/
def onScheduler {α : Type} (routine : Routine Fault LinkedQueue α)
    : Routine Fault LinkedKernel α :=
  onPart ready putReady routine

/-- A part of an operation that leaves the ready lists alone. -/
def onKernel (f : Kernel → Except Fault Kernel) : Routine Fault LinkedKernel Unit := do
  let linked ← get
  let kernel ← lift (f linked.kernel)
  set { linked with kernel }

def requireOff : Routine Fault LinkedKernel Unit :=
  onKernel (fun kernel => do
    kernel.requireOff
    return kernel)

variable (allocator : Allocator ThreadId) (fuel : Nat)

def readyToRun (t : ThreadId) : Routine Fault LinkedKernel Unit := do
  requireOff
  onScheduler (LinkedQueue.readyToRun allocator fuel t)
  onKernel (fun kernel => .ok { kernel with history := kernel.history ++ [.readied t] })

def findNextToRun : Routine Fault LinkedKernel (Option ThreadId) := do
  requireOff
  onScheduler LinkedQueue.findNextToRun

def fork (t : ThreadId) : Routine Fault LinkedKernel Unit := do
  onKernel (fun kernel => .ok { kernel with calls := Function.update kernel.calls t [.begin] })
  let allocated ← get
  let oldLevel := allocated.kernel.interrupt.level
  onKernel (Kernel.setLevel .intOff)
  readyToRun allocator fuel t
  onKernel (Kernel.setLevel oldLevel)

def yield : Routine Fault LinkedKernel Unit := do
  let linked ← get
  let oldLevel := linked.kernel.interrupt.level
  onKernel (Kernel.setLevel .intOff)
  let nextThread ← findNextToRun
  match nextThread with
  | none => onKernel (Kernel.setLevel oldLevel)
  | some nextThread =>
      let found ← get
      readyToRun allocator fuel found.kernel.currentThread
      onKernel (fun ready =>
        (ready.push ready.currentThread (.yield oldLevel)).run nextThread false)

/-- One turn of the loop of `Sleep`, up to the handlers that `Idle` calls. -/
def findNext (finishing : Bool) : Routine Fault LinkedKernel Unit := do
  let nextThread ← findNextToRun
  match nextThread with
  | none =>
      onKernel (fun found =>
        .ok { found with interrupt.status := .idleMode, control := .idle finishing })
  | some nextThread => onKernel (Kernel.run nextThread finishing)

/-- `Semaphore::V`. -/
def v (s : SemaphoreId) : Routine Fault LinkedKernel Unit := do
  let linked ← get
  let oldLevel := linked.kernel.interrupt.level
  onKernel (Kernel.setLevel .intOff)
  let off ← get
  let semaphore ← lift (off.kernel.lookup s)
  let value := semaphore.value + 1
  match semaphore.queue with
  | [] => onKernel (fun off => (off.store s { semaphore with value }).setLevel oldLevel)
  | t :: queue =>
      onKernel (fun off => .ok (off.store s { semaphore with queue }))
      readyToRun allocator fuel t
      onKernel (fun ready => (ready.store s { value, queue }).setLevel oldLevel)

/-- `Alarm::CallBack`. -/
def callBack : Routine Fault LinkedKernel Unit := do
  let linked ← get
  let preempt ←
    onScheduler
      (LinkedQueue.callBack allocator fuel (linked.kernel.interrupt.status = .idleMode)
        linked.kernel.currentThread)
  if preempt then
    let aged ← get
    assert (aged.kernel.interrupt.inHandler = true) .assertion
    onKernel (fun kernel => .ok { kernel with interrupt.yieldOnReturn := true })
  else return ()

/-- The rest of `OneTick` after the last handler. -/
def tickHandled : Routine Fault LinkedKernel Unit := do
  onKernel (fun kernel =>
    .ok {
      kernel with
      interrupt.inHandler := false
      interrupt.level := .intOn
      control := .thread
    })
  let handled ← get
  if handled.kernel.interrupt.yieldOnReturn then
    let oldStatus := handled.kernel.interrupt.status
    onKernel (fun handled =>
      let asked :=
        { handled with interrupt.yieldOnReturn := false, interrupt.status := .systemMode }
      .ok (asked.push asked.currentThread (.oneTick oldStatus)))
    yield allocator fuel
  else return ()

/-- The operations that use the ready lists are those above; the others are the kernel's. -/
def perform (action : Kernel.Action) : Routine Fault LinkedKernel Unit :=
  match action with
  | .call (.fork t) => fork allocator fuel t
  | .call .yield => yield allocator fuel
  | .call (.v s) => v allocator fuel s
  | .timer => do
      onKernel (fun kernel => .ok kernel.inHandler)
      callBack allocator fuel
  | .device s => do
      onKernel (fun kernel => .ok kernel.inHandler)
      v allocator fuel s
  | .handled => do
      let linked ← get
      match linked.kernel.control with
      | .idle finishing => onKernel (fun kernel => .ok (kernel.idleHandled finishing))
      | _ => tickHandled allocator fuel
  | .findNext => do
      let linked ← get
      findNext (linked.kernel.control = .sleep true)
  | other => onKernel (Kernel.perform other)

-----------------------------------------------------------------------------------------
-- What the lists stand for
-----------------------------------------------------------------------------------------

/-- The lists hold the ready lists of a kernel that is the same otherwise. -/
structure Represents (linked : LinkedKernel) (kernel : Kernel) : Prop where
  ready : linked.ready.Represents kernel.scheduler
  same : linked.kernel.withQueue kernel.scheduler.readyList = kernel

/-- The routine comes to a value and, on the ready lists as sequences, to a kernel. -/
def Reaches {α : Type} (linked : LinkedKernel) (routine : Routine Fault LinkedKernel α)
    (value : α) (after : Kernel)
    : Prop :=
  ∃ next, routine.run linked = (.ok value, next) ∧ next.Represents after

variable {allocator fuel} {linked next : LinkedKernel} {kernel middle after : Kernel}
  {α β : Type} {t : ThreadId} {s : SemaphoreId}

theorem Represents.interrupt (represents : linked.Represents kernel)
    : linked.kernel.interrupt = kernel.interrupt := by
  rw [← represents.same]
  rfl

theorem Represents.currentThread (represents : linked.Represents kernel)
    : linked.kernel.currentThread = kernel.currentThread := by
  rw [← represents.same]
  rfl

theorem Represents.control (represents : linked.Represents kernel)
    : linked.kernel.control = kernel.control := by
  rw [← represents.same]
  rfl

theorem Represents.lookup (represents : linked.Represents kernel) (s : SemaphoreId)
    : linked.kernel.lookup s = kernel.lookup s := by
  rw [← represents.same]
  rfl

theorem Represents.reaches_pure (represents : linked.Represents kernel) (value : α)
    : linked.Reaches (pure value) value kernel :=
  ⟨linked, rfl, represents⟩

/-- Routines follow one another on the lists as on sequences. -/
theorem Reaches.bind {first : Routine Fault LinkedKernel α}
    {rest : α → Routine Fault LinkedKernel β} {value : α} {result : β}
    (reached : linked.Reaches first value middle)
    (goes
      : ∀ next : LinkedKernel,
          next.Represents middle → next.Reaches (rest value) result after)
    : linked.Reaches (first >>= rest) result after := by
  obtain ⟨next, ran, represents⟩ := reached
  obtain ⟨last, others, still⟩ := goes next represents
  exact ⟨last, (run_bind_ok ran rest).trans others, still⟩

/-- A routine that first reads the state. -/
theorem Reaches.get {rest : LinkedKernel → Routine Fault LinkedKernel β} {result : β}
    (goes : linked.Reaches (rest linked) result after)
    : linked.Reaches (Routine.get >>= rest) result after := by
  obtain ⟨last, others, still⟩ := goes
  exact ⟨last, (run_bind_ok (run_get linked) rest).trans others, still⟩

/-- What does not look at the ready lists does the same on both. -/
theorem Represents.onKernel (represents : linked.Represents kernel)
    {f : Kernel → Except Fault Kernel} (blind : Kernel.Blind f) (returned : f kernel = .ok after)
    : linked.Reaches (onKernel f) () after := by
  have own : kernel.withQueue linked.kernel.scheduler.readyList = linked.kernel := by
    rw [← represents.same]
    rfl
  have ran := blind kernel after linked.kernel.scheduler.readyList returned
  rw [own] at ran
  have same := blind.readyList returned
  obtain ⟨cells, strung⟩ := represents.ready.strung
  refine ⟨{ linked with kernel := after.withQueue linked.kernel.scheduler.readyList }, ?_, ?_, rfl⟩
  · rw [LinkedKernel.onKernel, run_bind_ok (run_get _), ran]
    rfl
  · refine .of_strung ⟨strung.owns, fun level => ?_, strung.apart⟩ rfl rfl
    rw [same]
    exact strung.items level

/-- What the scheduler does. -/
theorem Represents.onScheduler (represents : linked.Represents kernel)
    {routine : Routine Fault LinkedQueue α} {value : α} {scheduler : SchedulerState}
    (reached : linked.ready.Reaches routine value scheduler)
    : linked.Reaches (onScheduler routine) value { kernel with scheduler } := by
  obtain ⟨queue, ran, ready⟩ := reached
  refine ⟨linked.putReady queue, ?_, ready, ?_⟩
  · rw [LinkedKernel.onScheduler, run_onPart, ran]
  · rw [← represents.same, ← ready.same]
    rfl

-----------------------------------------------------------------------------------------
-- Every operation
-----------------------------------------------------------------------------------------

/-- The check of the level does not look at the ready list. -/
theorem blind_requireOff
    : Kernel.Blind (fun kernel => do
        kernel.requireOff
        return kernel) := by
  intro kernel after queue returned
  obtain ⟨done, off, returned⟩ := of_bind_ok returned
  have off' : (kernel.withQueue queue).requireOff = .ok done := off
  rw [← Except.ok.inj returned]
  exact bind_ok off' _

theorem Represents.requireOff (represents : linked.Represents kernel) {done : Unit}
    (off : kernel.requireOff = .ok done)
    : linked.Reaches requireOff () kernel :=
  represents.onKernel blind_requireOff (bind_ok off _)

/-- ReadyToRun on the cells does what it does on the lists: the level is checked, then the thread
is put on its list.
-/
theorem Represents.readyToRun (represents : linked.Represents kernel)
    (queued : kernel.scheduler.Queued) (returned : kernel.readyToRun t = .ok after)
    (enough : kernel.scheduler.readyList.threads.length + 1 < fuel)
    : linked.Reaches (readyToRun allocator fuel t) () after := by
  obtain ⟨done, off, returned⟩ := of_bind_ok returned
  obtain ⟨scheduler, readied, returned⟩ := of_bind_ok returned
  refine (represents.requireOff off).bind (fun next still => ?_)
  refine (still.onScheduler (still.ready.readyToRun queued readied enough)).bind (fun next last => ?_)
  exact last.onKernel (.ok (fun _ _ => rfl)) returned

/-- FindNextToRun on the cells takes the front that it takes on the lists. -/
theorem Represents.findNextToRun (represents : linked.Represents kernel) {found : Option ThreadId}
    (returned : kernel.findNextToRun = .ok (found, after))
    : linked.Reaches findNextToRun found after := by
  obtain ⟨done, off, returned⟩ := of_bind_ok returned
  obtain ⟨⟨next, scheduler⟩, taken, returned⟩ := of_bind_ok returned
  obtain ⟨rfl, rfl⟩ := Prod.mk.inj (Except.ok.inj returned)
  refine (represents.requireOff off).bind (fun next still => ?_)
  exact still.onScheduler (still.ready.findNextToRun taken)

/-- The queue from which a thread may have been taken is still in order, and no longer. -/
theorem queued_of_findNextToRun (queued : kernel.scheduler.Queued) {found : Option ThreadId}
    (returned : kernel.findNextToRun = .ok (found, after))
    : after.scheduler.Queued
      ∧ after.scheduler.readyList.threads.length ≤ kernel.scheduler.readyList.threads.length := by
  obtain ⟨done, off, returned⟩ := of_bind_ok returned
  obtain ⟨⟨next, scheduler⟩, taken, returned⟩ := of_bind_ok returned
  obtain ⟨rfl, rfl⟩ := Prod.mk.inj (Except.ok.inj returned)
  rcases SchedulerState.findNextToRun_eq kernel.scheduler with
    ⟨_, same⟩ | ⟨t, readyList, _, split, same⟩
  · obtain ⟨_, rfl⟩ := Prod.mk.inj (Except.ok.inj (taken.symm.trans same))
    exact ⟨queued, le_rfl⟩
  · obtain ⟨_, rfl⟩ := Prod.mk.inj (Except.ok.inj (taken.symm.trans same))
    have distinct := queued.distinct
    rw [split] at distinct
    refine ⟨⟨fun other member => queued.ready other ?_, (List.nodup_cons.mp distinct).2⟩, ?_⟩
    · rw [split]
      exact List.mem_cons_of_mem t member
    · rw [split]
      exact Nat.le_succ _

/-- Fork on the cells, part by part: only ReadyToRun looks at the ready list. -/
theorem Represents.fork (represents : linked.Represents kernel)
    (queued : kernel.scheduler.Queued) (returned : kernel.fork t = .ok after)
    (enough : kernel.scheduler.readyList.threads.length + 1 < fuel)
    : linked.Reaches (fork allocator fuel t) () after := by
  obtain ⟨off, set, rest⟩ := of_bind_ok returned
  obtain ⟨readied, ready, leveled⟩ := of_bind_ok rest
  refine (represents.onKernel (.ok (fun _ _ => rfl)) rfl).bind (fun allocated first => ?_)
  refine Reaches.get ?_
  refine (first.onKernel (Kernel.blind_setLevel .intOff) set).bind (fun next still => ?_)
  rw [Kernel.setLevel_off] at set
  obtain rfl := Except.ok.inj set
  refine (still.readyToRun queued ready enough).bind (fun next last => ?_)
  rw [first.interrupt]
  exact last.onKernel (Kernel.blind_setLevel _) leveled

/-- Yield on the cells, by cases on whether another thread is ready. -/
theorem Represents.yield (represents : linked.Represents kernel)
    (queued : kernel.scheduler.Queued) (returned : kernel.yield = .ok after)
    (enough : kernel.scheduler.readyList.threads.length + 1 < fuel)
    : linked.Reaches (yield allocator fuel) () after := by
  obtain ⟨off, set, rest⟩ := of_bind_ok returned
  obtain ⟨⟨nextThread, found⟩, taken, chosen⟩ := of_bind_ok rest
  refine Reaches.get ?_
  refine (represents.onKernel (Kernel.blind_setLevel .intOff) set).bind (fun next still => ?_)
  rw [Kernel.setLevel_off] at set
  obtain rfl := Except.ok.inj set
  refine (still.findNextToRun taken).bind (fun next freed => ?_)
  rw [represents.interrupt]
  cases nextThread with
  | none => exact freed.onKernel (Kernel.blind_setLevel _) chosen
  | some t =>
      obtain ⟨readied, ready, ran⟩ := of_bind_ok chosen
      obtain ⟨queued, fewer⟩ :=
        @queued_of_findNextToRun { kernel with interrupt.level := .intOff } _ queued _ taken
      refine Reaches.get ?_
      rw [freed.currentThread]
      refine (freed.readyToRun queued ready ?_).bind (fun last ends => ?_)
      · exact lt_of_le_of_lt (Nat.succ_le_succ fewer) enough
      · refine ends.onKernel (fun kernel after queue returned => ?_) ran
        exact Kernel.blind_run t false _ after queue returned

/-- The loop of Sleep on the cells, by cases on whether another thread is ready. -/
theorem Represents.findNext (represents : linked.Represents kernel) {finishing : Bool}
    (returned : kernel.findNext finishing = .ok after)
    : linked.Reaches (findNext finishing) () after := by
  obtain ⟨⟨nextThread, found⟩, taken, returned⟩ := of_bind_ok returned
  refine (represents.findNextToRun taken).bind (fun next still => ?_)
  cases nextThread with
  | none => exact still.onKernel (.ok (fun _ _ => rfl)) returned
  | some t => exact still.onKernel (Kernel.blind_run t finishing) returned

/-- `V`, by cases on whether a thread waits. -/
theorem Represents.v (represents : linked.Represents kernel)
    (queued : kernel.scheduler.Queued) (returned : kernel.v s = .ok after)
    (enough : kernel.scheduler.readyList.threads.length + 1 < fuel)
    : linked.Reaches (v allocator fuel s) () after := by
  obtain ⟨off, set, rest⟩ := of_bind_ok returned
  obtain ⟨semaphore, found, signalled⟩ := of_bind_ok rest
  refine Reaches.get ?_
  refine (represents.onKernel (Kernel.blind_setLevel .intOff) set).bind (fun next still => ?_)
  rw [Kernel.setLevel_off] at set
  obtain rfl := Except.ok.inj set
  refine Reaches.get ?_
  rw [still.lookup, found, represents.interrupt]
  refine Reaches.bind ⟨next, rfl, still⟩ (fun next still => ?_)
  dsimp only at signalled ⊢
  cases waiting : semaphore.queue with
  | nil =>
      rw [waiting] at signalled
      refine still.onKernel (fun kernel after queue returned => ?_) signalled
      exact Kernel.blind_setLevel _ _ after queue returned
  | cons t others =>
      rw [waiting] at signalled
      obtain ⟨readied, ready, leveled⟩ := of_bind_ok signalled
      refine (still.onKernel (.ok (fun _ _ => rfl)) rfl).bind (fun next stored => ?_)
      refine (stored.readyToRun queued ready enough).bind (fun next ends => ?_)
      refine ends.onKernel (fun kernel after queue returned => ?_) leveled
      exact Kernel.blind_setLevel _ _ after queue returned

/-- The timer's handler, when the aging is calm. -/
theorem Represents.callBack (represents : linked.Represents kernel)
    (queued : kernel.scheduler.Queued) (calm : kernel.scheduler.Calm)
    (returned : kernel.callBack = .ok after)
    (enough : kernel.scheduler.readyList.threads.length + 1 < fuel)
    : linked.Reaches (callBack allocator fuel) () after := by
  obtain ⟨⟨preempt, scheduler⟩, called, asked⟩ := of_bind_ok returned
  refine Reaches.get ?_
  rw [represents.interrupt, represents.currentThread]
  refine (represents.onScheduler (represents.ready.callBack queued calm called
    (Nat.lt_of_succ_lt enough))).bind (fun next still => ?_)
  dsimp only at asked ⊢
  cases preempt with
  | false =>
      obtain rfl := Except.ok.inj asked
      exact still.reaches_pure ()
  | true =>
      by_cases inside : kernel.interrupt.inHandler = true
      · have there : next.kernel.interrupt.inHandler = true := by
          rw [still.interrupt]
          exact inside
        have done : Except.ok { kernel with scheduler, interrupt.yieldOnReturn := true }
            = (Except.ok after : Except Fault Kernel) := by
          rw [← asked]
          simp [inside]
          rfl
        refine Reaches.get (Reaches.bind ⟨next, run_assert_of there _ _, still⟩ (fun last ends => ?_))
        exact ends.onKernel (.ok (fun _ _ => rfl)) done
      · simp [inside] at asked
        cases asked

/-- The end of a tick, by cases on whether a yield was asked for. -/
theorem Represents.tickHandled (represents : linked.Represents kernel)
    (queued : kernel.scheduler.Queued) (returned : kernel.tickHandled = .ok after)
    (enough : kernel.scheduler.readyList.threads.length + 1 < fuel)
    : linked.Reaches (tickHandled allocator fuel) () after := by
  refine (represents.onKernel (.ok (fun _ _ => rfl)) rfl).bind (fun next still => ?_)
  refine Reaches.get ?_
  rw [still.interrupt]
  unfold Kernel.tickHandled at returned
  dsimp only at returned ⊢
  by_cases asked : kernel.interrupt.yieldOnReturn = true
  · rw [if_pos asked] at returned ⊢
    refine (still.onKernel (.ok (fun _ _ => rfl)) rfl).bind (fun last ends => ?_)
    exact ends.yield queued returned enough
  · rw [if_neg asked] at returned ⊢
    obtain rfl := Except.ok.inj returned
    exact still.reaches_pure ()

/-- Every action does on the lists what it does on sequences of threads, by cases on it. -/
theorem Represents.perform (represents : linked.Represents kernel)
    (queued : kernel.scheduler.Queued) {action : Kernel.Action}
    (calm : kernel.Calm action) (returned : kernel.perform action = .ok after)
    (enough : kernel.scheduler.readyList.threads.length + 1 < fuel)
    : linked.Reaches (perform allocator fuel action) () after := by
  cases action with
  | call call =>
      cases call with
      | fork t => exact represents.fork queued returned enough
      | yield => exact represents.yield queued returned enough
      | v s => exact represents.v queued returned enough
      | finish => exact represents.onKernel Kernel.blind_finish returned
      | p s => exact represents.onKernel (Kernel.blind_p s) returned
      | setLevel now => exact represents.onKernel (Kernel.blind_setLevel now) returned
      | construct | setIsExec | semaphore | setStatus | oneTick | halt =>
          exact represents.onKernel (.ok (fun _ _ => rfl)) returned
  | resume => exact represents.onKernel Kernel.blind_resume returned
  | timer =>
      refine (represents.onKernel (.ok (fun _ _ => rfl)) rfl).bind (fun next still => ?_)
      exact still.callBack queued calm returned enough
  | device s =>
      refine (represents.onKernel (.ok (fun _ _ => rfl)) rfl).bind (fun next still => ?_)
      exact still.v queued returned enough
  | handled =>
      refine Reaches.get ?_
      rw [Kernel.perform] at returned
      rw [represents.control]
      cases control : kernel.control with
      | idle finishing =>
          rw [control] at returned
          exact represents.onKernel (.ok (fun _ _ => rfl)) returned
      | thread | tick | sleep | halted =>
          rw [control] at returned
          exact represents.tickHandled queued returned enough
  | findNext =>
      refine Reaches.get ?_
      rw [represents.control]
      exact represents.findNext returned
  | advance | noInterrupts => exact represents.onKernel (.ok (fun _ _ => rfl)) returned

-----------------------------------------------------------------------------------------
-- Runs
-----------------------------------------------------------------------------------------

/-- The kernel before any thread is queued. -/
def boot (kernel : Kernel) : LinkedKernel :=
  { kernel, store := .empty, lists := fun _ => { first := none, last := none, numInList := 0 } }

/-- A step by an action that may come next and returns, where every aging is calm; the loops have
fuel for all queued threads, and `new` chooses any free addresses.
-/
def Step (linked : LinkedKernel) (action : Kernel.Action) (next : LinkedKernel) : Prop :=
  ∃ allocator fuel kernel,
    linked.Represents kernel
    ∧ kernel.Legal action
    ∧ kernel.Calm action
    ∧ kernel.scheduler.readyList.threads.length + 1 < fuel
    ∧ (perform allocator fuel action).run linked = (.ok (), next)

/-- At the boot the three lists are empty, and so are the cells. -/
theorem represents_boot (empty : kernel.scheduler.readyList = { l1 := [], l2 := [], l3 := [] })
    : (boot kernel).Represents kernel := by
  have strung : (boot kernel).ready.Strung kernel.scheduler.readyList (fun _ => []) := by
    refine ⟨fun level => ⟨.stop, List.nodup_nil, rfl, rfl⟩, fun level => ?_,
      fun _ _ _ _ member => absurd member List.not_mem_nil⟩
    rw [empty]
    cases level <;> rfl
  exact ⟨.of_strung strung rfl rfl, rfl⟩

theorem Represents.unique {other : Kernel} (represents : linked.Represents kernel)
    (others : linked.Represents other)
    : kernel = other := by
  have same := represents.ready.unique others.ready
  rw [← represents.same, ← others.same, same]

/-- What the invariant allows next returns on the lists, and only as it does on sequences. -/
theorem Represents.of_perform (represents : linked.Represents kernel)
    (invariant : kernel.Invariant) {action : Kernel.Action} (legal : kernel.Legal action)
    (calm : kernel.Calm action)
    (enough : kernel.scheduler.readyList.threads.length + 1 < fuel)
    (ran : (LinkedKernel.perform allocator fuel action).run linked = (.ok (), next))
    : ∃ after, kernel.perform action = .ok after ∧ next.Represents after := by
  obtain ⟨_, sound⟩ := invariant.exists_sound
  obtain ⟨after, performed, _⟩ := invariant.perform legal
  obtain ⟨other, again, still⟩ :=
    @Represents.perform allocator fuel _ _ _ represents sound.accurate.queued action calm performed
      enough
  obtain rfl := (Prod.mk.inj (again.symm.trans ran)).2
  exact ⟨after, performed, still⟩

/-- Every run over the lists in which agings are calm is one over sequences of threads, by
induction on the run.
-/
theorem represents_of_reachable {first : Kernel} (working : first.Working)
    (empty : first.scheduler.readyList = { l1 := [], l2 := [], l3 := [] })
    (reachable : Runs.Reachable Step (boot first) linked)
    : ∃ kernel, linked.Represents kernel ∧ Runs.Reachable Kernel.Step first kernel := by
  refine @Runs.Reachable.invariant _ _ _ _ _
    (fun linked => ∃ kernel,
      linked.Represents kernel ∧ Runs.Reachable Kernel.Step first kernel)
    reachable ⟨first, represents_boot empty, .refl first⟩ ?_
  rintro before action next ⟨kernel, represents, reached⟩
    ⟨allocator, fuel, own, represented, legal, calm, enough, ran⟩
  obtain rfl := represents.unique represented
  have invariant := Kernel.invariant_of_reachable working reached
  obtain ⟨after, performed, still⟩ := represents.of_perform invariant legal calm enough ran
  exact ⟨after, still, reached.snoc ⟨legal, performed⟩⟩

/-- No thread is queued when the kernel starts. -/
theorem readyList_of_initial {main : ThreadId} {initPriority : Int} {execExit : Bool}
    {first : Kernel} (started : Kernel.initial main initPriority execExit = .ok first)
    : first.scheduler.readyList = { l1 := [], l2 := [], l3 := [] } := by
  obtain ⟨ready, setReady, started⟩ := of_bind_ok started
  obtain ⟨running, setRunning, started⟩ := of_bind_ok started
  obtain ⟨_, _, _, _, rfl⟩ := SchedulerState.setStatus_eq_ok setReady
  obtain ⟨_, _, _, _, rfl⟩ := SchedulerState.setStatus_eq_ok setRunning
  rw [← Except.ok.inj started]
  rfl

/-- Every run over sequences of threads in which agings are calm is one over lists, by induction
on the run: `new` may take addresses that were never in use.
-/
theorem exists_represents {first : Kernel} (working : first.Working)
    (empty : first.scheduler.readyList = { l1 := [], l2 := [], l3 := [] })
    (reachable : Runs.Reachable Kernel.CalmStep first kernel)
    : ∃ linked, Runs.Reachable Step (boot first) linked ∧ linked.Represents kernel := by
  obtain ⟨trace, run⟩ := reachable
  induction run with
  | nil => exact ⟨boot first, .refl _, represents_boot empty⟩
  | @snoc before after trace action run step ih =>
      obtain ⟨linked, reached, represents⟩ := ih
      obtain ⟨calm, legal, performed⟩ := step
      have started : Runs.Reachable Kernel.Step first before :=
        ⟨trace, run.mono (fun _ _ _ step => step.2)⟩
      obtain ⟨_, sound⟩ := (Kernel.invariant_of_reachable working started).exists_sound
      have enough : before.scheduler.readyList.threads.length + 1
          < before.scheduler.readyList.threads.length + 2 :=
        Nat.lt_succ_self _
      obtain ⟨next, ran, still⟩ :=
        @Represents.perform .fresh _ _ _ _ represents sound.accurate.queued action calm performed
          enough
      exact ⟨next, reached.snoc ⟨_, _, before, represents, legal, calm, enough, ran⟩, still⟩

end LinkedKernel

end Nachos.Threads
