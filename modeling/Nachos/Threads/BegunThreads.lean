import Nachos.Lib.Outcome
import Nachos.Threads.LifeCycle

/-! Which threads are past `Begin` and have not finished, and that only `Begin` and `Finish`
change it.
-/

namespace Nachos.Threads

-----------------------------------------------------------------------------------------
-- Threads that have begun
-----------------------------------------------------------------------------------------

/-- A thread between its fork and its end. -/
def Ongoing (status : Option ThreadStatus) : Prop :=
  status = some .ready ∨ status = some .running ∨ status = some .waiting

/-- A part of `Begin` that has yet to come. -/
def Frame.starts : Frame → Bool
  | .begin | .begun => true
  | _ => false

/-- How often `Begin` has yet to count a thread that is in these calls. -/
def beginnings (calls : List Frame) : Nat := calls.countP Frame.starts

namespace Kernel

/-- A thread that is past `Begin` and has not finished. -/
def Begun (kernel : Kernel) (t : ThreadId) : Prop :=
  Ongoing (kernel.scheduler.statusOf t) ∧ beginnings (kernel.calls t) = 0

/-- A thread of `Exec` that `Begin` counted and `Finish` did not yet. -/
def Counted (kernel : Kernel) (t : ThreadId) : Prop :=
  kernel.isExec t = true ∧ kernel.Begun t

/-- No thread begins, ends or is made, and the counter of the running programs stays. -/
structure Keeps (kernel after : Kernel) : Prop where
  isExec : after.isExec = kernel.isExec
  execExit : after.execExit = kernel.execExit
  execRunningNum : after.execRunningNum = kernel.execRunningNum
  begun : ∀ t, after.Begun t ↔ kernel.Begun t
  beginnings : ∀ t, beginnings (after.calls t) ≤ beginnings (kernel.calls t)
  isNew : ∀ t,
    after.scheduler.statusOf t = some .new ↔ kernel.scheduler.statusOf t = some .new

variable {kernel middle after : Kernel} {next leaving : Option ThreadId} {t : ThreadId}
  {s : SemaphoreId}

theorem Keeps.refl (kernel : Kernel) : Keeps kernel kernel :=
  ⟨rfl, rfl, rfl, fun _ => .rfl, fun _ => le_rfl, fun _ => .rfl⟩

/-- The begun threads are kept by two operations one after the other. -/
theorem Keeps.trans (first : Keeps kernel middle) (second : Keeps middle after)
    : Keeps kernel after where
  isExec := second.isExec.trans first.isExec
  execExit := second.execExit.trans first.execExit
  execRunningNum := second.execRunningNum.trans first.execRunningNum
  begun t := (second.begun t).trans (first.begun t)
  beginnings t := (second.beginnings t).trans (first.beginnings t)
  isNew t := (second.isNew t).trans (first.isNew t)

theorem Keeps.counted (keeps : Keeps kernel after) (t : ThreadId)
    : after.Counted t ↔ kernel.Counted t := by
  rw [Counted, Counted, keeps.isExec, keeps.begun]

/-- What an operation leaves alone, or moves between the statuses of an ongoing thread. -/
theorem Keeps.of_moves (isExec : after.isExec = kernel.isExec)
    (execExit : after.execExit = kernel.execExit)
    (execRunningNum : after.execRunningNum = kernel.execRunningNum)
    (moves : ∀ t,
      after.scheduler.statusOf t = kernel.scheduler.statusOf t
      ∨ Ongoing (kernel.scheduler.statusOf t) ∧ Ongoing (after.scheduler.statusOf t))
    (calls : ∀ t, Threads.beginnings (after.calls t) = Threads.beginnings (kernel.calls t))
    : Keeps kernel after := by
  refine ⟨isExec, execExit, execRunningNum, fun t => ?_, fun t => (calls t).le, fun t => ?_⟩
  · rw [Begun, Begun, calls]
    rcases moves t with same | ⟨was, now⟩
    · rw [same]
    · exact ⟨fun holds => ⟨was, holds.2⟩, fun holds => ⟨now, holds.2⟩⟩
  · rcases moves t with same | ⟨was, now⟩
    · rw [same]
    · constructor
      · intro isNew
        simp [Ongoing, isNew] at now
      · intro isNew
        simp [Ongoing, isNew] at was

/-- An operation that changes neither threads nor calls. -/
theorem Keeps.of_eq (isExec : after.isExec = kernel.isExec)
    (execExit : after.execExit = kernel.execExit)
    (execRunningNum : after.execRunningNum = kernel.execRunningNum)
    (statusOf : after.scheduler.statusOf = kernel.scheduler.statusOf)
    (calls : after.calls = kernel.calls)
    : Keeps kernel after :=
  .of_moves isExec execExit execRunningNum (fun t => .inl (congrFun statusOf t))
    (fun t => by rw [calls])

/-- A change of the status of one ongoing thread. -/
theorem moves_update {status : ThreadStatus} {before final : ThreadId → Option ThreadStatus}
    (changes : final = Function.update before t (some status)) (was : Ongoing (before t))
    (now : Ongoing (some status)) (other : ThreadId)
    : final other = before other ∨ Ongoing (before other) ∧ Ongoing (final other) := by
  rw [changes]
  by_cases same : other = t
  · rw [same, Function.update_self]
    exact .inr ⟨was, now⟩
  · exact .inl (Function.update_of_ne same _ _)

-----------------------------------------------------------------------------------------
-- Calls
-----------------------------------------------------------------------------------------

theorem beginnings_cons {frame : Frame} (calls : List Frame) (outside : frame.starts = false)
    : beginnings (frame :: calls) = beginnings calls :=
  List.countP_cons_of_neg (by simp [outside])

/-- A change of the calls of one thread. -/
theorem beginnings_update {calls : List Frame} (kernel : Kernel)
    (same : beginnings calls = beginnings (kernel.calls t)) (other : ThreadId)
    : beginnings (Function.update kernel.calls t calls other)
      = beginnings (kernel.calls other) := by
  by_cases own : other = t
  · rw [own, Function.update_self]
    exact same
  · rw [Function.update_of_ne own]

theorem keeps_push (frame : Frame) (kernel : Kernel) (t : ThreadId)
    (outside : frame.starts = false)
    : Keeps kernel (kernel.push t frame) :=
  .of_moves rfl rfl rfl (fun _ => .inl rfl)
    (beginnings_update kernel (beginnings_cons _ outside))

theorem keeps_pop {frame : Frame} {rest : List Frame}
    (frames : kernel.calls kernel.currentThread = frame :: rest)
    (outside : frame.starts = false)
    : Keeps kernel kernel.pop := by
  refine .of_moves rfl rfl rfl (fun _ => .inl rfl) (beginnings_update kernel ?_)
  rw [frames]
  exact (beginnings_cons rest outside).symm

-----------------------------------------------------------------------------------------
-- Operations
-----------------------------------------------------------------------------------------

/-- A change of the level keeps the begun threads, by cases on it; the tick comes after it. -/
theorem keeps_setLevel {now : IntStatus} (set : kernel.setLevel now = .ok after)
    : Keeps kernel after := by
  cases now with
  | intOff =>
      rw [setLevel_off] at set
      obtain rfl := Except.ok.inj set
      exact .of_eq rfl rfl rfl rfl rfl
  | intOn =>
      cases inside : kernel.interrupt.inHandler with
      | true =>
          simp [setLevel, inside, bind, Except.bind, throw, throwThe, MonadExceptOf.throw] at set
      | false =>
          simp only [setLevel, inside, Bool.false_eq_true, and_false, if_false, true_and, pure,
            Except.pure] at set
          split at set
          all_goals
            obtain rfl := Except.ok.inj set
            exact .of_eq rfl rfl rfl rfl rfl

/-- A thread that ran or waited becomes ready. -/
theorem keeps_readyToRun (accurate : kernel.scheduler.Accurate next)
    (off : kernel.interrupt.level = .intOff)
    (status
      : kernel.scheduler.statusOf t = some .running
        ∨ kernel.scheduler.statusOf t = some .waiting)
    (ready : kernel.readyToRun t = .ok after)
    : Keeps kernel after := by
  obtain ⟨st, found, idle⟩ : ∃ st,
      kernel.scheduler.statusOf t = some st ∧ (st = .new ∨ st = .running ∨ st = .waiting) :=
    status.elim (fun own => ⟨_, own, .inr (.inl rfl)⟩) (fun own => ⟨_, own, .inr (.inr rfl)⟩)
  obtain ⟨scheduler, done, _, changes⟩ := exists_readyToRun accurate off found idle
  obtain rfl := Except.ok.inj (ready.symm.trans done)
  exact .of_moves rfl rfl rfl (moves_update changes (.inr status) (.inl rfl)) (fun _ => rfl)

/-- The next thread leaves the ready lists, with its status unchanged. -/
theorem keeps_findNextToRun {found : Option ThreadId}
    (accurate : kernel.scheduler.Accurate none) (off : kernel.interrupt.level = .intOff)
    (searched : kernel.findNextToRun = .ok (found, after))
    : Keeps kernel after
      ∧ after.currentThread = kernel.currentThread
      ∧ after.interrupt = kernel.interrupt
      ∧ after.scheduler.statusOf = kernel.scheduler.statusOf
      ∧ after.scheduler.Accurate found := by
  rcases accurate.findNextToRun with none | ⟨t, scheduler, some, accurateAfter, same⟩
  · simp only [findNextToRun, requireOff_of off, none, bind, Except.bind, pure, Except.pure,
      Except.ok.injEq, Prod.mk.injEq] at searched
    obtain ⟨rfl, rfl⟩ := searched
    exact ⟨.refl kernel, rfl, rfl, rfl, accurate⟩
  · simp only [findNextToRun, requireOff_of off, some, bind, Except.bind, pure, Except.pure,
      Except.ok.injEq, Prod.mk.injEq] at searched
    obtain ⟨rfl, rfl⟩ := searched
    exact ⟨.of_eq rfl rfl rfl same rfl, rfl, rfl, same, accurateAfter⟩

/-- SWITCH goes over to a ready thread. -/
theorem keeps_run {finishing : Bool} (accurate : kernel.scheduler.Accurate (some t))
    (switched : kernel.run t finishing = .ok after)
    : Keeps kernel after := by
  obtain ⟨scheduler, done, _, changes⟩ := accurate.dispatch
  have ready := accurate.ready t rfl
  obtain ⟨_, _, rest⟩ := Outcome.of_bind_ok switched
  by_cases marked : finishing = true ∧ kernel.toBeDestroyed ≠ none
  · simp [marked, bind, Except.bind, throw, throwThe, MonadExceptOf.throw] at rest
  · simp only [marked, if_false, done, pure, Except.pure, bind, Except.bind,
      Except.ok.injEq] at rest
    obtain rfl := rest
    exact .of_moves rfl rfl rfl (moves_update changes (.inl ready) (.inr (.inl rfl)))
      (beginnings_update kernel (beginnings_cons _ rfl))

/-- Only a thread that finished is deleted. -/
theorem keeps_checkToBeDestroyed (sound : kernel.Sound none kernel.toBeDestroyed)
    (checked : kernel.checkToBeDestroyed = .ok after)
    : Keeps kernel after := by
  cases marked : kernel.toBeDestroyed with
  | none =>
      simp only [checkToBeDestroyed, marked, pure, Except.pure] at checked
      exact Except.ok.inj checked ▸ .refl kernel
  | some t =>
      have ended := (sound.terminated t).mpr marked
      simp only [checkToBeDestroyed, marked] at checked
      obtain ⟨_, _, rest⟩ := Outcome.of_bind_ok checked
      by_cases own : t = kernel.currentThread
      · simp [own, bind, Except.bind, throw, throwThe, MonadExceptOf.throw] at rest
      · simp only [own, if_false, pure, Except.pure] at rest
        obtain rfl := Except.ok.inj rest
        have gone (other : ThreadId)
            : SchedulerState.statusOf
                {
                  kernel.scheduler with
                  threads := Function.update kernel.scheduler.threads t none
                } other
              = if other = t then none else kernel.scheduler.statusOf other := by
          by_cases same : other = t <;> simp [SchedulerState.statusOf, same]
        refine ⟨rfl, rfl, rfl, fun other => ?_, fun other => ?_, fun other => ?_⟩
        · rw [Begun, Begun, gone]
          by_cases same : other = t
          · simp [same, ended, Ongoing]
          · rw [if_neg same]
            change _ ∧ beginnings (Function.update kernel.calls t [] other) = 0 ↔ _
            rw [Function.update_of_ne same]
        · change beginnings (Function.update kernel.calls t [] other) ≤ _
          by_cases same : other = t
          · rw [same, Function.update_self]
            exact Nat.zero_le _
          · rw [Function.update_of_ne same]
        · rw [gone]
          by_cases same : other = t
          · simp [same, ended]
          · rw [if_neg same]

/-- Yield keeps the begun threads, by cases on whether another one is ready. -/
theorem keeps_yield (working : kernel.Working) (yielded : kernel.yield = .ok after)
    : Keeps kernel after := by
  simp only [yield, setLevel_off, bind, Except.bind] at yielded
  have lowered : Keeps kernel { kernel with interrupt.level := .intOff } :=
    .of_eq rfl rfl rfl rfl rfl
  obtain ⟨⟨nextThread, found⟩, searched, rest⟩ := Outcome.of_bind_ok yielded
  obtain ⟨kept, current, interrupt, same, accurate⟩ :=
    @keeps_findNextToRun { kernel with interrupt.level := .intOff } _ _
      working.active.sound.accurate rfl searched
  have before := lowered.trans kept
  cases nextThread with
  | none => exact before.trans (keeps_setLevel rest)
  | some t =>
      obtain ⟨ready, readied, switched⟩ := Outcome.of_bind_ok rest
      have running : found.scheduler.statusOf found.currentThread = some .running := by
        rw [same, current]
        exact (working.active.running _).mpr rfl
      have off : found.interrupt.level = .intOff := by rw [interrupt]
      obtain ⟨scheduler, done, accurateAfter, _⟩ :=
        exists_readyToRun accurate off running (.inr (.inl rfl))
      have readyKept := keeps_readyToRun accurate off (.inl running) readied
      obtain rfl := Except.ok.inj (readied.symm.trans done)
      have pushed := keeps_push (.yield kernel.interrupt.level)
        { found with scheduler, history := found.history ++ [.readied found.currentThread] }
        found.currentThread rfl
      exact ((before.trans readyKept).trans pushed).trans (keeps_run accurateAfter switched)

/-- The running thread goes to sleep, but does not finish. -/
theorem keeps_sleep (accurate : kernel.scheduler.Accurate none)
    (running : ∀ t, kernel.scheduler.statusOf t = some .running ↔ t = kernel.currentThread)
    (off : kernel.interrupt.level = .intOff) (slept : kernel.sleep false = .ok after)
    : Keeps kernel after := by
  obtain ⟨scheduler, done, _, changes, _⟩ := exists_sleep accurate running off false
  obtain rfl := Except.ok.inj (slept.symm.trans done)
  exact .of_moves rfl rfl rfl
    (moves_update changes (.inr (.inl ((running _).mpr rfl))) (.inr (.inr rfl)))
    (fun _ => rfl)

/-- The frame of `P` and its semaphore change before the thread sleeps in it. -/
theorem keeps_wait {oldLevel : IntStatus} (working : kernel.Working)
    (off : kernel.interrupt.level = .intOff) (waited : kernel.wait s oldLevel = .ok after)
    : Keeps kernel after := by
  obtain ⟨semaphore, _, rest⟩ := Outcome.of_bind_ok waited
  by_cases taken : semaphore.value = 0
  · by_cases queued : kernel.currentThread ∈ semaphore.queue
    · simp [taken, queued, bind, Except.bind, throw, throwThe, MonadExceptOf.throw] at rest
    · simp only [taken, queued, if_true, if_false] at rest
      have stored : Keeps kernel
          (kernel.store s { value := 0, queue := semaphore.queue ++ [kernel.currentThread] }) :=
        .of_eq rfl rfl rfl rfl rfl
      have pushed := keeps_push (.p s oldLevel)
        (kernel.store s { value := 0, queue := semaphore.queue ++ [kernel.currentThread] })
        kernel.currentThread rfl
      exact (stored.trans pushed).trans
        (keeps_sleep working.active.sound.accurate working.active.running off rest)
  · simp only [taken, if_false] at rest
    have stored : Keeps kernel
        (kernel.store s { semaphore with value := semaphore.value - 1 }) :=
      .of_eq rfl rfl rfl rfl rfl
    exact stored.trans (keeps_setLevel rest)

/-- A thread that waited becomes ready, if one did. -/
theorem keeps_v (sound : kernel.Sound none leaving) (exist : (kernel.semaphores s).isSome)
    (signalled : kernel.v s = .ok after)
    : Keeps kernel after := by
  obtain ⟨scheduler, semaphores, history, performed, _, changes⟩ := exists_v sound exist
  rw [performed] at signalled
  have moved : Keeps kernel
      { kernel with interrupt.level := .intOff, scheduler, semaphores, history } := by
    refine .of_moves rfl rfl rfl (fun t => ?_) (fun _ => rfl)
    rcases changes t with same | ⟨waits, ready⟩
    · exact .inl same
    · exact .inr ⟨.inr (.inr waits), .inl ready⟩
  exact moved.trans (keeps_setLevel signalled)

-----------------------------------------------------------------------------------------
-- Going on
-----------------------------------------------------------------------------------------

/-- In `Begin` a thread is beginning before and after interrupts are enabled. -/
theorem keeps_resume_begin (switched : kernel.Switched)
    (frames : kernel.calls kernel.currentThread = [.begin])
    (resumed : kernel.resume = .ok after)
    : Keeps kernel after := by
  simp only [resume, frames] at resumed
  obtain ⟨checked, deleted, set⟩ := Outcome.of_bind_ok resumed
  obtain ⟨_, done, _, current, calls, _⟩ :=
    @exists_checkToBeDestroyed kernel.pop switched.sound.pop switched.running
  obtain rfl := Except.ok.inj (deleted.symm.trans done)
  have kept := keeps_checkToBeDestroyed switched.sound.pop deleted
  suffices Keeps kernel (checked.push checked.currentThread .begun) from
    this.trans (keeps_setLevel set)
  rw [show kernel.pop.currentThread = kernel.currentThread from rfl] at current calls
  rw [calls_pop, frames] at calls
  have now : (checked.push checked.currentThread .begun).calls kernel.currentThread
      = [.begun] := by
    rw [← current, calls_push, current, calls]
    rfl
  have elsewhere {t : ThreadId} (other : t ≠ kernel.currentThread)
      : (checked.push checked.currentThread .begun).calls t = checked.calls t
        ∧ kernel.pop.calls t = kernel.calls t :=
    ⟨Function.update_of_ne (current ▸ other) _ _, Function.update_of_ne other _ _⟩
  refine ⟨kept.isExec, kept.execExit, kept.execRunningNum, fun t => ?_, fun t => ?_, kept.isNew⟩
  · rw [Begun, Begun]
    by_cases own : t = kernel.currentThread
    · rw [own, now, frames]
      refine iff_of_false ?_ ?_ <;>
        · rintro ⟨_, holds⟩
          cases holds
    · have others := kept.begun t
      rw [Begun, Begun, (elsewhere own).2] at others
      rw [(elsewhere own).1]
      exact others
  · by_cases own : t = kernel.currentThread
    · rw [own, now, frames]
      exact le_rfl
    · have others := kept.beginnings t
      rwa [(elsewhere own).1, ← (elsewhere own).2]

/-- A thread that goes on keeps all, unless it counts itself. -/
theorem keeps_resume (invariant : kernel.Invariant) (control : kernel.control = .thread)
    (counted : ∀ rest, kernel.calls kernel.currentThread ≠ .begun :: rest)
    (resumed : kernel.resume = .ok after)
    : Keeps kernel after := by
  have goesOn := resumed
  cases frames : kernel.calls kernel.currentThread with
  | nil =>
      simp only [resume, frames] at goesOn
      exact Except.ok.inj goesOn ▸ .refl kernel
  | cons frame rest =>
      simp only [resume, frames] at goesOn
      rcases invariant.of_thread control with working | returning | switched
      · have inner := (List.forall_mem_cons.mp (frames ▸ working.inner)).1
        cases frame with
        | begun => exact absurd frames (counted rest)
        | oneTick oldStatus =>
            obtain rfl := Except.ok.inj goesOn
            exact (keeps_pop frames rfl).trans (.of_eq rfl rfl rfl rfl rfl)
        | begin => exact absurd inner id
        | run => exact absurd inner id
        | yield _ => exact absurd inner id
        | p _ _ => exact absurd inner id
      · have popped (inner : Inner rest) : kernel.pop.Working := by
          refine ⟨returning.active.pop, returning.control, returning.outside, ?_⟩
          change Inner (kernel.pop.calls kernel.currentThread)
          rw [calls_pop, frames]
          exact inner
        have blocked := returning.blocked
        rw [frames] at blocked
        cases blocked with
        | yield oldLevel inner =>
            exact (keeps_pop frames rfl).trans (keeps_setLevel goesOn)
        | p s oldLevel inner =>
            exact (keeps_pop frames rfl).trans
              (keeps_wait (popped inner) returning.off goesOn)
      · have suspended := switched.suspended
        rw [frames] at suspended
        cases suspended with
        | run blocked =>
            obtain ⟨_, _, checked⟩ := Outcome.of_bind_ok goesOn
            exact (keeps_pop frames rfl).trans
              (keeps_checkToBeDestroyed switched.sound.pop checked)
        | begin => exact keeps_resume_begin switched frames resumed

/-- The timer keeps the begun threads, since it only ages and asks for a switch. -/
theorem keeps_callBack (accurate : kernel.scheduler.Accurate none)
    (running
      : kernel.interrupt.status ≠ .idleMode →
        kernel.scheduler.statusOf kernel.currentThread = some .running)
    (performed : kernel.inHandler.callBack = .ok after)
    : Keeps kernel after := by
  obtain ⟨preempt, scheduler, done, _, same, _⟩ :=
    accurate.callBack (kernel.interrupt.status = .idleMode)
      (fun busy => running (of_decide_eq_false busy))
  rw [callBack_inHandler done] at performed
  obtain rfl := Except.ok.inj performed
  exact .of_eq rfl rfl rfl same rfl

/-- The end of a tick keeps the begun threads, by cases on whether the handler asked for a switch.
-/
theorem keeps_tickHandled (ticking : kernel.Ticking) (handled : kernel.tickHandled = .ok after)
    : Keeps kernel after := by
  unfold tickHandled at handled
  dsimp only at handled
  split at handled
  · have ready : Active
        {
          kernel with
          interrupt :=
            { level := .intOn, inHandler := false, yieldOnReturn := false, status := .systemMode }
          control := .thread
        } :=
      ticking.active.congr ⟨rfl, rfl, rfl, rfl, rfl, rfl, rfl⟩
    have pushed := @Active.push _ (.oneTick kernel.interrupt.status) ready nofun
    have yielded := @keeps_yield _ after ⟨pushed, rfl, rfl, by
      change Inner ((push kernel.currentThread _ _).calls kernel.currentThread)
      rw [calls_push]
      exact Inner.cons ticking.inner trivial⟩ handled
    have asked : Keeps kernel
        {
          kernel with
          interrupt :=
            { level := .intOn, inHandler := false, yieldOnReturn := false, status := .systemMode }
          control := .thread
        } :=
      .of_eq rfl rfl rfl rfl rfl
    exact (asked.trans (keeps_push (.oneTick kernel.interrupt.status) _ _ rfl)).trans
      yielded
  · obtain rfl := Except.ok.inj handled
    exact .of_eq rfl rfl rfl rfl rfl

/-- The loop of Sleep keeps the begun threads, by cases on whether another one is ready. -/
theorem keeps_findNext {finishing : Bool} (sleeping : kernel.Sleeping finishing)
    (performed : kernel.findNext finishing = .ok after)
    : Keeps kernel after := by
  obtain ⟨⟨nextThread, found⟩, searched, rest⟩ := Outcome.of_bind_ok performed
  obtain ⟨kept, _, _, _, accurate⟩ :=
    keeps_findNextToRun sleeping.sound.accurate sleeping.off searched
  cases nextThread with
  | none =>
      obtain rfl := Except.ok.inj rest
      exact kept.trans (.of_eq rfl rfl rfl rfl rfl)
  | some t => exact kept.trans (keeps_run accurate rest)

-----------------------------------------------------------------------------------------
-- Steps
-----------------------------------------------------------------------------------------

/-- The steps that make a thread, or count its beginning or its end. -/
def Counts (kernel : Kernel) : Action → Prop
  | .call (.construct _ _) | .call (.setIsExec _) | .call (.fork _) | .call .finish => True
  | .resume => ∃ rest, kernel.calls kernel.currentThread = .begun :: rest
  | _ => False

/-- The other calls of a thread's own code, by cases on the call. -/
theorem keeps_call {call : Call} (working : kernel.Working) (admissible : kernel.Admissible call)
    (other : ¬kernel.Counts (.call call)) (performed : kernel.perform (.call call) = .ok after)
    : Keeps kernel after := by
  cases call with
  | construct _ _ | setIsExec _ | fork _ | finish => exact absurd trivial other
  | yield => exact keeps_yield working performed
  | p s =>
      simp only [perform, p, setLevel_off, bind, Except.bind] at performed
      have lowered : Keeps kernel { kernel with interrupt.level := .intOff } :=
        .of_eq rfl rfl rfl rfl rfl
      exact lowered.trans (keeps_wait working.off rfl performed)
  | v s => exact keeps_v working.active.sound admissible performed
  | setLevel now => exact keeps_setLevel performed
  | semaphore s initialValue =>
      obtain rfl := Except.ok.inj performed
      exact .of_eq rfl rfl rfl rfl rfl
  | setStatus status =>
      obtain rfl := Except.ok.inj performed
      exact .of_eq rfl rfl rfl rfl rfl
  | oneTick =>
      obtain rfl := Except.ok.inj performed
      exact .of_eq rfl rfl rfl rfl rfl
  | halt =>
      obtain rfl := Except.ok.inj performed
      exact .of_eq rfl rfl rfl rfl rfl

/-- The other steps, by cases on the action. -/
theorem keeps_step {action : Action} (invariant : kernel.Invariant)
    (step : Step kernel action after) (other : ¬kernel.Counts action)
    : Keeps kernel after := by
  obtain ⟨legal, performed⟩ := step
  cases action with
  | call call => exact keeps_call (invariant.own legal.1 legal.2.1) legal.2.2 other performed
  | resume =>
      exact keeps_resume invariant legal.1 (fun rest frames => other ⟨rest, frames⟩) performed
  | timer =>
      rcases invariant.interrupted legal with ticking | ⟨finishing, control, sleeping⟩
      · exact keeps_callBack ticking.active.sound.accurate
          (fun _ => (ticking.active.running _).mpr rfl) performed
      · exact keeps_callBack sleeping.sound.accurate
          (fun busy => absurd (sleeping.status control) busy) performed
  | device s =>
      have entered : Keeps kernel kernel.inHandler := .of_eq rfl rfl rfl rfl rfl
      rcases invariant.interrupted legal.1 with ticking | ⟨finishing, control, sleeping⟩
      · exact entered.trans (@keeps_v kernel.inHandler _ _ _
          (ticking.active.sound.congr ⟨rfl, rfl, rfl, rfl, rfl, rfl, rfl⟩) legal.2 performed)
      · exact entered.trans (@keeps_v kernel.inHandler _ _ _
          (sleeping.sound.congr ⟨rfl, rfl, rfl, rfl, rfl, rfl, rfl⟩) legal.2 performed)
  | handled =>
      rcases invariant.interrupted legal with ticking | ⟨finishing, control, sleeping⟩
      · simp only [perform, ticking.control] at performed
        exact keeps_tickHandled ticking performed
      · simp only [perform, control] at performed
        obtain rfl := Except.ok.inj performed
        exact .of_eq rfl rfl rfl rfl rfl
  | findNext =>
      obtain ⟨finishing, control⟩ : ∃ finishing, kernel.control = .sleep finishing :=
        legal.elim (fun control => ⟨_, control⟩) (fun control => ⟨_, control⟩)
      have sleeping := invariant.of_sleep (.inl control)
      have same : decide (kernel.control = .sleep true) = finishing := by
        rw [control]
        cases finishing <;> rfl
      rw [perform, same] at performed
      exact keeps_findNext sleeping performed
  | advance ticks =>
      obtain rfl := Except.ok.inj performed
      exact .of_eq rfl rfl rfl rfl rfl
  | noInterrupts =>
      obtain rfl := Except.ok.inj performed
      exact .of_eq rfl rfl rfl rfl rfl

/-- A new thread stays new when another finishes. -/
theorem isNew_sleep {number : Int} (active : kernel.Active) (apart : t ≠ kernel.currentThread)
    (isNew : kernel.scheduler.statusOf t = some .new)
    (slept
      : sleep true { kernel with interrupt.level := .intOff, execRunningNum := number }
          = .ok after)
    : after.scheduler.statusOf t = some .new := by
  obtain ⟨scheduler, done, _, changes, _⟩ :=
    @exists_sleep { kernel with interrupt.level := .intOff, execRunningNum := number }
      active.sound.accurate active.running rfl true
  obtain rfl := Except.ok.inj (slept.symm.trans done)
  change scheduler.statusOf t = some .new
  rw [changes, Function.update_of_ne apart]
  exact isNew

/-- A new thread stays new until it is forked, by cases on the steps that count. -/
theorem isNew_step {action : Action} (invariant : kernel.Invariant)
    (step : Step kernel action after) (isNew : kernel.scheduler.statusOf t = some .new)
    (other : action ≠ .call (.fork t))
    : after.scheduler.statusOf t = some .new := by
  by_cases counts : kernel.Counts action
  swap
  · exact ((keeps_step invariant step counts).isNew t).mpr isNew
  obtain ⟨legal, performed⟩ := step
  cases action with
  | resume =>
      obtain ⟨rest, frames⟩ := counts
      simp only [perform, resume, frames] at performed
      split at performed
      all_goals
        obtain rfl := Except.ok.inj performed
        exact isNew
  | call call =>
      have active := (invariant.own legal.1 legal.2.1).active
      cases call with
      | construct fresh initPriority =>
          obtain rfl := Except.ok.inj performed
          have apart : t ≠ fresh := by
            rintro rfl
            have free : kernel.scheduler.threads t = none := legal.2.2
            simp [SchedulerState.statusOf, free] at isNew
          change (kernel.scheduler.put fresh _).statusOf t = some .new
          rw [SchedulerState.statusOf_put, Function.update_of_ne apart]
          exact isNew
      | setIsExec marked =>
          obtain rfl := Except.ok.inj performed
          exact isNew
      | fork forked =>
          have apart : t ≠ forked := by
            rintro rfl
            exact other rfl
          obtain ⟨scheduler, ready, _, changes⟩ :=
            @exists_readyToRun
              {
                kernel with
                calls := Function.update kernel.calls forked [.begin]
                interrupt.level := .intOff
              } _ _ _ active.sound.accurate rfl legal.2.2 (.inl rfl)
          simp only [perform, fork, setLevel_off, ready, bind, Except.bind] at performed
          refine ((keeps_setLevel performed).isNew t).mpr ?_
          change scheduler.statusOf t = some .new
          rw [changes, Function.update_of_ne apart]
          exact isNew
      | finish =>
          have apart : t ≠ kernel.currentThread := by
            rintro rfl
            simp [(active.running _).mpr rfl] at isNew
          simp only [perform, finish, setLevel_off, bind, Except.bind] at performed
          split at performed
          · split at performed
            · obtain rfl := Except.ok.inj performed
              exact isNew
            · exact isNew_sleep active apart isNew performed
          · exact isNew_sleep active apart isNew performed
      | _ => exact absurd counts id
  | _ => exact absurd counts id

end Kernel

end Nachos.Threads
