import Nachos.Threads.KernelSteps

/-! How threads give up the processor and get it back: becoming ready, SWITCH, deleting a
finished thread, yielding, sleeping and waiting at semaphores.
-/

namespace Nachos.Threads

namespace Kernel

variable {kernel after : Kernel} {next leaving : Option ThreadId} {t : ThreadId}
  {st : ThreadStatus}

-----------------------------------------------------------------------------------------
-- Becoming ready
-----------------------------------------------------------------------------------------

/-- The phase of a thread that neither finished nor is absent. -/
theorem phase_alive (status : kernel.scheduler.statusOf t = some st) (busy : st ≠ .terminated)
    : kernel.phase t = .alive := by
  rw [phase, status]
  cases st <;> first | rfl | exact absurd rfl busy

/-- A thread that did not finish gets a status of one that did not. -/
theorem Sound.terminated_update (sound : kernel.Sound next leaving)
    (before : kernel.scheduler.statusOf t ≠ some .terminated) (alive : st ≠ .terminated)
    : ∀ other, Function.update kernel.scheduler.statusOf t (some st) other = some .terminated
      ↔ leaving = some other := by
  refine (Function.forall_update_iff kernel.scheduler.statusOf
    (fun other now => now = some .terminated ↔ leaving = some other)).mpr
    ⟨?_, fun other _ => sound.terminated other⟩
  rw [← sound.terminated]
  exact iff_of_false (fun ended => alive (Option.some.inj ended)) before

/-- New calls of a thread that open no semaphore. -/
theorem Sound.opened_update (sound : kernel.Sound next leaving) {calls : List Frame}
    (closed : ∀ s oldLevel, .p s oldLevel ∉ calls)
    : ∀ other s oldLevel, .p s oldLevel ∈ Function.update kernel.calls t calls other
      → (kernel.semaphores s).isSome :=
  (Function.forall_update_iff kernel.calls
    (fun _ own => ∀ s oldLevel, .p s oldLevel ∈ own → (kernel.semaphores s).isSome)).mpr
    ⟨fun s oldLevel member => absurd member (closed s oldLevel),
      fun other _ => sound.opened other⟩

/-- Another thread than the current one gets a status other than running. -/
theorem Active.running_update (active : kernel.Active) (apart : t ≠ kernel.currentThread)
    (idle : st ≠ .running)
    : ∀ other, Function.update kernel.scheduler.statusOf t (some st) other = some .running
      ↔ other = kernel.currentThread :=
  (Function.forall_update_iff kernel.scheduler.statusOf
    (fun other now => now = some .running ↔ other = kernel.currentThread)).mpr
    ⟨iff_of_false (fun runs => idle (Option.some.inj runs)) apart,
      fun other _ => active.running other⟩

/-- `ReadyToRun` changes the scheduler only. -/
theorem exists_readyToRun (accurate : kernel.scheduler.Accurate next)
    (off : kernel.interrupt.level = .intOff) (status : kernel.scheduler.statusOf t = some st)
    (idle : st = .new ∨ st = .running ∨ st = .waiting)
    : ∃ scheduler,
        kernel.readyToRun t
          = .ok { kernel with scheduler, history := kernel.history ++ [.readied t] }
        ∧ scheduler.Accurate next
        ∧ scheduler.statusOf
          = Function.update kernel.scheduler.statusOf t (some .ready) := by
  obtain ⟨scheduler, done, accurateAfter, changes⟩ := accurate.readyToRun status idle
  refine ⟨scheduler, ?_, accurateAfter, changes⟩
  simp only [readyToRun, requireOff_of off, done, bind, Except.bind, pure, Except.pure]

/-- The books after a thread became ready. -/
theorem Sound.readied {before : Option ThreadId} (sound : kernel.Sound before leaving)
    (status : kernel.scheduler.statusOf t = some st)
    (idle : st = .new ∨ st = .running ∨ st = .waiting)
    (accurate : after.scheduler.Accurate next)
    (changes
      : after.scheduler.statusOf
          = Function.update kernel.scheduler.statusOf t (some .ready))
    (waiting : Waiting after.semaphores after.scheduler.statusOf)
    (current : after.currentThread = kernel.currentThread)
    (marked : after.toBeDestroyed = kernel.toBeDestroyed)
    (history : after.history = kernel.history ++ [.readied t])
    (kept : ∀ other, other ≠ t → after.calls other = kernel.calls other)
    (own : t ≠ kernel.currentThread → Suspended (after.calls t))
    (opened : ∀ (other : ThreadId) (s : SemaphoreId) (oldLevel : IntStatus),
      .p s oldLevel ∈ after.calls other → (after.semaphores s).isSome)
    : after.Sound next leaving := by
  have alive : st ≠ .terminated := by rcases idle with rfl | rfl | rfl <;> decide
  refine ⟨accurate, waiting, ?_, opened, ?_, ?_⟩
  · intro other apart idle
    rw [current] at apart
    by_cases same : other = t
    · subst same
      exact own apart
    · rw [changes, Function.update_of_ne same] at idle
      rw [kept other same]
      exact sound.suspended other apart idle
  · rw [changes]
    refine sound.terminated_update ?_ (by decide)
    rw [status]
    exact fun ended => alive (Option.some.inj ended)
  · refine sound.lives.snoc history (fun other => ?_)
    by_cases same : other = t
    · subst same
      have ready : after.scheduler.statusOf other = some .ready := by
        rw [changes, Function.update_self]
      rw [phase_alive status alive, phase_alive ready (by decide)]
      simp [Phase.after]
    · rw [phase, phase, changes, Function.update_of_ne same, marked]
      simp [Phase.after, Ne.symm same]

/-- The scheduler may move threads between lists, and take out the next one. -/
theorem Sound.reschedule {before : Option ThreadId} {scheduler : SchedulerState}
    (sound : kernel.Sound before leaving) (accurate : scheduler.Accurate next)
    (same : scheduler.statusOf = kernel.scheduler.statusOf)
    : Sound { kernel with scheduler } next leaving := by
  refine ⟨accurate, ?_, ?_, sound.opened, ?_, ?_⟩
  · rw [same]
    exact sound.waiting
  · rw [same]
    exact sound.suspended
  · rw [same]
    exact sound.terminated
  · intro t
    rw [phase, same]
    exact sound.lives t

-----------------------------------------------------------------------------------------
-- SWITCH
-----------------------------------------------------------------------------------------

/-- `Run` never faults, and goes over to the next thread. -/
theorem Sound.run {finishing : Bool} (sound : kernel.Sound (some t) (kernel.sleeper finishing))
    (unmarked : kernel.toBeDestroyed = none)
    (idle : ∀ other, kernel.scheduler.statusOf other ≠ some .running)
    (off : kernel.interrupt.level = .intOff) (outside : kernel.interrupt.inHandler = false)
    (blocked : finishing = false → Blocked (kernel.calls kernel.currentThread))
    : ∃ after, kernel.run t finishing = .ok after ∧ after.Switched := by
  obtain ⟨scheduler, done, accurate, changes⟩ := sound.accurate.dispatch
  have ready := sound.accurate.ready t rfl
  have opened := (@Sound.push _ _ _ .run sound nofun).opened
  have performed : kernel.run t finishing
      = .ok
          {
            kernel.push kernel.currentThread .run with
            scheduler
            toBeDestroyed := kernel.sleeper finishing
            currentThread := t
            control := .thread
            history := kernel.history ++ [.dispatched t]
          } := by
    simp [Kernel.run, requireOff_of off, unmarked, done, sleeper, bind, Except.bind, pure,
      Except.pure]
  refine ⟨_, performed, ?_⟩
  have suspended (other : ThreadId)
      (status
        : kernel.scheduler.statusOf other = some .ready
          ∨ kernel.scheduler.statusOf other = some .waiting)
      : Suspended ((kernel.push kernel.currentThread .run).calls other) := by
    by_cases own : other = kernel.currentThread
    · subst own
      cases finishing with
      | false =>
          rw [calls_push]
          exact .run (blocked rfl)
      | true =>
          have left := (sound.terminated kernel.currentThread).mpr rfl
          rw [left] at status
          simp at status
    · change Suspended (Function.update kernel.calls kernel.currentThread _ other)
      rw [Function.update_of_ne own]
      exact sound.suspended other own status
  refine ⟨⟨accurate, ?_, ?_, opened, ?_, ?_⟩, ?_, rfl, outside, off, suspended t (.inl ready)⟩
  · rw [changes]
    exact sound.waiting.update (by simp [ready])
  · intro other different status
    refine suspended other ?_
    rwa [changes, Function.update_of_ne different] at status
  · rw [changes]
    exact sound.terminated_update (by simp [ready]) (by decide)
  · refine sound.lives.snoc rfl (fun other => ?_)
    rw [phase, phase]
    change Phase.after other _ (.dispatched t) = some (Phase.ofStatus
      (decide (kernel.sleeper finishing = some other)) (scheduler.statusOf other))
    rw [unmarked, changes]
    by_cases same : other = t
    · subst same
      rw [ready, Function.update_self]
      rfl
    · rw [Function.update_of_ne same]
      cases status : kernel.scheduler.statusOf other with
      | none => simp [Phase.ofStatus, Phase.after, Ne.symm same]
      | some own =>
          cases own <;>
            simp [Phase.ofStatus, Phase.after, Ne.symm same]
          simp [(sound.terminated other).mp status]
  · intro other
    change scheduler.statusOf other = some .running ↔ other = t
    rw [changes]
    by_cases same : other = t
    · simp [same]
    · simp [same, idle other]

/-- The thread that finished leaves the books. -/
theorem Sound.deleted (sound : kernel.Sound none kernel.toBeDestroyed)
    (marked : kernel.toBeDestroyed = some t)
    (threads : after.scheduler.threads = Function.update kernel.scheduler.threads t none)
    (readyList : after.scheduler.readyList = kernel.scheduler.readyList)
    (calls : after.calls = Function.update kernel.calls t [])
    (semaphores : after.semaphores = kernel.semaphores)
    (current : after.currentThread = kernel.currentThread)
    (unmarked : after.toBeDestroyed = none)
    (history : after.history = kernel.history ++ [.deleted t])
    : after.Sound none none := by
  have ended := (sound.terminated t).mpr marked
  have changes (other : ThreadId)
      : after.scheduler.statusOf other
        = if other = t then none else kernel.scheduler.statusOf other := by
    rw [SchedulerState.statusOf, threads]
    by_cases same : other = t <;> simp [SchedulerState.statusOf, same]
  constructor
  · refine sound.accurate.congr readyList (fun other => ?_)
    rw [changes]
    split
    · rename_i same
      simp [same, ended]
    · rfl
  · rw [semaphores]
    refine sound.waiting.congr (fun other waits => ?_)
    rw [changes, if_neg]
    · exact waits
    · rintro rfl
      rw [ended] at waits
      cases waits
  · intro other different status
    rw [changes] at status
    rw [current] at different
    split at status
    · simp at status
    · rename_i same
      rw [calls, Function.update_of_ne same]
      exact sound.suspended other different status
  · rw [calls, semaphores]
    exact sound.opened_update (fun _ _ => List.not_mem_nil)
  · intro other
    have status := sound.terminated other
    rw [marked] at status
    rw [changes]
    split
    · simp
    · rename_i same
      rw [status]
      refine ⟨fun owner => absurd (Option.some.inj owner).symm same, ?_⟩
      rintro ⟨⟩
  · refine sound.lives.snoc history (fun other => ?_)
    rw [phase, phase, changes, marked, unmarked]
    by_cases same : other = t
    · subst same
      rw [ended]
      simp [Phase.ofStatus, Phase.after]
    · simp [same, Ne.symm same, Phase.after]

/-- After SWITCH the thread that finished is deleted, if one did. -/
theorem exists_checkToBeDestroyed (sound : kernel.Sound none kernel.toBeDestroyed)
    (running : ∀ t, kernel.scheduler.statusOf t = some .running ↔ t = kernel.currentThread)
    : ∃ after,
        kernel.checkToBeDestroyed = .ok after
        ∧ after.Active
        ∧ after.currentThread = kernel.currentThread
        ∧ after.calls kernel.currentThread = kernel.calls kernel.currentThread
        ∧ after.control = kernel.control
        ∧ after.interrupt = kernel.interrupt
        ∧ ∀ t, kernel.toBeDestroyed = some t → after.scheduler.threads t = none := by
  cases marked : kernel.toBeDestroyed with
  | none =>
      refine ⟨kernel, ?_, ⟨marked ▸ sound, marked, running⟩, rfl, rfl, rfl, rfl, nofun⟩
      simp [checkToBeDestroyed, marked, pure, Except.pure]
  | some t =>
      have ended := (sound.terminated t).mpr marked
      obtain ⟨thread, found, _⟩ := SchedulerState.exists_of_statusOf ended
      have apart : t ≠ kernel.currentThread := by
        rintro rfl
        have status := (running _).mpr rfl
        rw [ended] at status
        cases status
      refine ⟨
        {
          kernel with
          scheduler.threads := Function.update kernel.scheduler.threads t none
          calls := Function.update kernel.calls t []
          toBeDestroyed := none
          history := kernel.history ++ [.deleted t]
        }, ?_, ⟨?_, rfl, fun other => ?_⟩, rfl, ?_, rfl, rfl, ?_⟩
      · simp [checkToBeDestroyed, marked, SchedulerState.lookup_of_some found, apart, bind,
          Except.bind, pure, Except.pure]
      · exact sound.deleted marked rfl rfl rfl rfl rfl rfl rfl
      · rw [← running other, SchedulerState.statusOf]
        by_cases same : other = t
        · simp [same, ended]
        · simp [SchedulerState.statusOf, same]
      · exact Function.update_of_ne (Ne.symm apart) _ _
      · rintro _ ⟨⟩
        exact Function.update_self ..

-----------------------------------------------------------------------------------------
-- Yielding
-----------------------------------------------------------------------------------------

/-- Nobody runs once the running thread became something else. -/
theorem not_running {scheduler : SchedulerState} {status : ThreadStatus}
    (running : ∀ t, kernel.scheduler.statusOf t = some .running ↔ t = kernel.currentThread)
    (changes
      : scheduler.statusOf
          = Function.update kernel.scheduler.statusOf kernel.currentThread (some status))
    (busy : status ≠ .running)
    : ∀ other, scheduler.statusOf other ≠ some .running := by
  intro other
  rw [changes]
  by_cases same : other = kernel.currentThread
  · rw [same, Function.update_self]
    exact fun runs => busy (Option.some.inj runs)
  · rw [Function.update_of_ne same, ne_eq, running]
    exact same

/-- A thread keeps the processor when no other is ready. -/
theorem Working.yield (working : kernel.Working)
    : ∃ after,
        kernel.yield = .ok after ∧ (after.Working ∨ after.Ticking ∨ after.Switched) := by
  have active := working.active
  have sound := active.sound
  rcases sound.accurate.findNextToRun with found | ⟨t, scheduler, found, accurate, same⟩
  · have off : Working { kernel with interrupt.level := .intOff } :=
      { working with active := active.congr ⟨rfl, rfl, rfl, rfl, rfl, rfl, rfl⟩ }
    obtain ⟨after, set, _, settled⟩ := off.setLevel kernel.interrupt.level
    refine ⟨after, ?_, settled.imp_right .inl⟩
    simp only [Kernel.yield, setLevel_off, findNextToRun, requireOff, if_true, found, bind,
      Except.bind, pure, Except.pure]
    exact set
  · have own := (active.running _).mpr rfl
    have ownNow : scheduler.statusOf kernel.currentThread = some .running := by rw [same, own]
    obtain ⟨final, ready, accurateFinal, changes⟩ :=
      @exists_readyToRun
        { kernel with interrupt.level := .intOff, scheduler } _ _ _ accurate rfl ownNow
        (.inr (.inl rfl))
    rw [same] at changes
    have pushed := @Sound.push _ _ _ (.yield kernel.interrupt.level) sound nofun
    have books : Sound
        (push kernel.currentThread (.yield kernel.interrupt.level)
          {
            kernel with
            interrupt.level := .intOff
            scheduler := final
            history := kernel.history ++ [.readied kernel.currentThread]
          }) (some t) none := by
      refine sound.readied own (.inr (.inl rfl)) accurateFinal changes ?_ rfl rfl rfl ?_
        (absurd rfl) pushed.opened
      · change Waiting kernel.semaphores final.statusOf
        rw [changes]
        exact sound.waiting.update (by simp [own])
      · exact fun other different => Function.update_of_ne different _ _
    obtain ⟨after, done, switched⟩ := @Sound.run _ t false books active.unmarked
      (not_running active.running changes (by decide)) rfl working.outside
      (fun _ => by
        change Blocked ((push kernel.currentThread _ _).calls kernel.currentThread)
        rw [calls_push]
        exact .yield _ working.inner)
    refine ⟨after, ?_, .inr (.inr switched)⟩
    simp only [Kernel.yield, setLevel_off, findNextToRun, requireOff, if_true, found, bind,
      Except.bind, pure, Except.pure]
    simp only [ready]
    exact done

-----------------------------------------------------------------------------------------
-- Sleeping
-----------------------------------------------------------------------------------------

/-- `Sleep` takes the processor from the running thread. -/
theorem exists_sleep (accurate : kernel.scheduler.Accurate none)
    (running : ∀ t, kernel.scheduler.statusOf t = some .running ↔ t = kernel.currentThread)
    (off : kernel.interrupt.level = .intOff) (finishing : Bool)
    : ∃ scheduler,
        kernel.sleep finishing
          = .ok
              {
                kernel with
                scheduler
                control := .sleep finishing
                history :=
                  if finishing then kernel.history ++ [.finished kernel.currentThread]
                  else kernel.history
              }
        ∧ scheduler.Accurate none
        ∧ scheduler.statusOf
          = Function.update kernel.scheduler.statusOf kernel.currentThread
              (some (if finishing then .terminated else .waiting))
        ∧ ∀ other, scheduler.statusOf other ≠ some .running := by
  obtain ⟨scheduler, done, accurateAfter, changes⟩ :=
    accurate.leave ((running _).mpr rfl) finishing
  refine ⟨scheduler, ?_, accurateAfter, changes, not_running running changes ?_⟩
  · simp only [sleep, requireOff_of off, done, bind, Except.bind, pure, Except.pure]
  · cases finishing <;> decide

/-- A thread that finishes sleeps for good. -/
theorem Active.sleep (active : kernel.Active) (off : kernel.interrupt.level = .intOff)
    (outside : kernel.interrupt.inHandler = false)
    : ∃ after, kernel.sleep true = .ok after ∧ after.Sleeping true := by
  have sound := active.sound
  have own := (active.running _).mpr rfl
  obtain ⟨scheduler, done, accurate, changes, idle⟩ :=
    exists_sleep sound.accurate active.running off true
  refine ⟨_, done, ⟨accurate, ?_, ?_, sound.opened, ?_, ?_⟩, active.unmarked, idle, off, nofun,
    .inl ⟨rfl, outside⟩⟩
  · rw [changes]
    exact sound.waiting.update (by simp [own])
  · intro other different status
    rw [changes, Function.update_of_ne different] at status
    exact sound.suspended other different status
  · intro other
    change scheduler.statusOf other = some .terminated ↔ some kernel.currentThread = some other
    rw [changes]
    by_cases same : other = kernel.currentThread
    · simp [same]
    · simp [same, Ne.symm same, sound.terminated]
  · refine sound.lives.snoc rfl (fun other => ?_)
    rw [phase, phase]
    change Phase.after other _ (.finished kernel.currentThread)
      = some (.ofStatus (decide (kernel.toBeDestroyed = some other)) (scheduler.statusOf other))
    rw [active.unmarked, changes]
    by_cases same : other = kernel.currentThread
    · subst same
      rw [own, Function.update_self]
      simp [Phase.ofStatus, Phase.after]
    · rw [Function.update_of_ne same]
      simp [Phase.after, Ne.symm same]

/-- A thread that finishes sleeps for good or, as the last program, halts the machine. -/
theorem Working.finish (working : kernel.Working)
    : ∃ after,
        kernel.finish = .ok after
        ∧ (after.Sleeping true ∨ after.control = .halted ∧ after.Sound none none) := by
  have active := working.active
  simp only [Kernel.finish, setLevel_off, bind, Except.bind, pure, Except.pure]
  split
  · split
    · exact ⟨_, rfl, .inr ⟨rfl, active.sound.congr ⟨rfl, rfl, rfl, rfl, rfl, rfl, rfl⟩⟩⟩
    · obtain ⟨after, done, sleeping⟩ := @Active.sleep
        {
          kernel with
          interrupt.level := .intOff
          execRunningNum := kernel.execRunningNum - 1
        } (active.congr ⟨rfl, rfl, rfl, rfl, rfl, rfl, rfl⟩) rfl working.outside
      exact ⟨after, done, .inl sleeping⟩
  · obtain ⟨after, done, sleeping⟩ := @Active.sleep { kernel with interrupt.level := .intOff }
      (active.congr ⟨rfl, rfl, rfl, rfl, rfl, rfl, rfl⟩) rfl working.outside
    exact ⟨after, done, .inl sleeping⟩

/-- The loop of `Sleep` goes on to another thread, or else idles. -/
theorem Sleeping.findNext {finishing : Bool} (sleeping : kernel.Sleeping finishing)
    (outside : kernel.interrupt.inHandler = false)
    : ∃ after,
        kernel.findNext finishing = .ok after
        ∧ (after.Switched ∨ after.Sleeping finishing) := by
  have sound := sleeping.sound
  rcases sound.accurate.findNextToRun with found | ⟨t, scheduler, found, accurate, same⟩
  · have performed : kernel.findNext finishing
        = .ok
            {
              kernel with
              interrupt.status := .idleMode
              control := .idle finishing
            } := by
      simp only [Kernel.findNext, findNextToRun, requireOff_of sleeping.off, found, bind,
        Except.bind, pure, Except.pure]
    refine ⟨_, performed, .inr ?_⟩
    exact {
      sleeping with
      sound := sound.congr ⟨rfl, rfl, rfl, rfl, rfl, rfl, rfl⟩
      control := .inr ⟨rfl, rfl⟩
    }
  · have books : Sound { kernel with scheduler } (some t) (kernel.sleeper finishing) :=
      sound.reschedule accurate same
    obtain ⟨after, done, switched⟩ := @Sound.run _ t finishing books sleeping.unmarked
      (fun other => same ▸ sleeping.idle other) sleeping.off outside sleeping.blocked
    refine ⟨after, ?_, .inl switched⟩
    simp only [Kernel.findNext, findNextToRun, requireOff_of sleeping.off, found, bind,
      Except.bind, pure, Except.pure]
    exact done

-----------------------------------------------------------------------------------------
-- Making threads
-----------------------------------------------------------------------------------------

/-- A new thread leaves the running one at work: it is in no queue yet. -/
theorem Working.construct (working : kernel.Working) (free : kernel.scheduler.threads t = none)
    (initPriority : Int)
    : (kernel.construct t initPriority).Working := by
  have active := working.active
  have sound := active.sound
  have absent : kernel.scheduler.statusOf t = none := by simp [SchedulerState.statusOf, free]
  have changes : (kernel.construct t initPriority).scheduler.statusOf
      = Function.update kernel.scheduler.statusOf t (some .new) :=
    SchedulerState.statusOf_put ..
  have apart : kernel.currentThread ≠ t := by
    rintro rfl
    have own := (active.running kernel.currentThread).mpr rfl
    simp [absent] at own
  have accurate : (kernel.construct t initPriority).scheduler.Accurate none :=
    sound.accurate.put (by simp [absent]) (by rintro ⟨⟩)
  have callsOf {other : ThreadId} (different : other ≠ t)
      : (kernel.construct t initPriority).calls other = kernel.calls other :=
    Function.update_of_ne different _ _
  refine ⟨⟨⟨accurate, ?_, ?_, ?_, ?_, ?_⟩, active.unmarked, ?_⟩, working.control,
    working.outside, ?_⟩
  · rw [changes]
    exact sound.waiting.update (by simp [absent])
  · intro other different status
    rw [changes] at status
    by_cases same : other = t
    · simp [same] at status
    · rw [Function.update_of_ne same] at status
      rw [callsOf same]
      exact sound.suspended other different status
  · exact sound.opened_update (fun _ _ => List.not_mem_nil)
  · rw [changes]
    exact sound.terminated_update (by simp [absent]) (by decide)
  · refine sound.lives.snoc rfl (fun other => ?_)
    rw [phase, phase, changes]
    by_cases same : other = t
    · subst same
      rw [absent, Function.update_self]
      simp [Phase.ofStatus, Phase.after]
    · rw [Function.update_of_ne same,
        show (kernel.construct t initPriority).toBeDestroyed = kernel.toBeDestroyed from rfl]
      simp [Phase.after, Ne.symm same]
  · rw [changes]
    exact active.running_update (Ne.symm apart) (by decide)
  · rw [show (kernel.construct t initPriority).currentThread = kernel.currentThread from rfl,
      callsOf apart]
    exact working.inner

/-- A new thread becomes ready, to start at `Begin`. -/
theorem Working.fork (working : kernel.Working)
    (isNew : kernel.scheduler.statusOf t = some .new)
    : ∃ after, kernel.fork t = .ok after ∧ (after.Working ∨ after.Ticking) := by
  have active := working.active
  have sound := active.sound
  have apart : kernel.currentThread ≠ t := by
    rintro rfl
    have own := (active.running kernel.currentThread).mpr rfl
    simp [isNew] at own
  obtain ⟨scheduler, ready, accurate, changes⟩ :=
    @exists_readyToRun
      {
        kernel with
        calls := Function.update kernel.calls t [.begin]
        interrupt.level := .intOff
      } _ _ _ sound.accurate rfl isNew (.inl rfl)
  have books : Sound
      {
        kernel with
        calls := Function.update kernel.calls t [.begin]
        interrupt.level := .intOff
        scheduler
        history := kernel.history ++ [.readied t]
      } none none := by
    refine sound.readied isNew (.inl rfl) accurate changes ?_ rfl rfl rfl ?_ ?_ ?_
    · change Waiting kernel.semaphores scheduler.statusOf
      rw [changes]
      exact sound.waiting.update (by simp [isNew])
    · exact fun other different => Function.update_of_ne different _ _
    · intro _
      change Suspended (Function.update kernel.calls t [.begin] t)
      rw [Function.update_self]
      exact .begin
    · exact sound.opened_update (fun _ _ => by simp)
  have off : Working
      {
        kernel with
        calls := Function.update kernel.calls t [.begin]
        interrupt.level := .intOff
        scheduler
        history := kernel.history ++ [.readied t]
      } := by
    refine ⟨⟨books, active.unmarked, ?_⟩, working.control, working.outside, ?_⟩
    · rw [changes]
      exact active.running_update (Ne.symm apart) (by decide)
    · change Inner (Function.update kernel.calls t [.begin] kernel.currentThread)
      rw [Function.update_of_ne apart]
      exact working.inner
  obtain ⟨after, set, _, settled⟩ := off.setLevel kernel.interrupt.level
  refine ⟨after, ?_, settled⟩
  simp only [Kernel.fork, setLevel_off, bind, Except.bind]
  simp only [ready]
  exact set

end Kernel

end Nachos.Threads
