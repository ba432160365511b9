import Nachos.Threads.Switching

/-! How threads go on: in semaphores, in the calls that gave up the processor, and after
handlers.
-/

namespace Nachos.Threads

namespace Kernel

variable {kernel after : Kernel} {leaving : Option ThreadId} {s : SemaphoreId}

-----------------------------------------------------------------------------------------
-- Semaphores
-----------------------------------------------------------------------------------------

theorem exists_lookup (exist : (kernel.semaphores s).isSome)
    : ∃ semaphore, kernel.semaphores s = some semaphore ∧ kernel.lookup s = .ok semaphore := by
  obtain ⟨semaphore, found⟩ := Option.isSome_iff_exists.mp exist
  exact ⟨semaphore, found, by simp [lookup, found]⟩

/-- Semaphores stay when one is stored. -/
theorem isSome_store {other : SemaphoreId} {semaphore : Semaphore}
    (exist : (kernel.semaphores other).isSome)
    : ((kernel.store s semaphore).semaphores other).isSome := by
  change (Function.update kernel.semaphores s (some semaphore) other).isSome
  by_cases same : other = s
  · simp [same]
  · simpa [same] using exist

/-- A semaphore may change while nobody enters its queue. -/
theorem Sound.store {semaphore : Semaphore} (sound : kernel.Sound none leaving)
    (sublist
      : semaphore.queue.Sublist ((kernel.semaphores s).elim [] Semaphore.queue))
    : (kernel.store s semaphore).Sound none leaving :=
  {
    sound with
    waiting := sound.waiting.store sublist
    opened := fun t s oldLevel member => isSome_store (sound.opened t s oldLevel member)
  }

theorem Active.store {semaphore : Semaphore} (active : kernel.Active)
    (sublist
      : semaphore.queue.Sublist ((kernel.semaphores s).elim [] Semaphore.queue))
    : (kernel.store s semaphore).Active :=
  { active with sound := active.sound.store sublist }

/-- `P` takes the semaphore, or goes to sleep in its queue. -/
theorem Working.wait (working : kernel.Working) (off : kernel.interrupt.level = .intOff)
    (exist : (kernel.semaphores s).isSome) (oldLevel : IntStatus)
    : ∃ after,
        kernel.wait s oldLevel = .ok after
        ∧ (after.Working ∨ after.Ticking ∨ after.Sleeping false) := by
  have active := working.active
  have sound := active.sound
  obtain ⟨semaphore, found, lookedUp⟩ := exists_lookup exist
  by_cases taken : semaphore.value = 0
  · have own := (active.running _).mpr rfl
    obtain ⟨absent, waiting⟩ :=
      @Waiting.append _ _ _ _ kernel.currentThread sound.waiting found (by simp [own])
    obtain ⟨scheduler, done, accurate, changes, idle⟩ :=
      @exists_sleep
        (push kernel.currentThread (.p s oldLevel)
          (kernel.store s
            { semaphore with queue := semaphore.queue ++ [kernel.currentThread] }))
        sound.accurate active.running off false
    change scheduler.statusOf
      = Function.update kernel.scheduler.statusOf kernel.currentThread (some .waiting) at changes
    have pushed := @Sound.push _ _ _ (.p s oldLevel) sound (fun _ _ same => by
      obtain ⟨rfl, _⟩ := Frame.p.inj same
      exact exist)
    have performed : kernel.wait s oldLevel
        = sleep false
            (push kernel.currentThread (.p s oldLevel)
              (kernel.store s
                { semaphore with queue := semaphore.queue ++ [kernel.currentThread] })) := by
      simp only [Kernel.wait, lookedUp, taken, absent, bind, Except.bind, if_true, if_false]
    refine ⟨_, performed.trans done, .inr (.inr ⟨⟨accurate, ?_, ?_, ?_, ?_, ?_⟩, active.unmarked,
      idle, off, ?_, .inl ⟨rfl, working.outside⟩⟩)⟩
    · rw [changes]
      exact waiting
    · intro other different status
      change other ≠ kernel.currentThread at different
      rw [changes, Function.update_of_ne different] at status
      exact pushed.suspended other different status
    · exact fun t s oldLevel member => isSome_store (pushed.opened t s oldLevel member)
    · intro other
      change scheduler.statusOf other = some .terminated ↔ none = some other
      rw [changes]
      by_cases same : other = kernel.currentThread
      · simp [same]
      · rw [Function.update_of_ne same]
        exact sound.terminated other
    · intro other
      have lived := sound.lives other
      rw [phase] at lived ⊢
      change Phase.following other kernel.history = some (.ofStatus
        (decide (kernel.toBeDestroyed = some other)) (scheduler.statusOf other))
      rw [changes]
      by_cases same : other = kernel.currentThread
      · subst same
        rw [own] at lived
        rw [Function.update_self, lived]
        rfl
      · rw [Function.update_of_ne same]
        exact lived
    · intro _
      change Blocked ((push kernel.currentThread _ _).calls kernel.currentThread)
      rw [calls_push]
      exact .p s oldLevel working.inner
  · have kept : semaphore.queue.Sublist ((kernel.semaphores s).elim [] Semaphore.queue) := by
      rw [found]
      exact .refl _
    have stored : (kernel.store s { semaphore with value := semaphore.value - 1 }).Working :=
      { working with active := active.store kept }
    obtain ⟨after, set, _, settled⟩ := stored.setLevel oldLevel
    refine ⟨after, ?_, settled.imp_right .inl⟩
    simp only [Kernel.wait, lookedUp, taken, bind, Except.bind, if_false]
    exact set

theorem Working.off (working : kernel.Working)
    : Working { kernel with interrupt.level := .intOff } :=
  { working with active := working.active.congr ⟨rfl, rfl, rfl, rfl, rfl, rfl, rfl⟩ }

theorem Working.p (working : kernel.Working) (exist : (kernel.semaphores s).isSome)
    : ∃ after,
        kernel.p s = .ok after
        ∧ (after.Working ∨ after.Ticking ∨ after.Sleeping false) := by
  obtain ⟨after, done, settled⟩ := @Working.wait _ s working.off rfl exist kernel.interrupt.level
  refine ⟨after, ?_, settled⟩
  simp only [Kernel.p, setLevel_off, bind, Except.bind]
  exact done

/-- `V` wakes up at most one thread, which waited. -/
theorem exists_v (sound : kernel.Sound none leaving) (exist : (kernel.semaphores s).isSome)
    : ∃ scheduler semaphores history,
        kernel.v s
          = setLevel kernel.interrupt.level
              {
                kernel with
                interrupt.level := .intOff
                scheduler
                semaphores
                history
              }
        ∧ Sound { kernel with interrupt.level := .intOff, scheduler, semaphores, history }
            none leaving
        ∧ ∀ t,
          scheduler.statusOf t = kernel.scheduler.statusOf t
          ∨ kernel.scheduler.statusOf t = some .waiting ∧ scheduler.statusOf t = some .ready := by
  obtain ⟨semaphore, found, lookedUp⟩ := exists_lookup exist
  have off : lookup s { kernel with interrupt.level := .intOff } = .ok semaphore := lookedUp
  cases queue : semaphore.queue with
  | nil =>
      refine ⟨kernel.scheduler, Function.update kernel.semaphores s
        (some { semaphore with value := semaphore.value + 1 }), kernel.history, ?_, ?_,
        fun t => .inl rfl⟩
      · simp only [v, setLevel_off, off, queue, bind, Except.bind]
        rfl
      · have shorter : semaphore.queue.Sublist ((kernel.semaphores s).elim [] Semaphore.queue) := by
          rw [queue]
          exact List.nil_sublist _
        exact (@Sound.store _ _ s { semaphore with value := semaphore.value + 1 } sound
          shorter).congr ⟨rfl, rfl, rfl, rfl, rfl, rfl, rfl⟩
  | cons t rest =>
      obtain ⟨waits, waiting⟩ :=
        @Waiting.removeFront _ _ _ _ _ { value := semaphore.value + 1, queue := rest }
          (some .ready) sound.waiting found queue
      obtain ⟨scheduler, ready, accurate, changes⟩ :=
        @exists_readyToRun
          (store s { semaphore with queue := rest } { kernel with interrupt.level := .intOff })
          _ _ _ sound.accurate rfl waits (.inr (.inr rfl))
      refine ⟨scheduler, Function.update kernel.semaphores s
        (some { value := semaphore.value + 1, queue := rest }),
        kernel.history ++ [.readied t], ?_, ?_, ?_⟩
      · simp only [v, setLevel_off, off, queue, bind, Except.bind]
        rw [ready]
        simp only [store, Function.update_idem]
      · refine sound.readied waits (.inr (.inr rfl)) accurate changes ?_ rfl rfl rfl
          (fun _ _ => rfl) (fun other => sound.suspended t other (.inr waits)) ?_
        · change Waiting _ scheduler.statusOf
          rw [changes]
          exact waiting
        · exact fun t s oldLevel member => isSome_store (sound.opened t s oldLevel member)
      · intro other
        rw [changes]
        by_cases same : other = t
        · subst same
          exact .inr ⟨waits, Function.update_self ..⟩
        · exact .inl (Function.update_of_ne same _ _)

/-- V of a thread that works returns, and wakes at most one thread; the tick after it may have to
be taken.
-/
theorem Working.v (working : kernel.Working) (exist : (kernel.semaphores s).isSome)
    : ∃ after, kernel.v s = .ok after ∧ (after.Working ∨ after.Ticking) := by
  obtain ⟨scheduler, semaphores, history, performed, sound, changes⟩ :=
    exists_v working.active.sound exist
  have running (t : ThreadId)
      : scheduler.statusOf t = some .running ↔ t = kernel.currentThread := by
    rw [← working.active.running]
    rcases changes t with same | ⟨waits, ready⟩
    · rw [same]
    · simp [waits, ready]
  have woken : Working
      { kernel with interrupt.level := .intOff, scheduler, semaphores, history } :=
    { working with active := ⟨sound, working.active.unmarked, running⟩ }
  obtain ⟨after, set, _, settled⟩ := woken.setLevel kernel.interrupt.level
  exact ⟨after, performed.trans set, settled⟩

-----------------------------------------------------------------------------------------
-- Going on in a call
-----------------------------------------------------------------------------------------

/-- A thread that SWITCH went over to first deletes the one that finished. -/
theorem Switched.resume (switched : kernel.Switched)
    : ∃ after,
        kernel.resume = .ok after
        ∧ (after.Returning ∨ after.Working ∨ after.Ticking)
        ∧ ∀ t, kernel.toBeDestroyed = some t → after.scheduler.threads t = none := by
  obtain ⟨checked, done, active, current, calls, control, interrupt, deleted⟩ :=
    @exists_checkToBeDestroyed kernel.pop switched.sound.pop switched.running
  rw [show kernel.pop.currentThread = kernel.currentThread from rfl] at current calls
  have outside : checked.interrupt.inHandler = false := by
    rw [interrupt]
    exact switched.outside
  rw [calls_pop] at calls
  cases frames : kernel.calls kernel.currentThread with
  | nil =>
      have suspended := switched.suspended
      rw [frames] at suspended
      cases suspended
  | cons frame rest =>
      have suspended := switched.suspended
      rw [frames] at suspended calls
      cases suspended with
      | run blocked =>
          refine ⟨checked, ?_, .inl ⟨active, control.trans switched.control, outside, ?_, ?_⟩,
            deleted⟩
          · simp only [Kernel.resume, frames, requireOff_of switched.off, bind, Except.bind]
            exact done
          · rw [interrupt]
            exact switched.off
          · rw [current, calls]
            exact blocked
      | begin =>
          have begun : (checked.push checked.currentThread .begun).Working := by
            refine ⟨active.push nofun, control.trans switched.control, outside, ?_⟩
            change Inner ((checked.push checked.currentThread .begun).calls checked.currentThread)
            rw [calls_push, current, calls]
            exact Inner.cons nofun trivial
          obtain ⟨after, set, same, settled⟩ := begun.setLevel .intOn
          refine ⟨after, ?_, .inr settled, fun t marked => ?_⟩
          · simp only [Kernel.resume, frames, bind, Except.bind]
            simp only [done]
            exact set
          · rw [same.threads]
            exact deleted t marked

/-- A call that gave up the processor restores the interrupt level, or waits again. -/
theorem Returning.resume (returning : kernel.Returning)
    : ∃ after,
        kernel.resume = .ok after
        ∧ (after.Working ∨ after.Ticking ∨ after.Sleeping false) := by
  have sound := returning.active.sound
  have working {rest : List Frame} (tail : (kernel.calls kernel.currentThread).tail = rest)
      (inner : Inner rest)
      : kernel.pop.Working := by
    refine ⟨returning.active.pop, returning.control, returning.outside, ?_⟩
    change Inner (kernel.pop.calls kernel.currentThread)
    rw [calls_pop, tail]
    exact inner
  have blocked := returning.blocked
  cases frames : kernel.calls kernel.currentThread with
  | nil =>
      rw [frames] at blocked
      cases blocked
  | cons frame rest =>
      rw [frames] at blocked
      have tail := congrArg List.tail frames
      cases blocked with
      | yield oldLevel inner =>
          obtain ⟨after, set, _, settled⟩ := (working tail inner).setLevel oldLevel
          refine ⟨after, ?_, settled.imp_right .inl⟩
          simp only [Kernel.resume, frames]
          exact set
      | p s oldLevel inner =>
          have exist : (kernel.semaphores s).isSome :=
            sound.opened _ s oldLevel (frames ▸ List.mem_cons_self ..)
          obtain ⟨after, done, settled⟩ :=
            (working tail inner).wait returning.off exist oldLevel
          refine ⟨after, ?_, settled⟩
          simp only [Kernel.resume, frames]
          exact done

/-- The other calls just return. -/
theorem Working.resume (working : kernel.Working)
    : ∃ after, kernel.resume = .ok after ∧ after.Working := by
  have popped (inner : Inner (kernel.calls kernel.currentThread).tail) : kernel.pop.Working := by
    refine ⟨working.active.pop, working.control, working.outside, ?_⟩
    change Inner (kernel.pop.calls kernel.currentThread)
    rw [calls_pop]
    exact inner
  have inner := working.inner
  cases frames : kernel.calls kernel.currentThread with
  | nil => exact ⟨kernel, by simp [Kernel.resume, frames], working⟩
  | cons frame rest =>
      rw [frames] at inner
      obtain ⟨own, others⟩ := List.forall_mem_cons.mp inner
      have returned : kernel.pop.Working := popped (frames ▸ others)
      cases frame with
      | begun =>
          by_cases counts : kernel.pop.execExit ∧ kernel.pop.isExec kernel.pop.currentThread
          · refine ⟨{ kernel.pop with execRunningNum := kernel.pop.execRunningNum + 1 }, ?_, ?_⟩
            · simp only [Kernel.resume, frames]
              exact if_pos counts
            · exact ⟨returned.active.congr ⟨rfl, rfl, rfl, rfl, rfl, rfl, rfl⟩, returned.control,
                returned.outside, returned.inner⟩
          · refine ⟨kernel.pop, ?_, returned⟩
            simp only [Kernel.resume, frames]
            exact if_neg counts
      | oneTick oldStatus =>
          refine ⟨{ kernel.pop with interrupt.status := oldStatus }, ?_, ?_⟩
          · simp only [Kernel.resume, frames]
          · exact ⟨returned.active.congr ⟨rfl, rfl, rfl, rfl, rfl, rfl, rfl⟩, returned.control,
              returned.outside, returned.inner⟩
      | begin => exact absurd own id
      | run => exact absurd own id
      | yield oldLevel => exact absurd own id
      | p s oldLevel => exact absurd own id

-----------------------------------------------------------------------------------------
-- Handlers
-----------------------------------------------------------------------------------------

/-- The timer as a handler of the kernel asks for a switch when the scheduler says so. -/
theorem callBack_inHandler {preempt : Bool} {scheduler : SchedulerState}
    (done
      : kernel.scheduler.callBack (kernel.interrupt.status = .idleMode) kernel.currentThread
          = .ok (preempt, scheduler))
    : kernel.inHandler.callBack
      = .ok
          {
            kernel.inHandler with
            scheduler
            interrupt.yieldOnReturn := preempt || kernel.interrupt.yieldOnReturn
          } := by
  have same : kernel.inHandler.scheduler.callBack (kernel.inHandler.interrupt.status = .idleMode)
      kernel.inHandler.currentThread = .ok (preempt, scheduler) := done
  simp only [callBack, same, bind, Except.bind]
  cases preempt <;> rfl

/-- The timer ages the ready threads, and may ask the running one to yield. -/
theorem Ticking.callBack (ticking : kernel.Ticking)
    : ∃ after, kernel.inHandler.callBack = .ok after ∧ after.Ticking := by
  have active := ticking.active
  obtain ⟨preempt, scheduler, done, accurate, same, _⟩ :=
    active.sound.accurate.callBack (kernel.interrupt.status = .idleMode)
      (fun _ => (active.running kernel.currentThread).mpr rfl)
  have books : Active { kernel with scheduler } :=
    ⟨active.sound.reschedule accurate same, active.unmarked, same ▸ active.running⟩
  exact ⟨_, callBack_inHandler done, books.congr ⟨rfl, rfl, rfl, rfl, rfl, rfl, rfl⟩,
    ticking.control, ticking.off, ticking.inner⟩

/-- On an idle machine the timer only ages. -/
theorem Sleeping.callBack {finishing : Bool} (sleeping : kernel.Sleeping finishing)
    (control : kernel.control = .idle finishing) (status : kernel.interrupt.status = .idleMode)
    : ∃ after, kernel.inHandler.callBack = .ok after ∧ after.Sleeping finishing := by
  have idle : decide (kernel.interrupt.status = .idleMode) = true := decide_eq_true status
  obtain ⟨preempt, scheduler, done, accurate, same, _⟩ :=
    @SchedulerState.Accurate.callBack _ kernel.currentThread sleeping.sound.accurate true nofun
  have books := sleeping.sound.reschedule accurate same
  rw [← idle] at done
  exact ⟨_, callBack_inHandler done, books.congr ⟨rfl, rfl, rfl, rfl, rfl, rfl, rfl⟩,
    sleeping.unmarked, same ▸ sleeping.idle, sleeping.off, sleeping.blocked,
    .inr ⟨control, status⟩⟩

/-- V in a handler at a tick returns and keeps the kernel ticking. -/
theorem Ticking.v (ticking : kernel.Ticking) (exist : (kernel.semaphores s).isSome)
    : ∃ after, kernel.inHandler.v s = .ok after ∧ after.Ticking := by
  have active := ticking.active
  obtain ⟨scheduler, semaphores, history, performed, sound, changes⟩ :=
    @exists_v kernel.inHandler _ s
      (active.sound.congr ⟨rfl, rfl, rfl, rfl, rfl, rfl, rfl⟩) exist
  have running (t : ThreadId)
      : scheduler.statusOf t = some .running ↔ t = kernel.currentThread := by
    rw [← active.running]
    rcases changes t with same | ⟨waits, ready⟩
    · rw [same]
      rfl
    · change kernel.scheduler.statusOf t = _ at waits
      simp [waits, ready]
  rw [show kernel.inHandler.interrupt.level = .intOff from ticking.off, setLevel_off] at performed
  exact ⟨_, performed, ⟨sound.congr ⟨rfl, rfl, rfl, rfl, rfl, rfl, rfl⟩, active.unmarked, running⟩,
    ticking.control, rfl, ticking.inner⟩

/-- V in a handler while the kernel idles returns, and the sleeping thread goes on looking. -/
theorem Sleeping.v {finishing : Bool} (sleeping : kernel.Sleeping finishing)
    (control : kernel.control = .idle finishing) (status : kernel.interrupt.status = .idleMode)
    (exist : (kernel.semaphores s).isSome)
    : ∃ after, kernel.inHandler.v s = .ok after ∧ after.Sleeping finishing := by
  obtain ⟨scheduler, semaphores, history, performed, sound, changes⟩ :=
    @exists_v kernel.inHandler _ s
      (sleeping.sound.congr ⟨rfl, rfl, rfl, rfl, rfl, rfl, rfl⟩) exist
  have idle (t : ThreadId) : scheduler.statusOf t ≠ some .running := by
    rcases changes t with same | ⟨_, ready⟩
    · rw [same]
      exact sleeping.idle t
    · simp [ready]
  rw [show kernel.inHandler.interrupt.level = .intOff from sleeping.off, setLevel_off]
    at performed
  exact ⟨_, performed, sound.congr ⟨rfl, rfl, rfl, rfl, rfl, rfl, rfl⟩, sleeping.unmarked, idle,
    rfl, sleeping.blocked, .inr ⟨control, status⟩⟩

/-- An interrupted thread goes on, or yields first. -/
theorem Ticking.tickHandled (ticking : kernel.Ticking)
    : ∃ after,
        kernel.tickHandled = .ok after ∧ (after.Working ∨ after.Ticking ∨ after.Switched) := by
  have active := ticking.active
  cases asked : kernel.interrupt.yieldOnReturn with
  | false =>
      refine ⟨
        {
          kernel with
          interrupt.inHandler := false
          interrupt.level := .intOn
          control := .thread
        }, ?_,
        .inl ⟨active.congr ⟨rfl, rfl, rfl, rfl, rfl, rfl, rfl⟩, rfl, rfl, ticking.inner⟩⟩
      simp [Kernel.tickHandled, asked]
  | true =>
      have ready : Active
          {
            kernel with
            interrupt :=
              { level := .intOn, inHandler := false, yieldOnReturn := false, status := .systemMode }
            control := .thread
          } :=
        active.congr ⟨rfl, rfl, rfl, rfl, rfl, rfl, rfl⟩
      have pushed := @Active.push _ (.oneTick kernel.interrupt.status) ready nofun
      obtain ⟨after, done, settled⟩ := @Working.yield _ ⟨pushed, rfl, rfl, by
        change Inner ((push kernel.currentThread _ _).calls kernel.currentThread)
        rw [calls_push]
        exact Inner.cons ticking.inner trivial⟩
      refine ⟨after, ?_, settled⟩
      rw [← done, Kernel.tickHandled]
      simp [asked]

end Kernel

end Nachos.Threads
