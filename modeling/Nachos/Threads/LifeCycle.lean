import Nachos.Lib.Outcome
import Nachos.Threads.Resuming

/-! Threads over whole runs of the kernel: which are ready, which one runs, that no assertion
fails, and that each finished thread is deleted once, after another was switched to.
-/

namespace Nachos.Threads

namespace Kernel

variable {kernel after : Kernel} {action : Action}

-----------------------------------------------------------------------------------------
-- Places and what may come next in them
-----------------------------------------------------------------------------------------

theorem Blocked.ne_nil {calls : List Frame} (blocked : Blocked calls) : calls ≠ [] := by
  cases blocked <;> exact List.cons_ne_nil _ _

theorem Suspended.ne_nil {calls : List Frame} (suspended : Suspended calls) : calls ≠ [] := by
  cases suspended <;> exact List.cons_ne_nil _ _

/-- A thread goes on in its own code or in a call. -/
theorem Invariant.of_thread (invariant : kernel.Invariant) (control : kernel.control = .thread)
    : kernel.Working ∨ kernel.Returning ∨ kernel.Switched := by
  cases invariant with
  | working working => exact .inl working
  | returning returning => exact .inr (.inl returning)
  | switched switched => exact .inr (.inr switched)
  | ticking ticking => simp [ticking.control] at control
  | sleeping sleeping => rcases sleeping.control with ⟨other, _⟩ | ⟨other, _⟩ <;> simp [other] at control
  | halted other _ => simp [other] at control

/-- Own code runs only when no call is left. -/
theorem Invariant.own (invariant : kernel.Invariant) (control : kernel.control = .thread)
    (own : kernel.calls kernel.currentThread = [])
    : kernel.Working := by
  rcases invariant.of_thread control with working | returning | switched
  · exact working
  · exact absurd own (Blocked.ne_nil returning.blocked)
  · exact absurd own (Suspended.ne_nil switched.suspended)

/-- At a tick the kernel is ticking, by cases on the invariant. -/
theorem Invariant.of_tick (invariant : kernel.Invariant) (control : kernel.control = .tick)
    : kernel.Ticking := by
  cases invariant with
  | ticking ticking => exact ticking
  | working working => simp [working.control] at control
  | returning returning => simp [returning.control] at control
  | switched switched => simp [switched.control] at control
  | sleeping sleeping => rcases sleeping.control with ⟨other, _⟩ | ⟨other, _⟩ <;> simp [other] at control
  | halted other _ => simp [other] at control

/-- In the loop of Sleep the kernel is sleeping, by cases on the invariant. -/
theorem Invariant.of_sleep {finishing : Bool} (invariant : kernel.Invariant)
    (control : kernel.control = .sleep finishing ∨ kernel.control = .idle finishing)
    : kernel.Sleeping finishing := by
  cases invariant with
  | ticking ticking => simp [ticking.control] at control
  | working working => simp [working.control] at control
  | returning returning => simp [returning.control] at control
  | switched switched => simp [switched.control] at control
  | halted other _ => simp [other] at control
  | @sleeping own sleeping =>
      have same : finishing = own := by
        rcases sleeping.control with ⟨other, _⟩ | ⟨other, _⟩ <;>
          simp [other] at control <;> exact control.symm
      exact same ▸ sleeping

theorem Sleeping.outside {finishing : Bool} (sleeping : kernel.Sleeping finishing)
    (control : kernel.control = .sleep finishing)
    : kernel.interrupt.inHandler = false := by
  rcases sleeping.control with ⟨_, outside⟩ | ⟨other, _⟩
  · exact outside
  · simp [other] at control

theorem Sleeping.status {finishing : Bool} (sleeping : kernel.Sleeping finishing)
    (control : kernel.control = .idle finishing)
    : kernel.interrupt.status = .idleMode := by
  rcases sleeping.control with ⟨other, _⟩ | ⟨_, status⟩
  · simp [other] at control
  · exact status

/-- A tick comes in the code of a thread or in `Idle`. -/
theorem Invariant.interrupted (invariant : kernel.Invariant)
    (control
      : kernel.control = .tick ∨ kernel.control = .idle false ∨ kernel.control = .idle true)
    : kernel.Ticking
      ∨ ∃ finishing, kernel.control = .idle finishing ∧ kernel.Sleeping finishing := by
  rcases control with tick | idle | idle
  · exact .inl (invariant.of_tick tick)
  · exact .inr ⟨false, idle, invariant.of_sleep (.inr idle)⟩
  · exact .inr ⟨true, idle, invariant.of_sleep (.inr idle)⟩

theorem Invariant.of_settled (settled : after.Working ∨ after.Ticking) : after.Invariant :=
  settled.elim .working .ticking

-----------------------------------------------------------------------------------------
-- Steps
-----------------------------------------------------------------------------------------

/-- No call of a thread's own code faults. -/
theorem Working.call {call : Call} (working : kernel.Working)
    (admissible : kernel.Admissible call)
    : ∃ after, kernel.perform (.call call) = .ok after ∧ after.Invariant := by
  have active := working.active
  cases call with
  | construct t initPriority =>
      exact ⟨_, rfl, .working (working.construct admissible initPriority)⟩
  | setIsExec t =>
      exact ⟨_, rfl, .working ⟨active.congr ⟨rfl, rfl, rfl, rfl, rfl, rfl, rfl⟩, working.control,
        working.outside, working.inner⟩⟩
  | fork t =>
      obtain ⟨after, done, settled⟩ := working.fork admissible
      exact ⟨after, done, .of_settled settled⟩
  | yield =>
      obtain ⟨after, done, rest | rest | rest⟩ := working.yield
      · exact ⟨after, done, .working rest⟩
      · exact ⟨after, done, .ticking rest⟩
      · exact ⟨after, done, .switched rest⟩
  | finish =>
      obtain ⟨after, done, sleeping | ⟨halted, sound⟩⟩ := working.finish
      · exact ⟨after, done, .sleeping sleeping⟩
      · exact ⟨after, done, .halted halted sound⟩
  | semaphore s initialValue =>
      exact ⟨_, rfl, .working { working with active := active.store (List.nil_sublist _) }⟩
  | p s =>
      obtain ⟨after, done, rest | rest | rest⟩ := working.p admissible
      · exact ⟨after, done, .working rest⟩
      · exact ⟨after, done, .ticking rest⟩
      · exact ⟨after, done, .sleeping rest⟩
  | v s =>
      obtain ⟨after, done, settled⟩ := working.v admissible
      exact ⟨after, done, .of_settled settled⟩
  | setLevel now =>
      obtain ⟨after, done, _, settled⟩ := working.setLevel now
      exact ⟨after, done, .of_settled settled⟩
  | setStatus status =>
      exact ⟨_, rfl, .working ⟨active.congr ⟨rfl, rfl, rfl, rfl, rfl, rfl, rfl⟩, working.control,
        working.outside, working.inner⟩⟩
  | oneTick =>
      exact ⟨_, rfl, .ticking ⟨active.congr ⟨rfl, rfl, rfl, rfl, rfl, rfl, rfl⟩, rfl, rfl,
        working.inner⟩⟩
  | halt => exact ⟨_, rfl, .halted rfl (active.sound.congr ⟨rfl, rfl, rfl, rfl, rfl, rfl, rfl⟩)⟩

/-- No action faults, and each leads to a place where another may come. -/
theorem Invariant.perform (invariant : kernel.Invariant) (legal : kernel.Legal action)
    : ∃ after, kernel.perform action = .ok after ∧ after.Invariant := by
  cases action with
  | call call => exact (invariant.own legal.1 legal.2.1).call legal.2.2
  | resume =>
      rcases invariant.of_thread legal.1 with working | returning | switched
      · obtain ⟨after, done, rest⟩ := working.resume
        exact ⟨after, done, .working rest⟩
      · obtain ⟨after, done, rest | rest | rest⟩ := returning.resume
        · exact ⟨after, done, .working rest⟩
        · exact ⟨after, done, .ticking rest⟩
        · exact ⟨after, done, .sleeping rest⟩
      · obtain ⟨after, done, rest | rest | rest, _⟩ := switched.resume
        · exact ⟨after, done, .returning rest⟩
        · exact ⟨after, done, .working rest⟩
        · exact ⟨after, done, .ticking rest⟩
  | timer =>
      rcases invariant.interrupted legal with ticking | ⟨finishing, control, sleeping⟩
      · obtain ⟨after, done, rest⟩ := ticking.callBack
        exact ⟨after, done, .ticking rest⟩
      · obtain ⟨after, done, rest⟩ := sleeping.callBack control (sleeping.status control)
        exact ⟨after, done, .sleeping rest⟩
  | device s =>
      rcases invariant.interrupted legal.1 with ticking | ⟨finishing, control, sleeping⟩
      · obtain ⟨after, done, rest⟩ := ticking.v legal.2
        exact ⟨after, done, .ticking rest⟩
      · obtain ⟨after, done, rest⟩ := sleeping.v control (sleeping.status control) legal.2
        exact ⟨after, done, .sleeping rest⟩
  | handled =>
      rcases invariant.interrupted legal with ticking | ⟨finishing, control, sleeping⟩
      · obtain ⟨after, done, rest⟩ := ticking.tickHandled
        refine ⟨after, ?_, ?_⟩
        · simp only [Kernel.perform, ticking.control]
          exact done
        · rcases rest with rest | rest | rest
          · exact .working rest
          · exact .ticking rest
          · exact .switched rest
      · refine ⟨kernel.idleHandled finishing, ?_, .sleeping
          ⟨sleeping.sound.congr ⟨rfl, rfl, rfl, rfl, rfl, rfl, rfl⟩, sleeping.unmarked,
            sleeping.idle, sleeping.off, sleeping.blocked, .inl ⟨rfl, rfl⟩⟩⟩
        simp only [Kernel.perform, control]
  | findNext =>
      obtain ⟨finishing, control⟩ : ∃ finishing, kernel.control = .sleep finishing :=
        legal.elim (fun control => ⟨_, control⟩) (fun control => ⟨_, control⟩)
      have sleeping := invariant.of_sleep (.inl control)
      obtain ⟨after, done, rest⟩ := sleeping.findNext (sleeping.outside control)
      refine ⟨after, ?_, rest.elim .switched .sleeping⟩
      rw [Kernel.perform, control, ← done]
      cases finishing <;> rfl
  | advance ticks =>
      obtain ⟨finishing, control⟩ : ∃ finishing, kernel.control = .idle finishing :=
        legal.elim (fun control => ⟨_, control⟩) (fun control => ⟨_, control⟩)
      have sleeping := invariant.of_sleep (.inr control)
      exact ⟨_, rfl, .sleeping ⟨sleeping.sound.congr ⟨rfl, rfl, rfl, rfl, rfl, rfl, rfl⟩,
        sleeping.unmarked, sleeping.idle, sleeping.off, sleeping.blocked, sleeping.control⟩⟩
  | noInterrupts =>
      obtain ⟨finishing, control⟩ : ∃ finishing, kernel.control = .idle finishing :=
        legal.elim (fun control => ⟨_, control⟩) (fun control => ⟨_, control⟩)
      have sleeping := invariant.of_sleep (.inr control)
      exact ⟨_, rfl, .halted rfl
        (sleeping.sound.congr ⟨rfl, rfl, rfl, rfl, rfl, rfl, rfl⟩)⟩

/-- The main thread starts alone. -/
theorem exists_initial (main : ThreadId) (initPriority : Int) (execExit : Bool)
    : ∃ first, initial main initPriority execExit = .ok first ∧ first.Working := by
  obtain ⟨readied, setReady, isReady⟩ :=
    @SchedulerState.exists_setStatus_ready 0 (.new initPriority 0) (.inl rfl)
  obtain ⟨started, setRunning, isRunning⟩ : ∃ started,
      readied.setStatus 0 .running = .ok started ∧ started.status = .running :=
    ⟨_, if_pos isReady, rfl⟩
  have ready := @SchedulerState.setStatus_of (SchedulerState.initial.put main (.new initPriority 0))
    main .ready _ _ (SchedulerState.threads_put_self ..) setReady
  have running := @SchedulerState.setStatus_of
    ((SchedulerState.initial.put main (.new initPriority 0)).put main readied)
    main .running _ _ (SchedulerState.threads_put_self ..) setRunning
  have statusOf (t : ThreadId)
      : (((SchedulerState.initial.put main (.new initPriority 0)).put main readied).put main
          started).statusOf t
        = if t = main then some .running else none := by
    by_cases same : t = main
    · simp [SchedulerState.statusOf_put, same, isRunning]
    · simp only [SchedulerState.statusOf_put, Function.update_of_ne same, if_neg same]
      rfl
  refine ⟨booted main execExit
    (((SchedulerState.initial.put main (.new initPriority 0)).put main readied).put main started),
    ?_, ⟨⟨⟨?_, List.nodup_nil, nofun⟩, ⟨nofun, nofun, nofun⟩, ?_, ?_, ?_, ?_⟩, rfl, ?_⟩, rfl, rfl,
    ?_⟩
  · simp only [initial, ready, running, bind, Except.bind, pure, Except.pure]
  · intro t
    change t ∈ [] ↔ _
    rw [booted, statusOf]
    split <;> simp
  · intro t other status
    rw [booted, statusOf] at status
    split at status <;> simp at status
  · intro t s oldLevel member
    cases member
  · intro t
    rw [booted, statusOf]
    split <;> simp
  · intro t
    rw [phase, booted, statusOf]
    by_cases same : t = main
    · simp [Phase.following, Phase.after, Phase.ofStatus, same]
    · simp [Phase.following, Phase.after, Phase.ofStatus, same, Ne.symm same]
  · intro t
    rw [booted, statusOf]
    split <;> simp [*]
  · intro frame member
    cases member

instance (kernel : Kernel) (call : Call) : Decidable (kernel.Admissible call) :=
  match call with
  | .construct t _ => inferInstanceAs (Decidable (kernel.scheduler.threads t = none))
  | .fork t => inferInstanceAs (Decidable (kernel.scheduler.statusOf t = some .new))
  | .semaphore s _ => inferInstanceAs (Decidable (kernel.semaphores s = none))
  | .p s | .v s => inferInstanceAs (Decidable ((kernel.semaphores s).isSome = true))
  | .setStatus status => inferInstanceAs (Decidable (status ≠ .idleMode))
  | .setIsExec _ | .yield | .finish | .setLevel _ | .oneTick | .halt => .isTrue trivial

instance (kernel : Kernel) (action : Action) : Decidable (kernel.Legal action) :=
  match action with
  | .call _ | .device _ => inferInstanceAs (Decidable (_ ∧ _))
  | .resume => inferInstanceAs (Decidable (_ ∧ _))
  | .timer | .handled | .findNext | .advance _ | .noInterrupts =>
      inferInstanceAs (Decidable (_ ∨ _))

/-- The step that an action takes, if it may come next. -/
def next (kernel : Kernel) (action : Action) : Option Kernel :=
  if kernel.Legal action then (kernel.perform action).toOption else none

theorem step_of_next (kernel : Kernel) (action : Action) (after : Kernel)
    (computed : kernel.next action = some after)
    : Step kernel action after :=
  Outcome.of_attempt computed

/-- What holds at first holds whenever a thread may go on or a handler may run. -/
theorem invariant_of_reachable {first : Kernel} (working : first.Working)
    (reachable : Runs.Reachable Step first kernel)
    : kernel.Invariant := by
  refine @Runs.Reachable.invariant _ _ _ _ _ Invariant reachable (.working working) ?_
  rintro before action after invariant ⟨legal, performed⟩
  obtain ⟨other, done, rest⟩ := invariant.perform legal
  obtain rfl := Except.ok.inj (performed.symm.trans done)
  exact rest

-----------------------------------------------------------------------------------------
-- The life cycle
-----------------------------------------------------------------------------------------

/-- Ready threads are queued once and others are not, the current thread runs unless it is in
the loop of `Sleep`, nothing that may come next faults, and finished threads go away.
-/
structure LifeCycle (kernel : Kernel) : Prop where
  queued : ∀ t,
    kernel.scheduler.readyList.threads.count t
      = if kernel.scheduler.statusOf t = some .ready then 1 else 0
  running : kernel.control = .thread ∨ kernel.control = .tick →
    ∀ t, kernel.scheduler.statusOf t = some .running ↔ t = kernel.currentThread
  /-- In the loop of `Sleep`, from which `Run` comes, no thread is marked for deletion. -/
  unmarked : ∀ finishing,
    kernel.control = .sleep finishing ∨ kernel.control = .idle finishing →
    kernel.toBeDestroyed = none
  proceeds : ∀ action, kernel.Legal action → ∃ after, kernel.perform action = .ok after
  lives : kernel.Lives
  /-- A finished thread is still in its own `Sleep`, or else the next step deletes it. -/
  buried : ∀ t, kernel.scheduler.statusOf t = some .terminated →
    (t = kernel.currentThread ∧ (kernel.control = .sleep true ∨ kernel.control = .idle true))
    ∨ (t ≠ kernel.currentThread ∧ kernel.toBeDestroyed = some t ∧ kernel.Legal .resume
        ∧ ∀ action after, Step kernel action after → after.scheduler.threads t = none)
    ∨ kernel.control = .halted

/-- Only going on can follow SWITCH. -/
theorem Switched.only_resume (switched : kernel.Switched) (legal : kernel.Legal action)
    : action = .resume := by
  have control := switched.control
  cases action with
  | resume => rfl
  | call call => exact absurd legal.2.1 (Suspended.ne_nil switched.suspended)
  | device s => simp [Legal, control] at legal
  | _ => simp [Legal, control] at legal

theorem Sound.count {leaving : Option ThreadId} (sound : kernel.Sound none leaving)
    (t : ThreadId)
    : kernel.scheduler.readyList.threads.count t
      = if kernel.scheduler.statusOf t = some .ready then 1 else 0 := by
  rw [sound.accurate.distinct.count]
  simp [sound.accurate.mem_iff]

/-- At every point the kernel is sound, by cases on the invariant. -/
theorem Invariant.exists_sound (invariant : kernel.Invariant)
    : ∃ leaving, kernel.Sound none leaving := by
  cases invariant with
  | working working => exact ⟨_, working.active.sound⟩
  | returning returning => exact ⟨_, returning.active.sound⟩
  | ticking ticking => exact ⟨_, ticking.active.sound⟩
  | switched switched => exact ⟨_, switched.sound⟩
  | sleeping sleeping => exact ⟨_, sleeping.sound⟩
  | halted _ sound => exact ⟨_, sound⟩

/-- Every place satisfies the life cycle. -/
theorem Invariant.lifeCycle (invariant : kernel.Invariant) : kernel.LifeCycle := by
  obtain ⟨leaving, books⟩ := invariant.exists_sound
  constructor
  · exact books.count
  · rintro (control | control)
    · rcases invariant.of_thread control with working | returning | switched
      · exact working.active.running
      · exact returning.active.running
      · exact switched.running
    · exact (invariant.of_tick control).active.running
  · exact fun finishing control => (invariant.of_sleep control).unmarked
  · intro action legal
    obtain ⟨after, done, _⟩ := invariant.perform legal
    exact ⟨after, done⟩
  · exact books.lives
  · intro t ended
    cases invariant with
    | working working => exact absurd ((working.active.sound.terminated t).mp ended) nofun
    | returning returning => exact absurd ((returning.active.sound.terminated t).mp ended) nofun
    | ticking ticking => exact absurd ((ticking.active.sound.terminated t).mp ended) nofun
    | halted control _ => exact .inr (.inr control)
    | @sleeping finishing sleeping =>
        have leaves := (sleeping.sound.terminated t).mp ended
        cases finishing with
        | false => cases leaves
        | true =>
            exact .inl ⟨(Option.some.inj leaves).symm,
              sleeping.control.imp And.left And.left⟩
    | switched switched =>
        have marked := (switched.sound.terminated t).mp ended
        obtain ⟨resumed, done, _, deleted⟩ := switched.resume
        refine .inr (.inl ⟨?_, marked, ⟨switched.control, ?_⟩, ?_⟩)
        · rintro rfl
          have own := (switched.running _).mpr rfl
          simp [ended] at own
        · exact Suspended.ne_nil switched.suspended
        · rintro action after ⟨legal, performed⟩
          obtain rfl := switched.only_resume legal
          obtain rfl := Except.ok.inj (performed.symm.trans done)
          exact deleted t marked

/-- However threads run, signal, sleep, are preempted and finish, their life cycle is kept. -/
theorem lifeCycle_of_reachable (main : ThreadId) (initPriority : Int) (execExit : Bool)
    : ∃ first,
        initial main initPriority execExit = .ok first
        ∧ ∀ kernel, Runs.Reachable Step first kernel → kernel.LifeCycle := by
  obtain ⟨first, started, working⟩ := exists_initial main initPriority execExit
  exact ⟨first, started, fun kernel reachable =>
    (invariant_of_reachable working reachable).lifeCycle⟩

/-- A thread finished, and the main thread is about to delete it. -/
theorem lifeCycle_of_finished_thread
    : ∃ kernel : Kernel,
        kernel.scheduler.statusOf 1 = some .terminated
        ∧ kernel.toBeDestroyed = some 1
        ∧ kernel.LifeCycle := by
  obtain ⟨first, started, holds⟩ := lifeCycle_of_reachable 0 50 false
  have tested : ((initial 0 50 false).toOption.bind (Runs.follow next
      [
        .call (.construct 1 50), .call (.fork 1), .call .yield, .resume, .handled, .resume,
        .call .finish, .findNext
      ])).any
      (fun kernel =>
        decide
          (kernel.scheduler.statusOf 1 = some .terminated ∧ kernel.toBeDestroyed = some 1)) := by
    decide +kernel
  obtain ⟨kernel, followed, found⟩ := (Option.any_eq_true _ _).mp tested
  rw [started] at followed
  obtain ⟨ended, marked⟩ := of_decide_eq_true found
  exact ⟨kernel, ended, marked, holds kernel (.of_follow step_of_next (.refl first) followed)⟩

end Kernel

end Nachos.Threads
