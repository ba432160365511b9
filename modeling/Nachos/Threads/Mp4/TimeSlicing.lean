import Nachos.Lib.Outcome
import Nachos.Threads.Mp4.Operations

/-! Whether the timer goes on until all threads have finished: it does as long as a thread that goes
to sleep leaves another one that is ready, or is the last one to finish.
-/

namespace Nachos.Threads.Mp4

open Machine Outcome

namespace Kernel

variable {kernel after : Kernel} {action : Action}

-----------------------------------------------------------------------------------------
-- Handlers
-----------------------------------------------------------------------------------------

/-- The timer schedules its next interrupt unless it is disabled. -/
theorem of_setInterrupt {random : Nat} (books : kernel.Books)
    (set : kernel.setInterrupt random = .ok after)
    : Kept kernel after ∧ (after.timer.disable = false → after.TimerPending) := by
  unfold setInterrupt at set
  split at set
  · rename_i disabled
    obtain rfl := Except.ok.inj set
    refine ⟨⟨books, fun _ => rfl, rfl, rfl, rfl, rfl⟩, fun enabled => ?_⟩
    simp [disabled] at enabled
  · obtain ⟨_, _, _, pending⟩ := of_schedule set
    exact ⟨kept_schedule books set, fun _ => pending rfl rfl⟩

/-- The alarm keeps the books, by cases on whether the machine idles: it asks for a switch or does
nothing.
-/
theorem kept_alarm (books : kernel.Books) (asked : kernel.alarm = .ok after)
    : Kept kernel after := by
  unfold alarm at asked
  split at asked
  · obtain ⟨_, _, rest⟩ := of_bind_ok asked
    obtain rfl := Except.ok.inj rest
    have same : Same kernel { kernel with machine.interrupt.yieldOnReturn := true } :=
      .of_pending rfl rfl rfl rfl rfl rfl rfl
    exact same.kept books rfl rfl
  · obtain rfl := Except.ok.inj asked
    exact ⟨books, fun _ => rfl, rfl, rfl, rfl, rfl⟩

/-- The poll of the console keeps the books, by cases on whether a character has come. -/
theorem kept_consoleInput {polled : Polled} (books : kernel.Books)
    (inHandler : kernel.machine.interrupt.inHandler = true)
    (called : kernel.consoleInputCallBack polled = .ok after)
    : Kept kernel after := by
  obtain ⟨_, _, rest⟩ := of_bind_ok called
  split at rest
  · obtain rfl := Except.ok.inj rest
    exact ⟨books, fun _ => rfl, rfl, rfl, rfl, rfl⟩
  · cases polled with
    | nothing => exact kept_schedule books rest
    | endOfFile => exact kept_v_inHandler books inHandler rest
    | char c =>
        have same : Same kernel { kernel with consoleInput.incoming := c } :=
          .of_pending rfl rfl rfl rfl rfl rfl rfl
        have typed := same.kept books rfl rfl
        exact typed.trans (kept_v_inHandler typed.books inHandler rest)

/-- No handler ends a thread, and the timer's own schedules the next interrupt. -/
theorem of_callBack {random : Nat} {polled : Polled} {device : Device} (books : kernel.Books)
    (inHandler : kernel.machine.interrupt.inHandler = true)
    (called : kernel.callBack random polled device = .ok after)
    : Kept kernel after
      ∧ (device = .timer → after.timer.disable = false → after.TimerPending) := by
  cases device with
  | timer =>
      obtain ⟨asked, rings, set⟩ := of_bind_ok called
      have rung := kept_alarm books rings
      obtain ⟨kept, pending⟩ := of_setInterrupt rung.books set
      exact ⟨rung.trans kept, fun _ => pending⟩
  | disk =>
      have same : Same kernel { kernel with active := false } :=
        .of_pending rfl rfl rfl rfl rfl rfl rfl
      have free := same.kept books rfl rfl
      exact ⟨free.trans (kept_v_inHandler free.books inHandler called), nofun⟩
  | consoleInput => exact ⟨kept_consoleInput books inHandler called, nofun⟩
  | consoleOutput =>
      have same : Same kernel { kernel with putBusy := false } :=
        .of_pending rfl rfl rfl rfl rfl rfl rfl
      have free := same.kept books rfl rfl
      exact ⟨free.trans (kept_v_inHandler free.books inHandler called), nofun⟩

/-- While no handler executes, the timer's interrupt is pending. -/
theorem sound_handle {random : Nat} {polled : Polled} (sound : kernel.Sound)
    (handled : kernel.handle random polled = .ok after)
    : after.Sound := by
  unfold handle at handled
  split at handled
  · exact nomatch handled
  · rename_i device handling
    obtain ⟨called, ran, rest⟩ := of_bind_ok handled
    obtain rfl := Except.ok.inj rest
    obtain ⟨inHandler, _⟩ := sound.inside (by simp [handling])
    obtain ⟨kept, pending⟩ := of_callBack sound.books inHandler ran
    have own {status : Threads.ThreadStatus}
        (found : kernel.statusOf kernel.currentThread = some status)
        (awake : status ≠ .waiting)
        : called.statusOf called.currentThread = some status := by
      rw [kept.currentThread, kept.own, found]
      rw [found]
      exact fun same => awake (Option.some.inj same)
    have books := kept.books
    refine ⟨⟨books.ready, books.distinct, books.waiting, books.doomed, fun enabled => .inl ?_,
      books.ended⟩, fun working => ?_, fun leaving => ?_, fun other => absurd rfl other,
      fun finishing asleep => ?_, fun finishing idles => ?_⟩
    · rcases books.armed enabled with held | executing
      · exact held
      · rw [kept.handling, handling] at executing
        exact pending (Option.some.inj executing) enabled
    · exact own (sound.working (kept.control ▸ working)) (by decide)
    · exact own (sound.leaving (kept.control ▸ leaving)) (by decide)
    · have control := (sound.inside (by simp [handling])).2
      have asleep : kernel.control = .sleep finishing := kept.control.symm.trans asleep
      simp [asleep] at control
    · exact (congrArg Timer.disable kept.timer).trans
        (sound.idled finishing (kept.control.symm.trans idles))

/-- The interrupt that is taken off the list is the timer's, or the timer's stays. -/
theorem sound_deliver (sound : kernel.Sound) (checking : kernel.Checking)
    (delivered : kernel.deliver = .ok after)
    : after.Sound := by
  obtain ⟨outside, control⟩ := checking
  unfold deliver at delivered
  split at delivered
  · exact nomatch delivered
  · rename_i next front
    obtain rfl := Except.ok.inj delivered
    have books := sound.books
    have rest : (kernel.machine.advanceTo next.when).pending = kernel.machine.pending := by
      unfold Simulation.advanceTo
      split <;> rfl
    refine ⟨⟨books.ready, books.distinct, books.waiting, books.doomed, fun enabled => ?_,
      books.ended⟩, sound.working, sound.leaving, fun _ => ⟨rfl, control⟩, sound.rested,
      sound.idled⟩
    rcases books.armed enabled with ⟨pending, member, device, type⟩ | executing
    · rw [SortedList.items_of_front? front] at member
      rcases List.mem_cons.mp member with rfl | later
      · exact .inr (congrArg some device)
      · refine .inl ⟨pending, ?_, device, type⟩
        change pending ∈ (kernel.machine.advanceTo next.when).pending.rest.items
        rwa [rest]
    · simp [outside] at executing

/-- The end of a tick keeps the kernel sound, by cases on whether a handler asked for a switch. -/
theorem sound_tickHandled (sound : kernel.Sound) (outside : kernel.handling = none)
    (control : kernel.control = .tick) (handled : kernel.tickHandled = .ok after)
    : after.Sound := by
  have goesOn (interrupt : Interrupt)
      : Working { kernel with machine.interrupt := interrupt, control := .thread } := by
    have same : Same kernel { kernel with machine.interrupt := interrupt, control := .thread } :=
      .of_pending rfl rfl rfl rfl rfl rfl rfl
    exact ⟨sound.books.congr same, sound.working (.inr control), rfl, outside⟩
  unfold tickHandled at handled
  dsimp only at handled
  split at handled
  · have asked := goesOn
      { level := .intOn, inHandler := false, yieldOnReturn := false, status := .systemMode }
    exact sound_yield ((kept_push asked.books _ _).working asked) handled
  · obtain rfl := Except.ok.inj handled
    exact (goesOn { kernel.machine.interrupt with inHandler := false, level := .intOn }).sound

/-- After the handlers of `Idle` the kernel is sound: it idles on, or goes on looking for a thread.
-/
theorem sound_idleHandled {finishing : Bool} (sound : kernel.Sound)
    (outside : kernel.handling = none) (control : kernel.control = .idle finishing)
    : (kernel.idleHandled finishing).Sound := by
  have books := sound.books
  unfold idleHandled
  split
  · refine ⟨⟨books.ready, books.distinct, books.waiting, books.doomed, books.armed, books.ended⟩,
      ?_, fun leaving => ?_, fun handling => absurd outside handling,
      fun _ _ => .inr (books.ended (sound.idled finishing control)), ?_⟩
    · rintro (awake | awake) <;> cases awake
    · rcases leaving with sleeps | idles
      · exact sound.leaving (.inr (Control.sleep.inj sleeps ▸ control))
      · cases idles
    · rintro _ ⟨⟩
  · refine ⟨⟨books.ready, books.distinct, books.waiting, books.doomed, books.armed, books.ended⟩,
      ?_, ?_, fun handling => absurd outside handling, ?_, ?_⟩
    · rintro (awake | awake) <;> cases awake
    · rintro (asleep | asleep) <;> cases asleep
    · rintro _ ⟨⟩
    · rintro _ ⟨⟩

-----------------------------------------------------------------------------------------
-- Calls
-----------------------------------------------------------------------------------------

/-- The current thread goes to sleep: in `P`, where it may have to wait again, or when it finishes. -/
def Sleeps (kernel : Kernel) : Action → Prop
  | .call (.p s) => kernel.wouldWait s = true
  | .call .finish => True
  | .resume =>
      match kernel.calls kernel.currentThread with
      | .p s _ :: _ => kernel.wouldWait s = true
      | _ => False
  | _ => False

/-- A thread that goes to sleep leaves another one that is ready, unless it finishes and all others
have finished.
-/
def LeavesReady (kernel : Kernel) (action : Action) : Prop :=
  kernel.Sleeps action
  → kernel.readyList ≠ []
    ∨ action = .call .finish ∧ ∀ t, t ≠ kernel.currentThread → ¬kernel.Unfinished t

/-- A thread that goes on after a switch keeps the kernel sound, by cases on where it left off. -/
theorem sound_resume (working : kernel.Working) (leaves : kernel.LeavesReady .resume)
    (resumed : kernel.resume = .ok after)
    : after.Sound := by
  have popped := (kept_pop working.books).working working
  unfold LeavesReady Sleeps at leaves
  unfold resume at resumed
  split at resumed
  · exact Except.ok.inj resumed ▸ working.sound
  · obtain ⟨checked, deleted, set⟩ := of_bind_ok resumed
    exact sound_setLevel (working_checkToBeDestroyed popped deleted) set
  · obtain ⟨_, _, deleted⟩ := of_bind_ok resumed
    exact (working_checkToBeDestroyed popped deleted).sound
  · exact sound_setLevel popped resumed
  · rename_i s oldLevel rest top
    rw [top] at leaves
    exact sound_wait popped
      (fun waits => (leaves waits).resolve_right (fun ends => nomatch ends.1)) resumed
  · obtain rfl := Except.ok.inj resumed
    have same : Same kernel.pop { kernel.pop with machine.interrupt.status := ‹MachineStatus› } :=
      .of_pending rfl rfl rfl rfl rfl rfl rfl
    exact ((same.kept popped.books rfl rfl).working popped).sound

/-- A character that is read keeps the kernel sound, by cases on whether one has come. -/
theorem sound_getChar (working : kernel.Working) (read : kernel.getChar = .ok after)
    : after.Sound := by
  have emptied {polling : Kernel} (polls : Kept kernel polling)
      : Sound { polling with consoleInput.incoming := eof } := by
    have same : Same polling { polling with consoleInput.incoming := eof } :=
      .of_pending rfl rfl rfl rfl rfl rfl rfl
    exact ((polls.trans (same.kept polls.books rfl rfl)).working working).sound
  unfold getChar at read
  split at read
  · obtain ⟨polling, scheduled, rest⟩ := of_bind_ok read
    obtain rfl := Except.ok.inj rest
    exact emptied (kept_schedule working.books scheduled)
  · obtain rfl := Except.ok.inj read
    exact emptied ⟨working.books, fun _ => rfl, rfl, rfl, rfl, rfl⟩

/-- No call of a thread's own code stops the timer, by cases on the call. -/
theorem sound_call {call : Call} (working : kernel.Working)
    (admissible : kernel.Admissible call) (leaves : kernel.LeavesReady (.call call))
    (performed : kernel.perform (.call call) = .ok after)
    : after.Sound := by
  have books := working.books
  cases call with
  | construct t =>
      obtain rfl := Except.ok.inj performed
      exact sound_construct working admissible
  | fork t => exact sound_fork working admissible performed
  | yield => exact sound_yield working performed
  | finish =>
      exact sound_finish working ((leaves trivial).imp_right And.right) performed
  | semaphore s initialValue =>
      obtain rfl := Except.ok.inj performed
      exact ((kept_store books (List.nil_sublist _)).working working).sound
  | p s =>
      obtain ⟨off, lowered, waited⟩ := of_bind_ok performed
      obtain rfl := setLevel_off lowered
      refine sound_wait ((kept_off books).working working) (fun waits => ?_) waited
      rcases leaves waits with filled | ⟨ends, _⟩
      · exact filled
      · cases ends
  | v s => exact sound_v working performed
  | setLevel now => exact sound_setLevel working performed
  | setStatus status =>
      obtain rfl := Except.ok.inj performed
      have same : Same kernel { kernel with machine.interrupt.status := status } :=
        .of_pending rfl rfl rfl rfl rfl rfl rfl
      exact ((same.kept books rfl rfl).working working).sound
  | oneTick =>
      obtain ⟨same, current, control⟩ := of_oneTick performed
      exact working.sound_tick same current control
  | requestDisk ticks =>
      obtain ⟨_, _, scheduled⟩ := of_bind_ok performed
      have same : Same kernel { kernel with active := true } :=
        .of_pending rfl rfl rfl rfl rfl rfl rfl
      have busy := same.kept books rfl rfl
      exact ((busy.trans (kept_schedule busy.books scheduled)).working working).sound
  | getChar => exact sound_getChar working performed
  | putChar =>
      obtain ⟨_, _, scheduled⟩ := of_bind_ok performed
      have same : Same kernel { kernel with putBusy := true } :=
        .of_pending rfl rfl rfl rfl rfl rfl rfl
      have busy := same.kept books rfl rfl
      exact ((busy.trans (kept_schedule busy.books scheduled)).working working).sound
  | halt =>
      obtain rfl := Except.ok.inj performed
      refine ⟨⟨books.ready, books.distinct, books.waiting, books.doomed, books.armed,
        books.ended⟩, ?_, ?_, fun handling => absurd working.outside handling, ?_, ?_⟩
      · rintro (awake | awake) <;> cases awake
      · rintro (asleep | asleep) <;> cases asleep
      · rintro _ ⟨⟩
      · rintro _ ⟨⟩

-----------------------------------------------------------------------------------------
-- The loop of Sleep
-----------------------------------------------------------------------------------------

/-- `Sleep` goes over to another thread, or prepares the end. -/
theorem sound_findNext {finishing : Bool} (sound : kernel.Sound)
    (control : kernel.control = .sleep finishing)
    (performed : kernel.findNext finishing = .ok after)
    : after.Sound := by
  have books := sound.books
  have outside : kernel.handling = none := by
    by_contra handling
    have inside := (sound.inside handling).2
    simp [control] at inside
  have leaves (last : finishing = true)
      : kernel.statusOf kernel.currentThread = some .terminated :=
    sound.leaving (.inl (last ▸ control))
  obtain ⟨⟨nextThread, found⟩, searched, rest⟩ := of_bind_ok performed
  dsimp only at rest
  rcases of_findNextToRun searched with ⟨none, rfl, rfl⟩ | ⟨t, readyList, parts, rfl, rfl⟩
  · obtain rfl := Except.ok.inj rest
    have ended := (sound.rested finishing control).resolve_left (not_not.mpr none)
    refine ⟨⟨books.ready, books.distinct, books.waiting, books.doomed, nofun, fun _ => ended⟩, ?_,
      fun leaving => ?_, fun handling => absurd outside handling, ?_, fun _ _ => rfl⟩
    · rintro (awake | awake) <;> cases awake
    · rcases leaving with sleeps | idles
      · cases sleeps
      · exact leaves (Control.idle.inj idles)
    · rintro _ ⟨⟩
  · obtain ⟨taken, ready, absent⟩ := kept_dequeue books parts
    exact sound_run taken.books ready absent leaves outside rest

/-- Every step keeps the books if it leaves a ready thread, by cases on the action. -/
theorem Sound.step (sound : kernel.Sound) (step : Step kernel action after)
    (leaves : kernel.LeavesReady action)
    : after.Sound := by
  obtain ⟨legal, performed⟩ := step
  cases action with
  | call call => exact sound_call (sound.resting legal.1) legal.2.2 leaves performed
  | resume => exact sound_resume (sound.resting legal.1) leaves performed
  | deliver => exact sound_deliver sound legal.1 performed
  | handle random polled => exact sound_handle sound performed
  | handled =>
      obtain ⟨⟨outside, control⟩, _⟩ := legal
      rcases control with ticks | idles | idles
      · simp only [perform, ticks] at performed
        exact sound_tickHandled sound outside ticks performed
      · simp only [perform, idles] at performed
        exact Except.ok.inj performed ▸ sound_idleHandled sound outside idles
      · simp only [perform, idles] at performed
        exact Except.ok.inj performed ▸ sound_idleHandled sound outside idles
  | findNext =>
      rcases legal with sleeps | sleeps
      · simp only [perform, sleeps, Control.sleep.injEq, Bool.false_eq_true, decide_false]
          at performed
        exact sound_findNext sound sleeps performed
      · simp only [perform, sleeps, decide_true] at performed
        exact sound_findNext sound sleeps performed

/-- The timer ticks: it is not disabled, and its interrupt is pending or its handler executes. -/
def TimerAlive (kernel : Kernel) : Prop :=
  kernel.timer.disable = false ∧ (kernel.TimerPending ∨ kernel.handling = some .timer)

/-- The timer ticks while some thread has not finished. -/
def Survives (kernel : Kernel) : Prop := ∀ t, kernel.Unfinished t → kernel.TimerAlive

theorem Books.survives (books : kernel.Books) : kernel.Survives := by
  intro t unfinished
  cases disabled : kernel.timer.disable with
  | true => exact absurd unfinished (books.ended disabled t)
  | false => exact ⟨disabled, books.armed disabled⟩

-----------------------------------------------------------------------------------------
-- A thread that leaves no other ready
-----------------------------------------------------------------------------------------

/-- The current thread has gone to sleep, and the loop of `Sleep` comes next. -/
structure Slept (finishing : Bool) (kernel after : Kernel) : Prop where
  control : after.control = .sleep finishing
  off : after.machine.interrupt.level = .intOff
  readyList : after.readyList = kernel.readyList
  others : ∀ t, t ≠ kernel.currentThread → after.statusOf t = kernel.statusOf t
  own
    : finishing = false → kernel.Unfinished kernel.currentThread
      → after.Unfinished kernel.currentThread

/-- `Sleep` changes the status of the current thread only. -/
theorem of_sleep {finishing : Bool} (slept : kernel.sleep finishing = .ok after)
    : Slept finishing kernel after := by
  obtain ⟨_, off, rest⟩ := of_bind_ok slept
  obtain ⟨blocked, set, rest⟩ := of_bind_ok rest
  obtain ⟨threads, rfl, changes, stays⟩ := of_setStatus set
  obtain rfl := Except.ok.inj rest
  refine ⟨rfl, of_require_ok off, rfl, fun t apart => ?_, fun _ live => ?_⟩
  · by_cases ended : kernel.statusOf kernel.currentThread = some .terminated
    · exact congrFun (stays ended) t
    · exact (congrFun (changes ended) t).trans (Function.update_of_ne apart _ _)
  · exact .of_status ((congrFun (changes live.2) _).trans (Function.update_self ..)) (by decide)

/-- `P` goes to sleep where it has to wait. -/
theorem slept_of_wait {s : SemaphoreId} {oldLevel : IntStatus} (waits : kernel.wouldWait s = true)
    (waited : kernel.wait s oldLevel = .ok after)
    : Slept false kernel after := by
  obtain ⟨semaphore, looked, rest⟩ := of_bind_ok waited
  have found := of_findSemaphore looked
  have zero : semaphore.value = 0 := by simpa [wouldWait, found] using waits
  rw [if_pos zero] at rest
  obtain ⟨_, _, slept⟩ := of_bind_ok rest
  obtain ⟨control, off, readyList, others, own⟩ := of_sleep slept
  exact ⟨control, off, readyList, others, own⟩

/-- What puts the current thread to sleep, by cases on the action. -/
theorem slept_of_sleeps (step : Step kernel action after) (sleeps : kernel.Sleeps action)
    : ∃ finishing,
        Slept finishing kernel after ∧ (finishing = true → action = .call .finish) := by
  obtain ⟨_, performed⟩ := step
  cases action with
  | call call =>
      cases call with
      | finish =>
          obtain ⟨off, lowered, rest⟩ := of_bind_ok performed
          obtain rfl := setLevel_off lowered
          obtain ⟨thread, looked, slept⟩ := of_bind_ok rest
          obtain ⟨control, off, readyList, others, _⟩ := of_sleep slept
          have marked := @statusOf_update kernel
            (markFinished thread { kernel with machine := kernel.machine.changeLevel .intOff })
            kernel.currentThread _ rfl
          refine ⟨true, ⟨control, off, readyList, fun t apart => ?_, nofun⟩, fun _ => rfl⟩
          exact (others t apart).trans
            ((congrFun marked t).trans (Function.update_of_ne apart _ _))
      | p s =>
          obtain ⟨off, lowered, waited⟩ := of_bind_ok performed
          obtain rfl := setLevel_off lowered
          obtain ⟨control, off, readyList, others, own⟩ :=
            @slept_of_wait { kernel with machine := kernel.machine.changeLevel .intOff } _ _ _
              sleeps waited
          exact ⟨false, ⟨control, off, readyList, others, own⟩, nofun⟩
      | construct | fork | yield | semaphore | v | setLevel | setStatus | oneTick | requestDisk
      | getChar | putChar | halt => exact absurd sleeps not_false
  | resume =>
      rw [Sleeps] at sleeps
      rw [perform, resume] at performed
      cases top : kernel.calls kernel.currentThread with
      | nil =>
          rw [top] at sleeps
          exact absurd sleeps not_false
      | cons frame rest =>
          rw [top] at sleeps performed
          cases frame with
          | p s oldLevel =>
              obtain ⟨control, off, readyList, others, own⟩ :=
                @slept_of_wait kernel.pop _ _ _ sleeps performed
              exact ⟨false, ⟨control, off, readyList, others, own⟩, nofun⟩
          | begin | run | yield | oneTick => exact absurd sleeps not_false
  | deliver | handle | handled | findNext => exact absurd sleeps not_false

/-- Only a thread that runs goes to sleep. -/
theorem control_of_sleeps (legal : kernel.Legal action) (sleeps : kernel.Sleeps action)
    : kernel.control = .thread := by
  cases action with
  | call | resume => exact legal.1
  | deliver | handle | handled | findNext => exact absurd sleeps not_false

/-- Without a ready thread the loop of `Sleep` prepares the end. -/
theorem Slept.findNext {finishing : Bool} (slept : Slept finishing kernel after)
    (none : kernel.readyList = [])
    : Step after .findNext (after.prepareToEnd.idle finishing) := by
  have control := slept.control
  have empty : after.readyList = [] := slept.readyList.trans none
  refine ⟨?_, ?_⟩
  · cases finishing with
    | false => exact .inl control
    | true => exact .inr control
  · have asleep : decide (after.control = .sleep true) = finishing := by
      rw [control]
      cases finishing <;> rfl
    change after.findNext (after.control = .sleep true) = _
    rw [asleep, Kernel.findNext, findNextToRun, requireOff, slept.off, empty]
    rfl

/-- A thread that has not finished stays without a timer when another goes to sleep and leaves none
ready.
-/
theorem exists_not_survives (sound : kernel.Sound) (step : Step kernel action after)
    (leaves : ¬kernel.LeavesReady action)
    : ∃ next, Step after .findNext next ∧ ¬next.Survives := by
  unfold LeavesReady at leaves
  push Not at leaves
  obtain ⟨sleeps, none, more⟩ := leaves
  obtain ⟨finishing, slept, finishes⟩ := slept_of_sleeps step sleeps
  refine ⟨_, slept.findNext none, fun survives => ?_⟩
  have unfinished : ∃ t, after.Unfinished t := by
    cases finishing with
    | false =>
        have running := sound.working (.inl (control_of_sleeps step.1 sleeps))
        exact ⟨_, slept.own rfl (.of_status running (by decide))⟩
    | true =>
        obtain ⟨t, apart, live⟩ := more (finishes rfl)
        refine ⟨t, ?_⟩
        rw [Unfinished, slept.others t apart]
        exact live
  obtain ⟨t, live⟩ := unfinished
  have alive := (survives t live).1
  cases alive

/-- Nobody waits for a semaphore whose queues are empty. -/
theorem waiting_of_empty {semaphores : SemaphoreId → Option Semaphore}
    {statuses : ThreadId → Option Threads.ThreadStatus}
    (empty : ∀ s semaphore, semaphores s = some semaphore → semaphore.queue = [])
    : Waiting semaphores statuses where
  waiting s semaphore t found member := by
    rw [empty s semaphore found] at member
    cases member
  distinct s semaphore found := by
    rw [empty s semaphore found]
    exact List.nodup_nil
  apart s1 s2 first second t foundFirst foundSecond member _ := by
    rw [empty s1 first foundFirst] at member
    cases member

/-- No thread waits at a semaphore after the boot. -/
theorem booted_queue {main : ThreadId} {randomize : Bool} {s : SemaphoreId} {semaphore : Semaphore}
    (found : (booted main randomize).semaphores s = some semaphore)
    : semaphore.queue = [] := by
  unfold booted at found
  dsimp only at found
  split_ifs at found
  · exact Option.some.inj found ▸ rfl
  · exact Option.some.inj found ▸ rfl

/-- The kernel is sound after the boot: the timer and the console poll are scheduled. -/
theorem initial_sound {main : ThreadId} {randomize : Bool} {random : Nat} {first : Kernel}
    (started : initial main randomize random = .ok first)
    : first.Sound := by
  obtain ⟨ticking, set, scheduled⟩ := of_bind_ok started
  obtain ⟨ticks, currentTicks, controlTicks, pending⟩ := of_schedule set
  obtain ⟨polls, current, control, _⟩ := of_schedule scheduled
  have statuses := polls.statusOf.trans ticks.statusOf
  have running : first.statusOf first.currentThread = some .running := by
    rw [statuses, current, currentTicks, statusOf]
    change (Function.update (fun _ => none) main _ main).map Thread.standing = _
    rw [Function.update_self]
    rfl
  refine Working.sound ⟨⟨?_, ?_, ?_, ?_, fun _ => .inl (polls.pending (pending rfl rfl)), ?_⟩,
    running, control.trans controlTicks, polls.handling.trans ticks.handling⟩
  · rw [polls.readyList, ticks.readyList]
    rintro _ ⟨⟩
  · rw [polls.readyList, ticks.readyList]
    exact List.nodup_nil
  · rw [polls.semaphores, ticks.semaphores]
    exact waiting_of_empty (fun s semaphore found => booted_queue found)
  · rw [polls.toBeDestroyed, ticks.toBeDestroyed]
    rintro _ ⟨⟩
  · rw [polls.timer, ticks.timer]
    rintro ⟨⟩

-----------------------------------------------------------------------------------------
-- Runs
-----------------------------------------------------------------------------------------

/-- A step after which a thread that went to sleep has left another one ready. -/
def StepInTime (kernel : Kernel) (action : Action) (after : Kernel) : Prop :=
  Step kernel action after ∧ kernel.LeavesReady action

/-- In a run in which whoever goes to sleep leaves a ready thread, or is the last one to finish, the
timer goes on until all threads have finished, since every step keeps the books. After the first
step that leaves none the loop of `Sleep` stops the timer for a thread that has not finished.
-/
theorem timer_survives_iff {main : ThreadId} {randomize : Bool} {random : Nat} {first : Kernel}
    (started : initial main randomize random = .ok first)
    (reachable : Runs.Reachable StepInTime first kernel)
    : kernel.Survives
      ∧ ∀ action after,
        Step kernel action after
        → (after.Survives ∧ (∀ next, Step after .findNext next → next.Survives)
          ↔ kernel.LeavesReady action) := by
  have sound : kernel.Sound :=
    @Runs.Reachable.invariant _ _ _ _ _ Sound reachable (initial_sound started)
      (fun _ _ _ sound step => sound.step step.1 step.2)
  refine ⟨sound.books.survives, fun action after step => ⟨fun survives => ?_, fun inTime => ?_⟩⟩
  · by_contra leaves
    obtain ⟨next, searched, stops⟩ := exists_not_survives sound step leaves
    exact stops (survives.2 next searched)
  · have later := sound.step step inTime
    refine ⟨later.books.survives, fun next searched => ?_⟩
    exact (later.step searched (fun sleeps => absurd sleeps not_false)).books.survives

-----------------------------------------------------------------------------------------
-- Execution
-----------------------------------------------------------------------------------------

instance (kernel : Kernel) (call : Call) : Decidable (kernel.Admissible call) :=
  match call with
  | .construct _ | .fork _ | .semaphore _ _ => inferInstanceAs (Decidable (_ = _))
  | .setStatus _ => inferInstanceAs (Decidable (_ ≠ _))
  | .yield | .finish | .p _ | .v _ | .setLevel _ | .oneTick | .requestDisk _ | .getChar
  | .putChar | .halt => .isTrue trivial

instance (kernel : Kernel) : Decidable kernel.Checking :=
  inferInstanceAs (Decidable (_ ∧ _))

instance (kernel : Kernel) (action : Action) : Decidable (kernel.Legal action) :=
  match action with
  | .call _ => inferInstanceAs (Decidable (_ ∧ _))
  | .resume => inferInstanceAs (Decidable (_ ∧ _))
  | .deliver | .handled => inferInstanceAs (Decidable (_ ∧ _))
  | .handle _ _ => inferInstanceAs (Decidable (_ ≠ _))
  | .findNext => inferInstanceAs (Decidable (_ ∨ _))

/-- The step that an action takes, if it may come next. -/
def next (kernel : Kernel) (action : Action) : Option Kernel :=
  if kernel.Legal action then (kernel.perform action).toOption else none

theorem step_of_next (kernel : Kernel) (action : Action) (after : Kernel)
    (computed : kernel.next action = some after)
    : Step kernel action after :=
  Outcome.of_attempt computed

/-- The main thread waits for the disk while it reads the first sector of the file system. -/
def readActions : List Action :=
  [.call (.p 3), .call (.requestDisk 1000), .call (.p diskSemaphore), .findNext]

/-- The states that the actions lead to from the first one. -/
theorem exists_first {computes : Kernel → Action → Option Kernel} {actions : List Action}
    {kernel : Kernel}
    (led : (initial 0 false 0).toOption.bind (Runs.follow computes actions) = some kernel)
    : ∃ first,
        initial 0 false 0 = .ok first ∧ Runs.follow computes actions first = some kernel := by
  obtain ⟨first, started, followed⟩ := Option.bind_eq_some_iff.mp led
  refine ⟨first, ?_, followed⟩
  cases outcome : initial 0 false 0 with
  | error crash => simp [outcome, Except.toOption] at started
  | ok booted => simpa [outcome, Except.toOption] using started

/-- The timer is disabled while the main thread waits for the disk. -/
theorem disk_wait_stops_timer
    : ¬∀ (main : ThreadId) (randomize : Bool) (random : Nat) (first kernel : Kernel),
        initial main randomize random = .ok first →
        Runs.Reachable Step first kernel →
        kernel.Survives := by
  intro always
  have tested : ((initial 0 false 0).toOption.bind (Runs.follow next readActions)).any
      (fun kernel =>
        decide (kernel.timer.disable = true ∧ kernel.statusOf 0 = some .waiting)) := by
    decide +kernel
  obtain ⟨kernel, led, passed⟩ := (Option.any_eq_true _ _).mp tested
  obtain ⟨first, started, followed⟩ := exists_first led
  obtain ⟨disabled, waits⟩ := of_decide_eq_true passed
  have alive := always 0 false 0 first kernel started
    (.of_follow step_of_next (.refl first) followed) 0 (.of_status waits (by decide))
  simp [disabled, TimerAlive] at alive

instance (kernel : Kernel) (action : Action) : Decidable (kernel.Sleeps action) := by
  unfold Sleeps
  split
  · exact inferInstanceAs (Decidable (_ = _))
  · exact .isTrue trivial
  · split
    · exact inferInstanceAs (Decidable (_ = _))
    · exact .isFalse not_false
  · exact .isFalse not_false

/-- The step that an action takes if nobody goes to sleep while no thread is ready. -/
def nextInTime (kernel : Kernel) (action : Action) : Option Kernel :=
  if kernel.Sleeps action → kernel.readyList ≠ [] then kernel.next action else none

/-- The executable step is a step in time. -/
theorem stepInTime_of_next (computed : kernel.nextInTime action = some after)
    : StepInTime kernel action after := by
  unfold nextInTime at computed
  split at computed
  · rename_i leaves
    exact ⟨step_of_next _ _ _ computed, fun sleeps => .inl (leaves sleeps)⟩
  · cases computed

/-- Ticks of the clock, and one that interrupts for the timer and the keyboard. -/
def clock (ticks : Nat) : List Action :=
  (List.replicate ticks [.call .oneTick, .handled]).flatten

def timerTick : List Action :=
  [
    .call .oneTick, .deliver, .handle 0 .nothing, .deliver, .handle 0 .nothing, .handled, .handled,
    .resume
  ]

/-- The main thread forks thread 1 and waits for the disk. Thread 1 runs while the timer interrupts
twice and the disk once, and finishes, and the main thread goes on.
-/
def waitsForDisk : List Action :=
  [
    .call (.setLevel .intOn), .handled, .call (.construct 1), .call (.fork 1), .handled,
    .call (.p 3), .handled, .call (.requestDisk 250), .call (.p diskSemaphore), .findNext, .resume,
    .handled
  ]
  ++ clock 5 ++ timerTick ++ clock 8 ++ timerTick ++ clock 6
  ++ [
    .call .oneTick, .deliver, .handle 0 .nothing, .handled, .call .finish, .findNext, .resume,
    .resume, .handled
  ]

/-- The main thread goes on after the disk wait, and the timer still ticks. -/
theorem timer_survives_disk_wait
    : ∃ first kernel,
        initial 0 false 0 = .ok first
        ∧ Runs.Reachable StepInTime first kernel
        ∧ kernel.currentThread = 0
        ∧ kernel.machine.stats.totalTicks = 290
        ∧ kernel.TimerAlive := by
  have tested : ((initial 0 false 0).toOption.bind (Runs.follow nextInTime waitsForDisk)).any
      (fun kernel =>
        decide
          (kernel.currentThread = 0
          ∧ kernel.machine.stats.totalTicks = 290
          ∧ kernel.statusOf 0 = some .running)) := by
    decide +kernel
  obtain ⟨kernel, led, passed⟩ := (Option.any_eq_true _ _).mp tested
  obtain ⟨first, started, followed⟩ := exists_first led
  obtain ⟨current, time, runs⟩ := of_decide_eq_true passed
  have reached : Runs.Reachable StepInTime first kernel :=
    .of_follow (fun _ _ _ => stepInTime_of_next) (.refl first) followed
  have survives := (timer_survives_iff started reached).1
  exact ⟨first, kernel, started, reached, current, time,
    survives 0 (.of_status runs (by decide))⟩

end Kernel

end Nachos.Threads.Mp4
