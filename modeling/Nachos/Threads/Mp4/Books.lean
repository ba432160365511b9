import Nachos.Machine.Delivery
import Nachos.Threads.Mp4.Kernel
import Nachos.Threads.SemaphoreQueues

/-! What each operation of the fourth kernel keeps: only threads that have not finished are
ready or wait for a semaphore, each in one place, and a timer that is not disabled has an
interrupt pending.
-/

namespace Nachos.Threads.Mp4

open Machine Outcome

-----------------------------------------------------------------------------------------
-- The books of the kernel
-----------------------------------------------------------------------------------------

/-- A status in the terms of the third kernel. -/
def ThreadStatus.standing : ThreadStatus → Threads.ThreadStatus
  | .justCreated => .new
  | .running => .running
  | .ready => .ready
  | .blocked => .waiting
  | .zombie => .zombie

/-- The third kernel has a status of its own for threads that finished. -/
def Thread.standing (thread : Thread) : Threads.ThreadStatus :=
  if thread.finished then .terminated else thread.status.standing

namespace Kernel

def statusOf (kernel : Kernel) (t : ThreadId) : Option Threads.ThreadStatus :=
  (kernel.threads t).map Thread.standing

/-- A thread that exists and has not called `Finish`. -/
def Unfinished (kernel : Kernel) (t : ThreadId) : Prop :=
  kernel.statusOf t ≠ none ∧ kernel.statusOf t ≠ some .terminated

/-- A `TimerInt` is pending. -/
def TimerPending (kernel : Kernel) : Prop :=
  ∃ next ∈ kernel.machine.pending.items,
    next.callOnInterrupt = .timer ∧ next.type = .timerInt

/-- What holds of the threads and of the timer wherever the processor is. -/
structure Books (kernel : Kernel) : Prop where
  ready : ∀ t ∈ kernel.readyList, kernel.statusOf t = some .ready
  distinct : kernel.readyList.Nodup
  waiting : Waiting kernel.semaphores kernel.statusOf
  doomed : ∀ t, kernel.toBeDestroyed = some t → kernel.statusOf t = some .terminated
  armed : kernel.timer.disable = false → kernel.TimerPending ∨ kernel.handling = some .timer
  ended : kernel.timer.disable = true → ∀ t, ¬kernel.Unfinished t

/-- The current thread runs until it finishes, and handlers execute only in `CheckIfDue`. -/
structure Sound (kernel : Kernel) : Prop where
  books : kernel.Books
  working : kernel.control = .thread ∨ kernel.control = .tick →
    kernel.statusOf kernel.currentThread = some .running
  leaving : kernel.control = .sleep true ∨ kernel.control = .idle true →
    kernel.statusOf kernel.currentThread = some .terminated
  inside : kernel.handling ≠ none →
    kernel.machine.interrupt.inHandler = true
    ∧ (kernel.control = .tick ∨ kernel.control = .idle false ∨ kernel.control = .idle true)
  /-- Whoever goes to sleep leaves a thread that is ready, or none that has not finished. -/
  rested : ∀ finishing, kernel.control = .sleep finishing →
    kernel.readyList ≠ [] ∨ ∀ t, ¬kernel.Unfinished t
  idled : ∀ finishing, kernel.control = .idle finishing → kernel.timer.disable = true

/-- The current thread runs its own code, or goes on in a call. -/
structure Working (kernel : Kernel) : Prop where
  books : kernel.Books
  running : kernel.statusOf kernel.currentThread = some .running
  control : kernel.control = .thread
  outside : kernel.handling = none

/-- An operation within a step, which ends where it began. -/
structure Kept (kernel after : Kernel) : Prop where
  books : after.Books
  /-- A thread that runs or has finished does not change. -/
  own : kernel.statusOf kernel.currentThread ≠ some .waiting →
    after.statusOf kernel.currentThread = kernel.statusOf kernel.currentThread
  currentThread : after.currentThread = kernel.currentThread
  control : after.control = kernel.control
  handling : after.handling = kernel.handling
  timer : after.timer = kernel.timer

/-- Two states with the same threads and devices, in which no timer interrupt was lost. -/
structure Same (kernel after : Kernel) : Prop where
  threads : after.threads = kernel.threads
  readyList : after.readyList = kernel.readyList
  toBeDestroyed : after.toBeDestroyed = kernel.toBeDestroyed
  semaphores : after.semaphores = kernel.semaphores
  timer : after.timer = kernel.timer
  handling : after.handling = kernel.handling
  pending : kernel.TimerPending → after.TimerPending

variable {kernel middle after : Kernel} {t : ThreadId} {s : SemaphoreId}

theorem Unfinished.of_status {status : Threads.ThreadStatus}
    (found : kernel.statusOf t = some status) (busy : status ≠ .terminated)
    : kernel.Unfinished t := by
  refine ⟨by simp [found], ?_⟩
  rw [found]
  exact fun ended => busy (Option.some.inj ended)

/-- Two operations that keep the books and the thread one after the other keep them. -/
theorem Kept.trans (first : Kept kernel middle) (second : Kept middle after)
    : Kept kernel after where
  books := second.books
  own awake := by
    have before := first.own awake
    have rest := second.own
    rw [first.currentThread, before] at rest
    exact rest awake
  currentThread := second.currentThread.trans first.currentThread
  control := second.control.trans first.control
  handling := second.handling.trans first.handling
  timer := second.timer.trans first.timer

/-- A thread that works goes on working after an operation that keeps it. -/
theorem Kept.working (kept : Kept kernel after) (working : kernel.Working) : after.Working where
  books := kept.books
  running := by
    rw [kept.currentThread, kept.own (by simp [working.running])]
    exact working.running
  control := kept.control.trans working.control
  outside := kept.handling.trans working.outside

/-- A kernel whose thread works is sound. -/
theorem Working.sound (working : kernel.Working) : kernel.Sound where
  books := working.books
  working _ := working.running
  leaving asleep := by simp [working.control] at asleep
  inside handling := absurd working.outside handling
  rested _ asleep := by simp [working.control] at asleep
  idled _ idles := by simp [working.control] at idles

/-- A sound kernel outside of Sleep and of handlers has a thread that works. -/
theorem Sound.resting (sound : kernel.Sound) (control : kernel.control = .thread)
    : kernel.Working where
  books := sound.books
  running := sound.working (.inl control)
  control := control
  outside := by
    by_contra handling
    have inside := (sound.inside handling).2
    simp [control] at inside

/-- The timer is enabled while a thread runs. -/
theorem Working.enabled (working : kernel.Working) : kernel.timer.disable = false := by
  by_contra disabled
  exact working.books.ended (by simpa using disabled) _ (.of_status working.running (by decide))

theorem Same.statusOf (same : Same kernel after) : after.statusOf = kernel.statusOf := by
  funext t
  rw [Kernel.statusOf, Kernel.statusOf, same.threads]

/-- The books look only at what `Same` keeps. -/
theorem Books.congr (books : kernel.Books) (same : Same kernel after) : after.Books where
  ready t member := by
    rw [same.statusOf]
    exact books.ready t (same.readyList ▸ member)
  distinct := same.readyList ▸ books.distinct
  waiting := by
    rw [same.semaphores, same.statusOf]
    exact books.waiting
  doomed t marked := by
    rw [same.statusOf]
    exact books.doomed t (same.toBeDestroyed ▸ marked)
  armed enabled := by
    rw [same.handling]
    exact (books.armed (same.timer ▸ enabled)).imp_left same.pending
  ended disabled t := by
    rw [Unfinished, same.statusOf]
    exact books.ended (same.timer ▸ disabled) t

theorem Same.kept (same : Same kernel after) (books : kernel.Books)
    (currentThread : after.currentThread = kernel.currentThread)
    (control : after.control = kernel.control)
    : Kept kernel after :=
  ⟨books.congr same, fun _ => by rw [same.statusOf], currentThread, control, same.handling,
    same.timer⟩

/-- An operation that leaves the pending interrupts alone. -/
theorem Same.of_pending (threads : after.threads = kernel.threads)
    (readyList : after.readyList = kernel.readyList)
    (toBeDestroyed : after.toBeDestroyed = kernel.toBeDestroyed)
    (semaphores : after.semaphores = kernel.semaphores) (timer : after.timer = kernel.timer)
    (handling : after.handling = kernel.handling)
    (pending : after.machine.pending = kernel.machine.pending)
    : Same kernel after :=
  ⟨threads, readyList, toBeDestroyed, semaphores, timer, handling, fun held => by
    rwa [TimerPending, pending]⟩

/-- The status of one thread changes, and it does not finish. -/
theorem Books.update {status : Option Threads.ThreadStatus} (books : kernel.Books)
    (changes : after.statusOf = Function.update kernel.statusOf t status)
    (lives
      : status ≠ none ∧ status ≠ some .terminated →
        kernel.timer.disable = false ∨ kernel.Unfinished t)
    (ready : ∀ u ∈ after.readyList, after.statusOf u = some .ready)
    (distinct : after.readyList.Nodup)
    (waiting : Waiting after.semaphores after.statusOf)
    (doomed : ∀ u, after.toBeDestroyed = some u → after.statusOf u = some .terminated)
    (timer : after.timer = kernel.timer) (handling : after.handling = kernel.handling)
    (pending : after.machine.pending = kernel.machine.pending)
    : after.Books where
  ready := ready
  distinct := distinct
  waiting := waiting
  doomed := doomed
  armed enabled := by
    rw [TimerPending, handling, pending]
    exact books.armed (timer ▸ enabled)
  ended disabled u unfinished := by
    rw [timer] at disabled
    rw [Unfinished, changes] at unfinished
    by_cases same : u = t
    · rw [same, Function.update_self] at unfinished
      rcases lives unfinished with enabled | alive
      · simp [disabled] at enabled
      · exact books.ended disabled t alive
    · rw [Function.update_of_ne same] at unfinished
      exact books.ended disabled u unfinished

-----------------------------------------------------------------------------------------
-- Interrupts
-----------------------------------------------------------------------------------------

/-- A tick leaves the pending interrupts, by cases on the mode. -/
theorem pending_of_tick {machine ticked : Simulation Device Unit}
    (returned : machine.tick = .ok ticked)
    : ticked.pending = machine.pending := by
  unfold Simulation.tick at returned
  split at returned
  all_goals
    obtain ⟨_, _, rest⟩ := of_bind_ok returned
    obtain rfl := Except.ok.inj rest
    rfl

theorem of_oneTick (ticked : kernel.oneTick = .ok after)
    : Same kernel after ∧ after.currentThread = kernel.currentThread ∧ after.control = .tick := by
  obtain ⟨machine, advanced, rest⟩ := of_bind_ok ticked
  obtain rfl := Except.ok.inj rest
  have pending := pending_of_tick advanced
  exact ⟨.of_pending rfl rfl rfl rfl rfl rfl pending, rfl, rfl⟩

/-- Interrupts that are turned on outside of a handler may come at once. -/
theorem of_setLevel {now : IntStatus} (set : kernel.setLevel now = .ok after)
    : Same kernel after
      ∧ after.currentThread = kernel.currentThread
      ∧ (after.control = kernel.control
        ∨ after.control = .tick ∧ kernel.machine.interrupt.inHandler = false) := by
  obtain ⟨_, allowed, rest⟩ := of_bind_ok set
  have lowered : Same kernel { kernel with machine := kernel.machine.changeLevel now } :=
    .of_pending rfl rfl rfl rfl rfl rfl rfl
  dsimp only at rest
  split at rest
  · rename_i turned
    obtain ⟨same, current, control⟩ := of_oneTick rest
    have outside := (of_require_ok allowed).resolve_left (by simp [turned.1])
    refine ⟨?_, current, .inr ⟨control, outside⟩⟩
    exact ⟨same.threads, same.readyList, same.toBeDestroyed, same.semaphores, same.timer,
      same.handling, same.pending⟩
  · obtain rfl := Except.ok.inj rest
    exact ⟨lowered, rfl, .inl rfl⟩

theorem setLevel_off (set : kernel.setLevel .intOff = .ok after)
    : after = { kernel with machine := kernel.machine.changeLevel .intOff } := by
  obtain ⟨_, _, rest⟩ := of_bind_ok set
  exact (Except.ok.inj rest).symm

theorem kept_off (books : kernel.Books)
    : Kept kernel { kernel with machine := kernel.machine.changeLevel .intOff } := by
  have same : Same kernel { kernel with machine := kernel.machine.changeLevel .intOff } :=
    .of_pending rfl rfl rfl rfl rfl rfl rfl
  exact same.kept books rfl rfl

/-- The running thread may be interrupted. -/
theorem Working.sound_tick (working : kernel.Working) (same : Same kernel after)
    (current : after.currentThread = kernel.currentThread) (control : after.control = .tick)
    : after.Sound where
  books := working.books.congr same
  working _ := by
    rw [current, same.statusOf]
    exact working.running
  leaving asleep := by simp [control] at asleep
  inside handling := absurd (same.handling.trans working.outside) handling
  rested _ asleep := by simp [control] at asleep
  idled _ idles := by simp [control] at idles

theorem sound_setLevel {now : IntStatus} (working : kernel.Working)
    (set : kernel.setLevel now = .ok after)
    : after.Sound := by
  obtain ⟨same, current, stays | ⟨ticks, _⟩⟩ := of_setLevel set
  · exact ((same.kept working.books current stays).working working).sound
  · exact working.sound_tick same current ticks

/-- A handler does not turn interrupts on. -/
theorem kept_setLevel_inHandler {now : IntStatus} (books : kernel.Books)
    (inHandler : kernel.machine.interrupt.inHandler = true)
    (set : kernel.setLevel now = .ok after)
    : Kept kernel after := by
  obtain ⟨same, current, stays | ⟨_, outside⟩⟩ := of_setLevel set
  · exact same.kept books current stays
  · simp [inHandler] at outside

/-- Nothing leaves the list when an interrupt is scheduled. -/
theorem of_schedule {toCall : Device} {fromNow : Int} {type : IntType}
    (scheduled : kernel.schedule toCall fromNow type = .ok after)
    : Same kernel after
      ∧ after.currentThread = kernel.currentThread
      ∧ after.control = kernel.control
      ∧ (toCall = .timer → type = .timerInt → after.TimerPending) := by
  obtain ⟨machine, inserted, rest⟩ := of_bind_ok scheduled
  obtain rfl := Except.ok.inj rest
  obtain ⟨_, rfl⟩ := Simulation.of_schedule inserted
  have members (next : PendingInterrupt Device) :=
    @List.Perm.mem_iff _ next _ _
      (SortedList.inserted_perm (kernel.machine.newInterrupt toCall
        (kernel.machine.totalTicks + fromNow) type) kernel.machine.pending)
  refine ⟨⟨rfl, rfl, rfl, rfl, rfl, rfl, ?_⟩, rfl, rfl, ?_⟩
  · rintro ⟨next, member, kind⟩
    exact ⟨next, (members next).mpr (List.mem_cons_of_mem _ member), kind⟩
  · intro device kind
    exact ⟨_, (members _).mpr (List.mem_cons_self ..), device, kind⟩

theorem kept_schedule {toCall : Device} {fromNow : Int} {type : IntType}
    (books : kernel.Books) (scheduled : kernel.schedule toCall fromNow type = .ok after)
    : Kept kernel after := by
  obtain ⟨same, current, control, _⟩ := of_schedule scheduled
  exact same.kept books current control

/-- Calls come and go beside the books. -/
theorem kept_calls (books : kernel.Books) (calls : ThreadId → List Frame)
    : Kept kernel { kernel with calls } := by
  have same : Same kernel { kernel with calls } := .of_pending rfl rfl rfl rfl rfl rfl rfl
  exact same.kept books rfl rfl

theorem kept_push (books : kernel.Books) (t : ThreadId) (frame : Frame)
    : Kept kernel (kernel.push t frame) :=
  kept_calls books _

theorem kept_pop (books : kernel.Books) : Kept kernel kernel.pop :=
  kept_calls books _

-----------------------------------------------------------------------------------------
-- Statuses
-----------------------------------------------------------------------------------------

/-- A change of one thread is a change of one status, by cases on the thread asked about. -/
theorem statusOf_update {entry : Option Thread}
    (threads : after.threads = Function.update kernel.threads t entry)
    : after.statusOf = Function.update kernel.statusOf t (entry.map Thread.standing) := by
  funext other
  rw [statusOf, threads]
  by_cases same : other = t
  · rw [same, Function.update_self, Function.update_self]
  · rw [Function.update_of_ne same, Function.update_of_ne same]
    rfl

/-- A thread that is looked up is there. -/
theorem of_lookup {thread : Thread} (found : kernel.lookup t = .ok thread)
    : kernel.threads t = some thread := by
  unfold lookup at found
  split at found
  · rename_i there
    rw [there, Except.ok.inj found]
  · exact nomatch found

/-- A status is set for a thread that has not finished, or does not show. -/
theorem of_setStatus {status : ThreadStatus} (set : kernel.setStatus t status = .ok after)
    : ∃ threads,
        after = { kernel with threads }
        ∧ (kernel.statusOf t ≠ some .terminated →
          after.statusOf = Function.update kernel.statusOf t (some status.standing))
        ∧ (kernel.statusOf t = some .terminated → after.statusOf = kernel.statusOf) := by
  obtain ⟨thread, looked, rest⟩ := of_bind_ok set
  have found := of_lookup looked
  have same := (Except.ok.inj rest).symm
  have before : kernel.statusOf t = some thread.standing := by rw [statusOf, found]; rfl
  have changes := @statusOf_update kernel after t (some { thread with status }) (by rw [same])
  refine ⟨_, same, fun live => ?_, fun ended => ?_⟩
  · rw [changes]
    cases finished : thread.finished with
    | false => rfl
    | true => simp [before, Thread.standing, finished] at live
  · rw [changes]
    cases finished : thread.finished with
    | false =>
        rw [before, Thread.standing, finished] at ended
        cases own : thread.status <;> simp [own, ThreadStatus.standing] at ended
    | true =>
        rw [show Option.map Thread.standing (some { thread with status, finished := true })
          = kernel.statusOf t by rw [ended]; rfl]
        exact Function.update_eq_self t kernel.statusOf

/-- A thread that has not finished becomes ready, unless it is in the list. -/
theorem of_readyToRun (live : kernel.Unfinished t) (readied : kernel.readyToRun t = .ok after)
    : ∃ threads,
        after = { kernel with threads, readyList := kernel.readyList ++ [t] }
        ∧ after.statusOf = Function.update kernel.statusOf t (some .ready)
        ∧ t ∉ kernel.readyList := by
  obtain ⟨_, _, rest⟩ := of_bind_ok readied
  obtain ⟨ready, set, rest⟩ := of_bind_ok rest
  obtain ⟨_, absent, rest⟩ := of_bind_ok rest
  obtain ⟨threads, rfl, changes, _⟩ := of_setStatus set
  obtain rfl := Except.ok.inj rest
  exact ⟨threads, rfl, changes live.2, of_require_ok absent⟩

/-- The books when the thread that becomes ready is in no queue. -/
theorem books_readied (books : kernel.Books) (live : kernel.Unfinished t)
    (waiting
      : Waiting kernel.semaphores (Function.update kernel.statusOf t (some .ready)))
    (readied : kernel.readyToRun t = .ok after)
    : after.Books := by
  obtain ⟨threads, rfl, changes, absent⟩ := of_readyToRun live readied
  refine books.update changes (fun _ => .inr live) (fun u member => ?_) ?_ ?_ (fun u marked => ?_)
    rfl rfl rfl
  · rw [changes]
    rcases List.mem_append.mp member with before | own
    · by_cases same : u = t
      · rw [same, Function.update_self]
      · rw [Function.update_of_ne same]
        exact books.ready u before
    · rw [List.mem_singleton.mp own, Function.update_self]
  · exact List.nodup_append.mpr ⟨books.distinct, List.nodup_singleton t,
      fun a first b second same =>
        absent (List.mem_singleton.mp second ▸ same ▸ first)⟩
  · rw [changes]
    exact waiting
  · have ended := books.doomed u marked
    rw [changes, Function.update_of_ne]
    · exact ended
    · rintro rfl
      exact live.2 ended

/-- The ready list is empty, or its first thread is taken off. -/
theorem of_findNextToRun {found : Option ThreadId}
    (searched : kernel.findNextToRun = .ok (found, after))
    : (kernel.readyList = [] ∧ found = none ∧ after = kernel)
      ∨ ∃ t readyList,
          kernel.readyList = t :: readyList
          ∧ found = some t
          ∧ after = { kernel with readyList } := by
  obtain ⟨_, _, rest⟩ := of_bind_ok searched
  cases ready : kernel.readyList with
  | nil =>
      rw [ready] at rest
      obtain ⟨rfl, rfl⟩ := Prod.mk.inj (Except.ok.inj rest)
      exact .inl ⟨rfl, rfl, rfl⟩
  | cons t readyList =>
      rw [ready] at rest
      obtain ⟨rfl, rfl⟩ := Prod.mk.inj (Except.ok.inj rest)
      exact .inr ⟨t, readyList, rfl, rfl, rfl⟩

/-- The first thread leaves the list. -/
theorem kept_dequeue {readyList : List ThreadId} (books : kernel.Books)
    (parts : kernel.readyList = t :: readyList)
    : Kept kernel { kernel with readyList } ∧ kernel.statusOf t = some .ready ∧ t ∉ readyList := by
  have distinct := List.nodup_cons.mp (parts ▸ books.distinct)
  refine ⟨⟨⟨fun u member => books.ready u ?_, distinct.2, books.waiting, books.doomed,
    books.armed, books.ended⟩, fun _ => rfl, rfl, rfl, rfl, rfl⟩, books.ready t ?_, distinct.1⟩
  · rw [parts]
    exact List.mem_cons_of_mem _ member
  · rw [parts]
    exact List.mem_cons_self ..

/-- SWITCH goes over to a thread that was ready. -/
theorem sound_run {finishing : Bool} (books : kernel.Books)
    (ready : kernel.statusOf t = some .ready) (absent : t ∉ kernel.readyList)
    (leaving : finishing = true → kernel.statusOf kernel.currentThread = some .terminated)
    (outside : kernel.handling = none) (switched : kernel.run t finishing = .ok after)
    : after.Sound := by
  obtain ⟨_, _, rest⟩ := of_bind_ok switched
  obtain ⟨_, _, rest⟩ := of_bind_ok rest
  dsimp only at rest
  obtain ⟨dispatched, set, rest⟩ := of_bind_ok rest
  obtain ⟨threads, rfl, changes, _⟩ := of_setStatus set
  obtain rfl := Except.ok.inj rest
  have changed := changes (by
    change kernel.statusOf t ≠ _
    simp [ready])
  have others {u : ThreadId} (other : u ≠ t) : _ = kernel.statusOf u :=
    (congrFun changed u).trans (Function.update_of_ne other _ _)
  refine Working.sound ⟨@Books.update kernel _ t _ books changed
    (fun _ => .inr (.of_status ready (by decide))) (fun u member => ?_) books.distinct ?_
    (fun u marked => ?_) rfl rfl rfl, (congrFun changed t).trans (Function.update_self ..), rfl,
    outside⟩
  · refine (others ?_).trans (books.ready u member)
    rintro rfl
    exact absent member
  · exact changed ▸ books.waiting.update (by simp [ready])
  · have ended : kernel.statusOf u = some .terminated := by
      cases finishing with
      | false => exact books.doomed u marked
      | true =>
          obtain rfl := Option.some.inj marked
          exact leaving rfl
    refine (others ?_).trans ended
    rintro rfl
    simp [ready] at ended

/-- The thread that is deleted has finished. -/
theorem working_checkToBeDestroyed (working : kernel.Working)
    (checked : kernel.checkToBeDestroyed = .ok after)
    : after.Working := by
  have books := working.books
  cases marked : kernel.toBeDestroyed with
  | none =>
      simp only [checkToBeDestroyed, marked] at checked
      exact Except.ok.inj checked ▸ working
  | some t =>
      simp only [checkToBeDestroyed, marked] at checked
      obtain ⟨_, _, rest⟩ := of_bind_ok checked
      obtain ⟨_, _, rest⟩ := of_bind_ok rest
      have same := (Except.ok.inj rest).symm
      have ended := books.doomed t marked
      have changes := @statusOf_update kernel after t none (by rw [same])
      have others {u : ThreadId} {status : Threads.ThreadStatus}
          (found : kernel.statusOf u = some status) (busy : status ≠ .terminated)
          : after.statusOf u = some status := by
        rw [changes, Function.update_of_ne]
        · exact found
        · rintro rfl
          exact busy (Option.some.inj (found.symm.trans ended))
      subst same
      exact ⟨books.update changes (fun live => absurd rfl live.1)
        (fun u member => others (books.ready u member) (by decide)) books.distinct
        (books.waiting.congr (fun u waits => others waits (by decide))) nofun rfl rfl rfl,
        others working.running (by decide), working.control, working.outside⟩

end Kernel

end Nachos.Threads.Mp4
