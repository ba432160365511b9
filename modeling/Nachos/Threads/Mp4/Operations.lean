import Nachos.Threads.Mp4.Books

/-! What the calls of threads, the handlers of devices and the loops of the fourth kernel keep.
-/

namespace Nachos.Threads.Mp4

open Machine Outcome

namespace Kernel

variable {kernel middle after : Kernel} {t : ThreadId} {s : SemaphoreId}

-----------------------------------------------------------------------------------------
-- Semaphores
-----------------------------------------------------------------------------------------

/-- Whether `P` has to wait for a semaphore. -/
def wouldWait (s : SemaphoreId) (kernel : Kernel) : Bool :=
  (kernel.semaphores s).any (fun semaphore => semaphore.value = 0)

/-- A semaphore that is looked up is there. -/
theorem of_findSemaphore {semaphore : Semaphore} (found : kernel.findSemaphore s = .ok semaphore)
    : kernel.semaphores s = some semaphore := by
  unfold findSemaphore at found
  split at found
  · rename_i there
    rw [there, Except.ok.inj found]
  · exact nomatch found

/-- A semaphore may change while nobody enters its queue. -/
theorem kept_store {semaphore : Semaphore} (books : kernel.Books)
    (sublist : semaphore.queue.Sublist ((kernel.semaphores s).elim [] Semaphore.queue))
    : Kept kernel (kernel.store s semaphore) where
  books :=
    {
      ready := books.ready
      distinct := books.distinct
      waiting := books.waiting.store sublist
      doomed := books.doomed
      armed := books.armed
      ended := books.ended
    }
  own _ := rfl
  currentThread := rfl
  control := rfl
  handling := rfl
  timer := rfl

/-- `P` takes the semaphore, or the thread goes to sleep in its queue. -/
theorem sound_wait {oldLevel : IntStatus} (working : kernel.Working)
    (leaves : kernel.wouldWait s = true → kernel.readyList ≠ [])
    (waited : kernel.wait s oldLevel = .ok after)
    : after.Sound := by
  have books := working.books
  obtain ⟨semaphore, looked, rest⟩ := of_bind_ok waited
  have found := of_findSemaphore looked
  split at rest
  · rename_i zero
    obtain ⟨_, _, slept⟩ := of_bind_ok rest
    obtain ⟨_, _, rest⟩ := of_bind_ok slept
    obtain ⟨blocked, set, rest⟩ := of_bind_ok rest
    obtain ⟨threads, rfl, changes, _⟩ := of_setStatus set
    obtain rfl := Except.ok.inj rest
    have running := working.running
    have changed := changes (by
      change kernel.statusOf kernel.currentThread ≠ _
      simp [running])
    have waiting :=
      (@Waiting.append _ _ _ _ kernel.currentThread books.waiting found (by simp [running])).2
    have others {u : ThreadId} {status : Threads.ThreadStatus}
        (own : kernel.statusOf u = some status) (busy : status ≠ .running) :=
      (congrFun changed u).trans ((Function.update_of_ne (by
        rintro rfl
        exact busy (Option.some.inj (own.symm.trans running))) _ _).trans own)
    refine ⟨@Books.update kernel _ kernel.currentThread _ books changed
      (fun _ => .inr (.of_status running (by decide)))
      (fun u member => others (books.ready u member) (by decide)) books.distinct
      (changed ▸ waiting) (fun u marked => others (books.doomed u marked) (by decide))
      rfl rfl rfl, ?_, ?_, fun handling => absurd working.outside handling, fun _ _ => .inl ?_,
      ?_⟩
    · rintro (awake | awake) <;> cases awake
    · rintro (asleep | asleep) <;> cases asleep
    · exact leaves (by simp [wouldWait, found, zero])
    · rintro _ ⟨⟩
  · have kept := @kept_store _ s { semaphore with value := semaphore.value - 1 } books
      (by rw [found]; exact .refl _)
    exact sound_setLevel (kept.working working) rest

/-- `V` wakes up at most one thread before it restores the interrupt level. -/
theorem of_v (books : kernel.Books) (signalled : kernel.v s = .ok after)
    : ∃ middle,
        Kept kernel middle
        ∧ middle.machine.interrupt.inHandler = kernel.machine.interrupt.inHandler
        ∧ middle.setLevel kernel.machine.interrupt.level = .ok after := by
  obtain ⟨off, lowered, rest⟩ := of_bind_ok signalled
  obtain ⟨semaphore, looked, rest⟩ := of_bind_ok rest
  obtain rfl := setLevel_off lowered
  have before := kept_off books
  have found : kernel.semaphores s = some semaphore := of_findSemaphore looked
  cases queue : semaphore.queue with
  | nil =>
      simp only [queue] at rest
      exact ⟨_, before.trans (kept_store before.books (List.nil_sublist _)), rfl, rest⟩
  | cons t others =>
      simp only [queue] at rest
      obtain ⟨ready, readied, set⟩ := of_bind_ok rest
      have shorter : others.Sublist ((kernel.semaphores s).elim [] Semaphore.queue) := by
        rw [found, Option.elim_some, queue]
        exact List.sublist_cons_self ..
      have taken := @kept_store _ s { semaphore with queue := others } before.books shorter
      obtain ⟨waits, waiting⟩ := @Waiting.removeFront _ _ _ _ _ { semaphore with queue := others }
        (some .ready) books.waiting found queue
      have live : Unfinished
          (store s { semaphore with queue := others }
            { kernel with machine := kernel.machine.changeLevel .intOff }) t :=
        .of_status waits (by decide)
      have booked := books_readied taken.books live waiting readied
      obtain ⟨threads, rfl, changes, _⟩ := of_readyToRun live readied
      have woken := @kept_store _ s { value := semaphore.value + 1, queue := others } booked (by
        change others.Sublist ((Function.update kernel.semaphores s _ s).elim [] _)
        rw [Function.update_self]
        exact .refl _)
      refine ⟨_, ⟨woken.books, fun awake => ?_, rfl, rfl, rfl, rfl⟩, rfl, set⟩
      refine (congrFun changes _).trans (Function.update_of_ne ?_ _ _)
      rintro rfl
      exact awake waits

theorem sound_v (working : kernel.Working) (signalled : kernel.v s = .ok after)
    : after.Sound := by
  obtain ⟨middle, kept, _, set⟩ := of_v working.books signalled
  exact sound_setLevel (kept.working working) set

/-- In a handler `V` leaves interrupts off. -/
theorem kept_v_inHandler (books : kernel.Books)
    (inHandler : kernel.machine.interrupt.inHandler = true) (signalled : kernel.v s = .ok after)
    : Kept kernel after := by
  obtain ⟨middle, kept, same, set⟩ := of_v books signalled
  exact kept.trans (kept_setLevel_inHandler kept.books (same.trans inHandler) set)

-----------------------------------------------------------------------------------------
-- Threads
-----------------------------------------------------------------------------------------

/-- The running thread goes to the end of the list, and the first one runs. -/
theorem sound_yield (working : kernel.Working) (yielded : kernel.yield = .ok after)
    : after.Sound := by
  obtain ⟨off, lowered, rest⟩ := of_bind_ok yielded
  obtain rfl := setLevel_off lowered
  have current := (kept_off working.books).working working
  obtain ⟨⟨nextThread, found⟩, searched, goesOn⟩ := of_bind_ok rest
  dsimp only at goesOn
  rcases of_findNextToRun searched with ⟨_, rfl, rfl⟩ | ⟨t, readyList, parts, rfl, rfl⟩
  · exact sound_setLevel current goesOn
  · obtain ⟨taken, ready, absent⟩ := kept_dequeue current.books parts
    obtain ⟨readied, queued, switched⟩ := of_bind_ok goesOn
    have books := taken.books
    have running : kernel.statusOf kernel.currentThread = some .running := working.running
    have live := @Unfinished.of_status
      {
        kernel with
        machine := kernel.machine.changeLevel .intOff
        readyList
      } kernel.currentThread _ running (by decide)
    have booked := books_readied books live
      (books.waiting.update (by
        change kernel.statusOf kernel.currentThread ≠ _
        simp [running])) queued
    obtain ⟨threads, rfl, changes, _⟩ := of_readyToRun live queued
    have apart : t ≠ kernel.currentThread := by
      rintro rfl
      exact nomatch ready.symm.trans running
    refine @sound_run _ after t false (kept_push booked _ _).books ?_ ?_ nofun working.outside
      switched
    · exact (congrFun changes t).trans ((Function.update_of_ne apart _ _).trans ready)
    · change t ∉ readyList ++ [kernel.currentThread]
      simp [absent, apart]

/-- A new thread is in no place of the kernel. -/
theorem sound_construct (working : kernel.Working) (free : kernel.threads t = none)
    : (kernel.construct t).Sound := by
  have books := working.books
  have changes : (kernel.construct t).statusOf = _ := statusOf_update rfl
  have others {u : ThreadId} {status : Threads.ThreadStatus}
      (found : kernel.statusOf u = some status)
      : (kernel.construct t).statusOf u = some status := by
    rw [changes, Function.update_of_ne]
    · exact found
    · rintro rfl
      simp [statusOf, free] at found
  have made : (kernel.construct t).Working :=
    ⟨books.update changes (fun _ => .inl working.enabled)
      (fun u member => others (books.ready u member)) books.distinct
      (books.waiting.congr (fun u waits => others waits))
      (fun u marked => others (books.doomed u marked)) rfl rfl rfl,
      others working.running, working.control, working.outside⟩
  exact made.sound

/-- A thread that was just made becomes ready. -/
theorem sound_fork (working : kernel.Working)
    (isNew : kernel.threads t = some { status := .justCreated, finished := false })
    (forked : kernel.fork t = .ok after)
    : after.Sound := by
  obtain ⟨off, lowered, rest⟩ := of_bind_ok forked
  obtain ⟨ready, readied, set⟩ := of_bind_ok rest
  obtain rfl := setLevel_off lowered
  have allocated := kept_calls working.books (Function.update kernel.calls t [.begin])
  have current := ((allocated.trans (kept_off allocated.books)).working working)
  have isNew : kernel.statusOf t = some .new := by
    rw [statusOf, isNew]
    rfl
  have live := @Unfinished.of_status
    {
      kernel with
      machine := kernel.machine.changeLevel .intOff
      calls := Function.update kernel.calls t [.begin]
    } t _ isNew (by decide)
  have booked := books_readied current.books live
    (current.books.waiting.update (by
      change kernel.statusOf t ≠ _
      simp [isNew])) readied
  obtain ⟨threads, rfl, changes, _⟩ := of_readyToRun live readied
  refine sound_setLevel ⟨booked, ?_, working.control, working.outside⟩ set
  refine (congrFun changes kernel.currentThread).trans ((Function.update_of_ne ?_ _ _).trans
    working.running)
  rintro rfl
  cases isNew.symm.trans working.running

/-- A thread that finishes is in no list and in no queue. -/
theorem sound_finish (working : kernel.Working)
    (leaves
      : kernel.readyList ≠ [] ∨ ∀ t, t ≠ kernel.currentThread → ¬kernel.Unfinished t)
    (finished : kernel.finish = .ok after)
    : after.Sound := by
  obtain ⟨off, lowered, rest⟩ := of_bind_ok finished
  obtain rfl := setLevel_off lowered
  obtain ⟨thread, looked, slept⟩ := of_bind_ok rest
  have books := working.books
  have running := working.running
  have ended := @statusOf_update kernel
    (markFinished thread { kernel with machine := kernel.machine.changeLevel .intOff })
    kernel.currentThread _ rfl
  obtain ⟨_, _, rest⟩ := of_bind_ok slept
  obtain ⟨blocked, set, rest⟩ := of_bind_ok rest
  obtain ⟨threads, rfl, _, stays⟩ := of_setStatus set
  obtain rfl := Except.ok.inj rest
  have own : (markFinished thread { kernel with machine := kernel.machine.changeLevel .intOff }
      ).statusOf kernel.currentThread = some .terminated :=
    (congrFun ended _).trans (Function.update_self ..)
  have changes := (stays own).trans ended
  have others {u : ThreadId} {status : Threads.ThreadStatus}
      (found : kernel.statusOf u = some status) (busy : status ≠ .running) :=
    (congrFun changes u).trans ((Function.update_of_ne (by
      rintro rfl
      exact busy (Option.some.inj (found.symm.trans running))) _ _).trans found)
  refine ⟨@Books.update kernel _ kernel.currentThread _ books changes
    (fun live => absurd rfl live.2)
    (fun u member => others (books.ready u member) (by decide)) books.distinct
    (changes ▸ books.waiting.update (by simp [running]))
    (fun u marked => others (books.doomed u marked) (by decide)) rfl rfl rfl, ?_,
    fun _ => (congrFun changes _).trans (Function.update_self ..),
    fun handling => absurd working.outside handling,
    fun _ _ => leaves.imp_right (fun none t live => ?_), ?_⟩
  · rintro (awake | awake) <;> cases awake
  · by_cases same : t = kernel.currentThread
    · subst same
      exact live.2 ((congrFun changes _).trans (Function.update_self ..))
    · have kept := (congrFun changes t).trans (Function.update_of_ne same _ _)
      exact none t same ⟨fun gone => live.1 (kept.trans gone), fun done => live.2 (kept.trans done)⟩
  · rintro _ ⟨⟩

end Kernel

end Nachos.Threads.Mp4
