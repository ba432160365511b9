import Nachos.Threads.ConditionWaiters

/-! What every statement of a thread that uses a `SynchList` keeps, one lemma for each. -/

namespace Nachos.SynchList
open Outcome
open SynchDevice (Semaphore)

variable {ι α : Type} [DecidableEq ι] {current : Option ι} {state after : State ι α} {t : ι}
  {progress : Progress α}

/-- What every run keeps. -/
structure Holds (current : Option ι) (state : State ι α) : Prop where
  mutex : Mutex current state
  served : Served current state
  waiters : Waiters current state
  covered : Covered current state

-----------------------------------------------------------------------------------------
-- Statements under the lock
-----------------------------------------------------------------------------------------

omit [DecidableEq ι] in
theorem pending_some {waitQueue : List Pointer} (own : after.threads t = progress)
    (queue : after.waitQueue = waitQueue)
    : pending (some t) after
      = progress.signals.toList ++ waitQueue ++ progress.enqueues.toList := by
  rw [← own, ← queue]
  rfl

/-- The thread that has the lock uses the list, the holder or the queue of semaphores. -/
theorem Holds.move (holds : Holds current state) (has : (state.threads t).hasLock = true)
    {list : List α} {lockHolder : Option ι} {waitQueue : List Pointer}
    (keeps : progress.hasLock = true)
    (holder : progress.isHolder = true → lockHolder = some t)
    (finish : progress.finish list = (state.threads t).finish state.list)
    (knows : progress.Knows list)
    (waiter : progress.waiter = (state.threads t).waiter)
    (waits : progress.waits = (state.threads t).waits)
    (pending
      : progress.signals.toList ++ waitQueue ++ progress.enqueues.toList
        = (state.threads t).signals.toList ++ state.waitQueue
            ++ (state.threads t).enqueues.toList)
    (covers
      : list = []
        ∨ (waitQueue ≠ []
            → state.waitQueue ≠ []
              ∧ list.length + (state.threads t).share ≤ state.list.length + progress.share))
    : Holds current
        {
          state with
          list
          lockHolder
          waitQueue
          threads := Function.update state.threads t progress
        } := by
  obtain rfl := (holds.mutex.only t).mp has
  have inP : progress.inP = (state.threads t).inP := by
    rw [Progress.not_inP_of_hasLock has, Progress.not_inP_of_hasLock keeps]
  have own : Function.update state.threads t progress t = progress := Function.update_self ..
  refine ⟨holds.mutex.move has keeps rfl rfl (fun _ => .inl rfl) holder,
    holds.served.move holds.mutex has rfl rfl rfl finish knows,
    holds.waiters.congr (view_update rfl _ waiter) (view_update rfl _ waits) (fun u _ => ?_) rfl ?_, ?_⟩
  · exact congrArg (state.asleep u && ·) (view_update rfl _ inP u)
  · rw [pending_some own rfl, pending_some rfl rfl]
    exact pending
  · rcases covers with empty | covers
    · exact .of_empty empty
    · refine holds.covered.keep (fun some => (covers some).1) (fun u coming => ?_)
        (fun some => ?_)
      · refine coming.congr (Function.update_of_ne ?_ ..) (fun _ _ => rfl)
        rintro rfl
        exact nomatch has.symm.trans coming.not_hasLock
      · have shares := (covers some).2
        change list.length + (state.threads t).share
          ≤ state.list.length + (Function.update state.threads t progress t).share
        rwa [own]

-----------------------------------------------------------------------------------------
-- Each statement under the lock
-----------------------------------------------------------------------------------------

/-- The end of Acquire keeps the invariant: the semaphore of the lock was given to this thread. -/
theorem Holds.acquired (holds : Holds current state) {entry : Entry α}
    (here : state.threads t = .acquired entry)
    : Holds current { state.goto t entry.next with lockHolder := some t } := by
  have same : entry.next.share = (Progress.acquired entry).share := by cases entry <;> rfl
  refine holds.move (by rw [here]; rfl) (hasLock_next entry) (fun _ => rfl) ?_ ?_ ?_ ?_ ?_
    (.inr (fun some => ⟨some, by rw [here, same]; exact Nat.le_refl _⟩))
  · rw [here]
    cases entry <;> rfl
  · cases entry <;> trivial
  · rw [here]
    cases entry <;> rfl
  · rw [here]
    cases entry <;> rfl
  · rw [here]
    cases entry <;> rfl

/-- An item that is appended keeps the invariant: the thread owes a signal for it. -/
theorem Holds.append (holds : Holds current state) {item : α}
    (here : state.threads t = .append item)
    : Holds current { state.goto t .signal with list := state.list ++ [item] } := by
  have holder := holds.mutex.holder t (by rw [here]; rfl)
  refine holds.move (by rw [here]; rfl) rfl (fun _ => holder) (by rw [here]; rfl) trivial
    (by rw [here]; rfl) (by rw [here]; rfl) (by rw [here]; rfl)
    (.inr (fun some => ⟨some, ?_⟩))
  rw [here, List.length_append]
  exact Nat.le_refl _

theorem Holds.signal_none (holds : Holds current state) (here : state.threads t = .signal)
    (none : state.waitQueue = [])
    : Holds current (state.goto t (.release .append)) := by
  have holder := holds.mutex.holder t (by rw [here]; rfl)
  exact holds.move (by rw [here]; rfl) rfl (fun _ => holder) (by rw [here]; rfl) trivial
    (by rw [here]; rfl) (by rw [here]; rfl) (by rw [here]; rfl)
    (.inr (fun some => absurd none some))

/-- A signal to the first waiter keeps the invariant: the waiter leaves the queue and is coming. -/
theorem Holds.signal_some (holds : Holds current state) (here : state.threads t = .signal)
    {waiter : Pointer} {rest : List Pointer} (some : state.waitQueue = waiter :: rest)
    : Holds current { state.goto t (.v waiter) with waitQueue := rest } := by
  have holder := holds.mutex.holder t (by rw [here]; rfl)
  refine holds.move (by rw [here]; rfl) rfl (fun _ => holder) (by rw [here]; rfl) trivial
    (by rw [here]; rfl) (by rw [here]; rfl) ?_ (.inr (fun _ => ⟨by simp [some], ?_⟩))
  · rw [here, some]
    rfl
  · rw [here]
    exact Nat.le_refl _

/-- The test of the loop keeps the invariant, by cases on whether the list is empty. -/
theorem Holds.test (holds : Holds current state) (here : state.threads t = .test)
    : Holds current (state.goto t (if state.list.isEmpty then .wait else .remove)) := by
  have holder := holds.mutex.holder t (by rw [here]; rfl)
  have has : (state.threads t).hasLock = true := by rw [here]; rfl
  cases list : state.list with
  | nil =>
      refine holds.move has rfl (fun _ => holder) ?_ list (by rw [here]; rfl) (by rw [here]; rfl)
        (by rw [here]; rfl) (.inl list)
      rw [here, list]
      rfl
  | cons first rest =>
      refine holds.move has rfl (fun _ => holder) (by rw [here]; rfl) ?_ (by rw [here]; rfl)
        (by rw [here]; rfl) (by rw [here]; rfl) (.inr (fun some => ⟨some, ?_⟩))
      · rw [list]
        exact List.cons_ne_nil first rest
      · rw [here]
        exact Nat.le_refl _

/-- To remove the front keeps the invariant: the removed item is the oldest one. -/
theorem Holds.remove (holds : Holds current state) (here : state.threads t = .remove)
    {item : α} {rest : List α} (list : state.list = item :: rest)
    : Holds current { state.goto t (.release (.removeFront item)) with list := rest } := by
  have holder := holds.mutex.holder t (by rw [here]; rfl)
  refine holds.move (by rw [here]; rfl) rfl (fun _ => holder) ?_ trivial (by rw [here]; rfl)
    (by rw [here]; rfl) (by rw [here]; rfl) (.inr (fun some => ⟨some, ?_⟩))
  · rw [here, list]
    rfl
  · rw [here, list]
    exact Nat.le_refl _

/-- The semaphore that a thread puts into the queue is not there yet. -/
theorem Holds.enqueue (holds : Holds current state) {waiter : Pointer}
    (here : state.threads t = .enqueue waiter)
    : waiter.address ∉ state.waitQueue.map Pointer.address
      ∧ Holds current
          {
            state.goto t (.release (.wait waiter)) with
            waitQueue := state.waitQueue ++ [waiter]
          } := by
  have holder := holds.mutex.holder t (by rw [here]; rfl)
  have has : (state.threads t).hasLock = true := by rw [here]; rfl
  have empty : state.list = [] := by
    have knows := holds.served.knows t
    rwa [here] at knows
  refine ⟨?_, holds.move has rfl (fun _ => holder) (by rw [here]; rfl) empty
    (by rw [here]; rfl) (by rw [here]; rfl) ?_ (.inl empty)⟩
  · have distinct := holds.waiters.distinct
    obtain rfl := (holds.mutex.only t).mp has
    rw [pending_some here rfl] at distinct
    change ((state.waitQueue ++ [waiter]).map Pointer.address).Nodup at distinct
    rw [List.map_append, List.nodup_append] at distinct
    exact fun member =>
      distinct.2.2 _ member _ (List.mem_map_of_mem (List.mem_singleton_self _)) rfl
  · rw [here]
    exact List.append_nil _

/-- The start of Release keeps the invariant: the holder gives the lock up. -/
theorem Holds.release (holds : Holds current state) {exit : Exit α}
    (here : state.threads t = .release exit)
    : Holds current { state.goto t (.released exit) with lockHolder := none } := by
  have knows := holds.served.knows t
  rw [here] at knows
  refine holds.move (by rw [here]; rfl) rfl nofun ?_ ?_ ?_ ?_ (by rw [here]; rfl)
    (.inr (fun some => ⟨some, by rw [here]; exact Nat.le_refl _⟩))
  · rw [here]
    cases exit <;> rfl
  · cases exit <;> exact knows
  · rw [here]
    cases exit <;> rfl
  · rw [here]
    cases exit <;> rfl

-----------------------------------------------------------------------------------------
-- Other threads
-----------------------------------------------------------------------------------------

omit [DecidableEq ι] in
theorem pending_of_other (others : ∀ u, current = some u → after.threads u = state.threads u)
    (waitQueue : after.waitQueue = state.waitQueue)
    : pending current after = pending current state := by
  cases current with
  | none => exact congrArg (fun queue => [] ++ queue ++ []) waitQueue
  | some u => rw [pending_some (others u rfl) waitQueue, pending_some rfl rfl]

omit [DecidableEq ι] in
theorem share_of_other (others : ∀ u, current = some u → after.threads u = state.threads u)
    : share current after = share current state := by
  cases current with
  | none => rfl
  | some u => exact congrArg Progress.share (others u rfl)

/-- The thread that has the lock is another one. -/
theorem Holds.others (holds : Holds current state) (has : (state.threads t).hasLock = false)
    (threads : after.threads = Function.update state.threads t progress) (u : ι)
    (holder : current = some u)
    : after.threads u = state.threads u := by
  rw [threads, Function.update_of_ne]
  rintro rfl
  exact nomatch has.symm.trans ((holds.mutex.only u).mpr holder)

omit [DecidableEq ι] in
/-- A semaphore of another thread has another address. -/
theorem Holds.apart (holds : Holds current state) {waiter other : Pointer} {u : ι}
    (own : (state.threads t).waiter = some waiter) (away : u ≠ t)
    (inP : state.threads u = .p other)
    : other.address ≠ waiter.address :=
  fun same => away (holds.waiters.apart u t other waiter (by rw [inP]; rfl) own same)

-----------------------------------------------------------------------------------------
-- Statements without the lock
-----------------------------------------------------------------------------------------

/-- A thread begins a call. -/
theorem Holds.begin (holds : Holds current state) (outside : state.threads t = .outside)
    {entry : Entry α} (call : (Progress.acquire entry).waiter = none)
    : Holds current (state.goto t (.acquire entry)) := by
  have has : (state.threads t).hasLock = false := by rw [outside]; rfl
  have others := holds.others has (rfl : (state.goto t (.acquire entry)).threads = _)
  have waits : (Progress.acquire entry).waits = none := rfl
  have inP : (Progress.acquire entry).inP = false := rfl
  refine ⟨holds.mutex.aside has rfl (by rw [outside]; rfl) rfl rfl rfl (fun _ _ => rfl)
      (fun asleep => ?_),
    holds.served.aside holds.mutex has rfl rfl rfl rfl rfl,
    holds.waiters.congr (view_update outside _ call) (view_update outside _ waits)
      (fun u _ => congrArg (state.asleep u && ·) (view_update outside _ inP u)) rfl
      (pending_of_other others rfl),
    holds.covered.keep id (fun u coming => ?_) (fun _ => ?_)⟩
  · rcases holds.mutex.resting t asleep with atLock | inP
    · exact nomatch outside ▸ atLock
    · exact nomatch outside ▸ inP
  · refine coming.congr (Function.update_of_ne ?_ ..) (fun _ _ => rfl)
    rintro rfl
    rcases coming with ⟨_, same⟩ | ⟨_, _, same, _⟩
    · exact nomatch outside.symm.trans same
    · exact nomatch outside.symm.trans same
  · rw [share_of_other others]
    exact Nat.le_refl _

/-- A thread tries to get through `P` of its semaphore. -/
theorem Holds.p (holds : Holds current state) {waiter : Pointer}
    (inP : state.threads t = .p waiter) (awake : state.asleep t = false)
    : ∃ value,
        state.read waiter = .ok { value, queue := [] }
        ∧ (value = 0
            → Holds current ((state.write waiter { value := 0, queue := [t] }).sleep t))
        ∧ (value ≠ 0
            → Holds current
                ((state.write waiter { value := value - 1, queue := [] }).goto t
                  (.acquire (.wait waiter)))) := by
  obtain ⟨value, found, member⟩ := holds.waiters.exists_of_p inP awake
  have has : (state.threads t).hasLock = false := by rw [inP]; rfl
  have own : (state.threads t).waiter = some waiter := by rw [inP]; rfl
  have away : (state.threads t).atLock = false := by rw [inP]; rfl
  have stays : state.threads = Function.update state.threads t (.p waiter) := by
    rw [← inP, Function.update_eq_self]
  refine ⟨value, read_of_found found, fun zero => ?_, fun some => ?_⟩
  · subst zero
    have others (u : ι) (_ : current = some u) : state.threads u = state.threads u := rfl
    refine ⟨holds.mutex.aside has rfl away stays rfl rfl
        (fun u other => Function.update_of_ne other ..) (fun _ => rfl),
      holds.served.aside holds.mutex has rfl stays rfl rfl rfl,
      holds.waiters.sleep inP (member.mpr rfl) rfl rfl rfl (pending_of_other others rfl),
      holds.covered.keep id (fun u coming => ?_) (fun _ => Nat.le_refl _)⟩
    have other : u ≠ t := by
      rintro rfl
      exact not_coming_of_zero inP found rfl coming
    exact coming.congr rfl
      (fun pointer same => Function.update_of_ne (holds.apart own other same) ..)
  · have others := holds.others has
      (rfl : ((state.write waiter { value := value - 1, queue := [] }).goto t
        (.acquire (.wait waiter))).threads = _)
    refine ⟨holds.mutex.aside has rfl away rfl rfl rfl (fun _ _ => rfl)
        (fun asleep => nomatch awake.symm.trans asleep),
      holds.served.aside holds.mutex has rfl rfl rfl rfl rfl,
      holds.waiters.pass inP (fun pending => some (member.mp pending)) rfl rfl rfl
        (pending_of_other others rfl),
      holds.covered.keep id (fun u coming => ?_) (fun _ => ?_)⟩
    · by_cases same : u = t
      · exact .inl ⟨waiter, same ▸ Function.update_self ..⟩
      · exact coming.congr (Function.update_of_ne same ..)
          (fun pointer inside => Function.update_of_ne (holds.apart own same inside) ..)
    · rw [share_of_other others]
      exact Nat.le_refl _

/-- A thread that finds the lock taken goes to sleep. -/
theorem Holds.sleep (holds : Holds current state) {entry : Entry α}
    (enters : state.threads t = .acquire entry) (awake : state.asleep t = false)
    (taken : state.lock.value = 0)
    : Holds current
        { state.sleep t with lock := { state.lock with queue := state.lock.queue ++ [t] } } := by
  have has : (state.threads t).hasLock = false := by rw [enters]; rfl
  have stays : state.threads = Function.update state.threads t (.acquire entry) := by
    rw [← enters, Function.update_eq_self]
  refine ⟨holds.mutex.sleep (by rw [enters]; rfl) awake taken rfl rfl rfl rfl,
    holds.served.aside holds.mutex has rfl stays rfl rfl rfl,
    holds.waiters.congr (fun _ => rfl) (fun _ => rfl) (fun u _ => ?_) rfl
      (pending_of_other (fun _ _ => rfl) rfl),
    holds.covered.keep id (fun u coming => coming.congr rfl (fun _ _ => rfl))
      (fun _ => Nat.le_refl _)⟩
  change (Function.update state.asleep t true u && (state.threads u).inP)
    = (state.asleep u && (state.threads u).inP)
  by_cases same : u = t
  · rw [same, enters]
    simp [Progress.inP]
  · rw [Function.update_of_ne same]

/-- A thread that finds the lock free takes it. -/
theorem Holds.pass (holds : Holds current state) {entry : Entry α}
    (enters : state.threads t = .acquire entry) (awake : state.asleep t = false)
    (free : state.lock.value ≠ 0)
    : Holds (some t)
        {
          state.goto t (.acquired entry) with
          lock := { state.lock with value := state.lock.value - 1 }
          turns := state.turns ++ [(t, entry)]
        } := by
  obtain ⟨mutex, served, waiters, covered⟩ := holds
  obtain ⟨rfl, taken⟩ := @Mutex.pass _ _ _ _ {
      state.goto t (.acquired entry) with
      lock := { state.lock with value := state.lock.value - 1 }
      turns := state.turns ++ [(t, entry)]
    } _ _ mutex (by rw [enters]; rfl) awake free entry rfl rfl rfl
  have own : Function.update state.threads t (.acquired entry) t = .acquired entry :=
    Function.update_self ..
  have inP : (Progress.acquired entry).inP = (Progress.acquire entry).inP := rfl
  refine ⟨taken, served.pass rfl rfl rfl rfl,
    waiters.congr (view_update enters _ (by cases entry <;> rfl))
      (view_update enters _ (by cases entry <;> rfl))
      (fun u _ => congrArg (state.asleep u && ·) (view_update enters _ inP u)) rfl ?_,
    covered.pass t (fun u away coming => ?_) rfl rfl (fun coming => ?_)⟩
  · rw [pending_some own rfl]
    rfl
  · exact coming.congr (Function.update_of_ne away ..) (fun _ _ => rfl)
  · change (Function.update state.threads t (.acquired entry) t).share = 1
    rw [own]
    rcases coming with ⟨_, same⟩ | ⟨_, _, same, _⟩
    · obtain rfl := Progress.acquire.inj (enters.symm.trans same)
      rfl
    · exact nomatch enters.symm.trans same

-----------------------------------------------------------------------------------------
-- Statements that wake up threads or change the heap
-----------------------------------------------------------------------------------------

/-- The thread that has the lock frees it. -/
theorem Holds.free (holds : Holds current state) {exit : Exit α}
    (releases : state.threads t = .released exit) (keeps : progress.hasLock = false)
    (atLock : progress.atLock = false)
    (waiter : progress.waiter = (state.threads t).waiter)
    (waits : progress.waits = (state.threads t).waits)
    (threads : after.threads = Function.update state.threads t progress)
    (lock : after.lock = state.lock.v)
    (asleep : after.asleep = (state.wake state.lock.queue.head?).asleep)
    (list : after.list = state.list) (waitQueue : after.waitQueue = state.waitQueue)
    (heap : after.heap = state.heap) (turns : after.turns = state.turns)
    (returned
      : after.returned
        = state.returned
            ++ (((state.threads t).finish state.list).1.toList.map (t, ·)))
    : Holds none after := by
  have has : (state.threads t).hasLock = true := by rw [releases]; rfl
  obtain rfl := (holds.mutex.only t).mp has
  refine ⟨holds.mutex.free_lock has keeps atLock threads lock asleep,
    holds.served.free holds.mutex releases keeps threads list turns returned,
    holds.waiters.congr (threads ▸ view_update rfl _ waiter) (threads ▸ view_update rfl _ waits)
      (fun u _ => ?_) heap ?_,
    holds.covered.keep (fun some => waitQueue ▸ some) (fun u coming => ?_) (fun _ => ?_)⟩
  · rw [State.rests, State.rests, asleep, State.wake_asleep]
    by_cases own : u = t
    · simp [own, holds.mutex.awake has]
    · rw [threads, Function.update_of_ne own]
      split
      · rename_i first
        have atLock := ((holds.mutex.queue u).mp (List.mem_of_mem_head? first)).2
        cases inP : (state.threads u).inP with
        | false => simp
        | true => cases (Progress.not_atLock_of_inP inP).symm.trans atLock
      · rfl
  · rw [pending_some releases rfl, pending, waitQueue]
    rfl
  · refine coming.congr ?_ (fun _ _ => by rw [heap])
    rw [threads, Function.update_of_ne]
    rintro rfl
    cases has.symm.trans coming.not_hasLock
  · rw [list]
    change state.list.length + (state.threads t).share ≤ _
    rw [releases]
    exact Nat.le_refl _

/-- A thread makes its semaphore in `Wait`. -/
theorem Holds.make (holds : Holds current state) (waits : state.threads t = .wait)
    {waiter : Pointer} (unused : state.heap waiter.address = none) (objects : Nat)
    : Holds current
        { (state.write waiter (.new 0)).goto t (.enqueue waiter) with objects } := by
  have has : (state.threads t).hasLock = true := by rw [waits]; rfl
  obtain rfl := (holds.mutex.only t).mp has
  have empty : state.list = [] := by
    have knows := holds.served.knows t
    rwa [waits] at knows
  have holder := holds.mutex.holder t (by rw [waits]; rfl)
  exact ⟨holds.mutex.move has rfl rfl rfl (fun _ => .inl rfl) (fun _ => holder),
    holds.served.move holds.mutex has rfl rfl rfl (by rw [waits]; rfl) empty,
    holds.waiters.make waits unused rfl rfl rfl rfl,
    .of_empty empty⟩

/-- A thread deletes its semaphore. -/
theorem Holds.delete (holds : Holds current state) {waiter : Pointer}
    (deletes : state.threads t = .delete waiter)
    : (∃ semaphore, state.read waiter = .ok semaphore)
      ∧ Holds current
          {
            state.goto t .test with
            heap := Function.update state.heap waiter.address none
          } := by
  have has : (state.threads t).hasLock = true := by rw [deletes]; rfl
  have own : (state.threads t).waiter = some waiter := by rw [deletes]; rfl
  obtain rfl := (holds.mutex.only t).mp has
  obtain ⟨_, found, _⟩ := holds.waiters.owned t waiter own
  have test : Function.update state.threads t Progress.test t = .test := Function.update_self ..
  have holder := holds.mutex.holder t (by rw [deletes]; rfl)
  refine ⟨⟨_, read_of_found found⟩,
    holds.mutex.move has rfl rfl rfl (fun _ => .inl rfl) (fun _ => holder),
    holds.served.move holds.mutex has rfl rfl rfl (by rw [deletes]; rfl) trivial,
    holds.waiters.delete deletes rfl rfl rfl ?_,
    holds.covered.keep id (fun u coming => ?_) (fun _ => ?_)⟩
  · rw [pending_some test rfl, pending_some deletes rfl]
    rfl
  · have away : u ≠ t := by
      rintro rfl
      exact nomatch has.symm.trans coming.not_hasLock
    exact coming.congr (Function.update_of_ne away ..)
      (fun pointer inP => Function.update_of_ne (holds.apart own away inP) ..)
  · change _ + (state.threads t).share ≤ _ + (Function.update state.threads t .test t).share
    rw [test, deletes]
    exact Nat.le_refl _

/-- A thread that is signalled comes for an item. -/
theorem Holds.signal (holds : Holds current state) {waiter : Pointer}
    (signals : state.threads t = .v waiter)
    : ∃ semaphore,
        state.read waiter = .ok semaphore
        ∧ Holds current
            (((state.write waiter semaphore.v).wake semaphore.queue.head?).goto t
              (.release .append)) := by
  have has : (state.threads t).hasLock = true := by rw [signals]; rfl
  obtain rfl := (holds.mutex.only t).mp has
  obtain ⟨u, away, waits, found⟩ := holds.waiters.exists_of_signals signals
  have lacks : (state.threads u).hasLock = false := by
    rw [← Bool.not_eq_true, holds.mutex.only, Option.some.injEq]
    exact Ne.symm away
  have inP := Progress.eq_p_of_waits waits lacks
  have own : (state.threads u).waiter = some waiter := Progress.waiter_of_waits waits
  refine ⟨_, read_of_found found, ?_⟩
  generalize changed : ((state.write waiter _).wake _).goto t (Progress.release Exit.append)
    = after
  have threads : after.threads = Function.update state.threads t (.release .append) := by
    rw [← changed]
    rfl
  have heap : after.heap
      = Function.update state.heap waiter.address
          (some { object := waiter.object, semaphore := { value := 1, queue := [] } }) := by
    rw [← changed]
    change Function.update state.heap waiter.address (some { semaphore := Semaphore.v _, .. }) = _
    cases state.rests u <;> rfl
  have asleep (other : ι) : after.asleep other
      = if other = u ∧ state.rests u = true then false else state.asleep other := by
    rw [← changed]
    change ((state.write waiter _).wake _).asleep other = _
    rw [State.wake_asleep]
    cases state.rests u with
    | false => simp [State.write]
    | true => simp [State.write, eq_comm]
  have holder := holds.mutex.holder t (by rw [signals]; rfl)
  refine ⟨holds.mutex.move has rfl threads (by rw [← changed]; rfl) (fun other => ?_)
      (fun _ => (by rw [← changed]; exact holder)),
    holds.served.move holds.mutex has threads (by rw [← changed]; rfl) (by rw [← changed]; rfl)
      (by rw [signals, ← changed]; rfl) trivial,
    holds.waiters.signal signals waits threads heap (by rw [← changed]; rfl) asleep,
    holds.covered.signal (not_coming_of_zero inP found rfl) ?_ (fun other apart coming => ?_)
      (by rw [← changed]; rfl) (by rw [← changed]; rfl)
      (Nat.le_add_left_of_le ((state.threads t).share_le_one))⟩
  · rw [asleep other]
    split
    · rename_i slept
      refine .inr ⟨rfl, ?_⟩
      rw [slept.1, inP]
      rfl
    · exact .inl rfl
  · refine .inr ⟨waiter, { value := 1, queue := [] }, ?_, ?_, Int.one_ne_zero⟩
    · rw [threads, Function.update_of_ne away, inP]
    · rw [heap, Function.update_self]
  · refine coming.congr ?_ (fun pointer inside => ?_)
    · rw [threads, Function.update_of_ne]
      rintro rfl
      exact nomatch has.symm.trans coming.not_hasLock
    · rw [heap, Function.update_of_ne (holds.apart own apart inside)]

/-- The thread that has the lock frees it and returns. -/
theorem Holds.released (holds : Holds current state) {exit : Exit α}
    (here : state.threads t = .released exit)
    : Holds none
        (({ state with lock := state.lock.v }.wake state.lock.queue.head?).leave t exit) := by
  cases exit with
  | append =>
      refine holds.free here rfl rfl (by rw [here]; rfl) (by rw [here]; rfl) rfl rfl rfl rfl rfl
        rfl rfl ?_
      rw [here]
      exact (List.append_nil _).symm
  | removeFront item =>
      refine holds.free here rfl rfl (by rw [here]; rfl) (by rw [here]; rfl) rfl rfl rfl rfl rfl
        rfl rfl ?_
      rw [here]
      rfl
  | wait waiter =>
      refine holds.free here rfl rfl (by rw [here]; rfl) (by rw [here]; rfl) rfl rfl rfl rfl rfl
        rfl rfl ?_
      rw [here]
      exact (List.append_nil _).symm

-----------------------------------------------------------------------------------------
-- Runs
-----------------------------------------------------------------------------------------

/-- A thread that is awake runs its next statement without a fault, unless it appends an item
that is in the list.
-/
theorem Holds.advance [DecidableEq α] {place : Nat} (holds : Holds current state)
    (legal : state.Legal (.advance t place))
    (absent : ∀ item, state.threads t = .append item → item ∉ state.list)
    : ∃ after, state.advance t place = .ok after ∧ ∃ next, Holds next after := by
  obtain ⟨_, awake, unused⟩ := legal
  have holder := holds.mutex.holder t
  unfold State.advance
  cases here : state.threads t with
  | outside => exact ⟨_, rfl, _, holds⟩
  | acquire entry =>
      dsimp only
      by_cases taken : state.lock.value = 0
      · have away : t ∉ state.lock.queue := by
          rw [holds.mutex.queue, awake]
          exact fun own => nomatch own.1
        rw [bind_ok (Semaphore.p_zero taken away)]
        exact ⟨_, rfl, _, holds.sleep here awake taken⟩
      · rw [bind_ok (Semaphore.p_of_ne taken)]
        exact ⟨_, rfl, _, holds.pass here awake taken⟩
  | acquired entry => exact ⟨_, rfl, _, holds.acquired here⟩
  | append item =>
      dsimp only
      rw [bind_ok (require_of (absent item here) _)]
      exact ⟨_, rfl, _, holds.append here⟩
  | signal =>
      dsimp only
      rw [bind_ok (require_of (holder (by rw [here]; rfl)) _)]
      cases queue : state.waitQueue with
      | nil => exact ⟨_, rfl, _, holds.signal_none here queue⟩
      | cons waiter rest => exact ⟨_, rfl, _, holds.signal_some here queue⟩
  | v waiter =>
      obtain ⟨semaphore, found, signalled⟩ := holds.signal here
      dsimp only
      rw [bind_ok found]
      exact ⟨_, rfl, _, signalled⟩
  | test => exact ⟨_, rfl, _, holds.test here⟩
  | remove =>
      have some := holds.served.knows t
      rw [here] at some
      cases list : state.list with
      | nil => exact absurd list some
      | cons item rest => exact ⟨_, rfl, _, holds.remove here list⟩
  | wait =>
      dsimp only
      rw [bind_ok (require_of (holder (by rw [here]; rfl)) _)]
      exact ⟨_, rfl, _, holds.make here (unused here) _⟩
  | enqueue waiter =>
      obtain ⟨absent, enqueued⟩ := holds.enqueue here
      dsimp only
      rw [bind_ok (require_of absent _)]
      exact ⟨_, rfl, _, enqueued⟩
  | release exit =>
      dsimp only
      rw [bind_ok (require_of (holder (by rw [here]; rfl)) _)]
      exact ⟨_, rfl, _, holds.release here⟩
  | released exit => exact ⟨_, rfl, _, holds.released here⟩
  | p waiter =>
      obtain ⟨value, found, slept, passed⟩ := holds.p here awake
      dsimp only
      rw [bind_ok found]
      by_cases zero : value = 0
      · rw [bind_ok (Semaphore.p_zero zero List.not_mem_nil)]
        subst zero
        exact ⟨_, rfl, _, slept rfl⟩
      · rw [bind_ok (Semaphore.p_of_ne zero)]
        exact ⟨_, rfl, _, passed zero⟩
  | delete waiter =>
      obtain ⟨⟨_, found⟩, deleted⟩ := holds.delete here
      dsimp only
      rw [bind_ok found]
      exact ⟨_, rfl, _, deleted⟩

/-- Every step keeps what holds, by cases on the action. -/
theorem Holds.step [DecidableEq α] {action : Action ι α} (holds : Holds current state)
    (step : state.Step action after)
    : ∃ next, Holds next after := by
  obtain ⟨legal, returned⟩ := step
  cases action with
  | append t item =>
      obtain rfl := Except.ok.inj returned
      exact ⟨_, holds.begin legal rfl⟩
  | removeFront t =>
      obtain rfl := Except.ok.inj returned
      exact ⟨_, holds.begin legal rfl⟩
  | advance t place =>
      have absent (item : α) (here : state.threads t = .append item) : item ∉ state.list := by
        change state.advance t place = _ at returned
        rw [State.advance, here] at returned
        obtain ⟨_, absent, _⟩ := of_bind_ok returned
        exact of_require_ok absent
      obtain ⟨other, done, next, kept⟩ := holds.advance legal absent
      obtain rfl := Except.ok.inj (done.symm.trans returned)
      exact ⟨next, kept⟩

/-- What holds of every state that a run reaches, by induction on the run. -/
theorem holds_of_reachable [DecidableEq α]
    (reachable : Runs.Reachable (@State.Step ι α _ _) initial state)
    : ∃ current, Holds current state := by
  refine @Runs.Reachable.invariant _ _ _ _ _ (fun state => ∃ current, Holds current state)
    reachable ⟨none, mutex_initial, served_initial, waiters_initial, covered_initial⟩ ?_
  rintro before action after ⟨current, holds⟩ step
  exact holds.step step

end Nachos.SynchList
