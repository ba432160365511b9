import Nachos.Threads.LifeCycle
import Nachos.Threads.Locks

/-! Every run keeps all semaphores balanced and every lock with at most one thread inside.
-/

namespace Nachos.Threads
open Outcome

namespace Synch

variable {state after : Synch} {action : Kernel.Action} {l : LockId} {lock : Lock}
  {s : SemaphoreId}

-----------------------------------------------------------------------------------------
-- All locks
-----------------------------------------------------------------------------------------

/-- A lock that is looked up is there. -/
theorem of_lookup (found : state.lookup l = .ok lock) : state.locks l = some lock := by
  unfold lookup at found
  split at found
  · injection found with same
    rwa [← same]
  · exact nomatch found

/-- An action of the kernel is done by the kernel, and recorded in the ledgers. -/
theorem of_act (returned : state.act action = .ok after)
    : state.kernel.perform action = .ok after.kernel
      ∧ after = {
          state with
          kernel := after.kernel
          ledgers := fun s => (state.ledgers s).record state.kernel action after.kernel s
        } := by
  obtain ⟨kernel, performed, done⟩ := of_bind_ok returned
  obtain rfl := Except.ok.inj done
  exact ⟨performed, rfl⟩

/-- The kernel and its ledgers stay sound. -/
theorem Sound.books (sound : Sound state) (legal : state.kernel.Legal action)
    (returned : state.act action = .ok after)
    : after.kernel.Invariant ∧ after.kernel.Accounts after.ledgers := by
  obtain ⟨performed, same⟩ := of_act returned
  obtain ⟨kernel, done, invariant⟩ := sound.kernel.perform legal
  obtain rfl := Except.ok.inj (done.symm.trans performed)
  refine ⟨invariant, ?_⟩
  rw [same]
  exact sound.accounts.step sound.kernel legal performed

/-- Locks have semaphores that exist. -/
theorem Sound.isSome_semaphore (sound : Sound state) (found : state.locks l = some lock)
    : (state.kernel.semaphores lock.semaphore).isSome := by
  obtain ⟨_, guarded⟩ := sound.guarded l lock found
  obtain ⟨semaphore, stored, _⟩ := guarded.value
  rw [stored]
  rfl

/-- Another lock has another semaphore. -/
theorem Sound.away (sound : Sound state) (found : state.locks l = some lock) {other : LockId}
    {now : Lock} (apart : other ≠ l) (stored : state.locks other = some now)
    : now.semaphore ≠ lock.semaphore :=
  fun shared => apart (sound.apart _ _ _ _ stored found shared)

/-- What a thread enters or leaves does not concern other locks. -/
theorem update_other {f : ThreadId → Option LockId} {current : ThreadId}
    {value : Option LockId} {other : LockId} (before : f current ≠ some other)
    (now : value ≠ some other) (t : ThreadId)
    : Function.update f current value t = some other ↔ f t = some other := by
  by_cases same : t = current
  · subst same
    rw [Function.update_self]
    exact iff_of_false now before
  · rw [Function.update_of_ne same]

/-- A step on one lock, or a new one, leaves the others alone. -/
theorem Sound.store (sound : Sound state) (changed : Lock)
    (invariant : after.kernel.Invariant) (accounts : after.kernel.Accounts after.ledgers)
    (locks : after.locks = Function.update state.locks l (some changed))
    (away
      : ∀ other now, other ≠ l → state.locks other = some now
        → now.semaphore ≠ changed.semaphore)
    (exist
      : ∀ t other, other ≠ l
        → after.acquiring t = some other ∨ after.releasing t = some other
        → state.acquiring t = some other ∨ state.releasing t = some other)
    (own : ∃ owner, Guarded after l changed owner)
    (others
      : ∀ other now, other ≠ l → state.locks other = some now
        → ∃ owner, Guarded after other now owner)
    : Sound after := by
  -- A lock after the step is the changed one, or one from before with another semaphore.
  have cases (other : LockId) (now : Lock) (stored : after.locks other = some now)
      : (other = l ∧ now = changed) ∨ (other ≠ l ∧ state.locks other = some now) := by
    rw [locks] at stored
    by_cases same : other = l
    · subst same
      rw [Function.update_self] at stored
      exact .inl ⟨rfl, (Option.some.inj stored).symm⟩
    · rw [Function.update_of_ne same] at stored
      exact .inr ⟨same, stored⟩
  refine ⟨invariant, accounts, fun l1 l2 lock1 lock2 stored1 stored2 shared => ?_,
    fun t other inside => ?_, fun other now stored => ?_⟩
  · rcases cases l1 lock1 stored1 with ⟨rfl, rfl⟩ | ⟨apart1, before1⟩
    · rcases cases l2 lock2 stored2 with ⟨rfl, _⟩ | ⟨apart2, before2⟩
      · rfl
      · exact absurd shared.symm (away l2 lock2 apart2 before2)
    · rcases cases l2 lock2 stored2 with ⟨rfl, rfl⟩ | ⟨_, before2⟩
      · exact absurd shared (away l1 lock1 apart1 before1)
      · exact sound.apart _ _ _ _ before1 before2 shared
  · rw [locks]
    by_cases same : other = l
    · rw [same, Function.update_self]
      rfl
    · rw [Function.update_of_ne same]
      exact sound.exist t other (exist t other same inside)
  · rcases cases other now stored with ⟨rfl, rfl⟩ | ⟨apart, before⟩
    · exact own
    · exact others other now apart before

-----------------------------------------------------------------------------------------
-- Steps
-----------------------------------------------------------------------------------------

/-- The kernel goes on, and calls no semaphore of a lock. -/
theorem Sound.kernelStep (sound : Sound state) (legal : state.kernel.Legal action)
    (uncalled
      : ∀ l lock, state.locks l = some lock → calls action ≠ some lock.semaphore)
    (returned : state.act action = .ok after)
    : Sound after := by
  obtain ⟨invariant, accounts⟩ := sound.books legal returned
  obtain ⟨performed, same⟩ := of_act returned
  have locks : after.locks = state.locks := by rw [same]
  have acquiring : after.acquiring = state.acquiring := by rw [same]
  have releasing : after.releasing = state.releasing := by rw [same]
  refine ⟨invariant, accounts, ?_, ?_, fun l lock found => ?_⟩
  · rw [locks]
    exact sound.apart
  · rw [locks, acquiring, releasing]
    exact sound.exist
  · rw [locks] at found
    obtain ⟨_, guarded⟩ := sound.guarded l lock found
    exact guarded.act sound.kernel legal performed (uncalled l lock found)
      (fun t => by rw [acquiring]) (fun t => by rw [releasing]) (by rw [same])

/-- A new lock has a new semaphore. -/
theorem Sound.new (sound : Sound state) (free : state.locks l = none)
    (legal : state.kernel.Legal (.call (.semaphore s 1)))
    (returned : state.perform (.new l s) = .ok after)
    : Sound after := by
  obtain ⟨made, returned, done⟩ := of_bind_ok returned
  have unused : state.kernel.semaphores s = none := legal.2.2
  have before : Sound made :=
    sound.kernelStep legal (fun _ _ _ => nofun) returned
  obtain ⟨performed, same⟩ := of_act returned
  have locks : made.locks = state.locks := by rw [same]
  have kernel : state.kernel.store s { value := 1, queue := [] } = made.kernel :=
    Except.ok.inj performed
  have stored : made.kernel.semaphores s = some { value := 1, queue := [] } := by
    rw [← kernel]
    exact Function.update_self ..
  have empty (t : ThreadId) : ¬made.kernel.InP s t := by
    rw [← kernel]
    intro inside
    have exist := sound.kernel.exists_of_inP inside
    rw [unused] at exist
    exact nomatch exist
  have untouched (t : ThreadId)
      : ¬(made.acquiring t = some l ∨ made.releasing t = some l) := by
    intro inside
    have exist := before.exist t l inside
    rw [locks, free] at exist
    exact nomatch exist
  obtain rfl := Except.ok.inj done
  refine before.store { semaphore := s, lockHolder := none } before.kernel before.accounts rfl
    (fun other now _ found => ?_) (fun _ _ _ inside => inside) ⟨.free, ?_⟩
    (fun other now apart found => ?_)
  · rintro rfl
    have exist := sound.isSome_semaphore (locks ▸ found)
    rw [unused] at exist
    exact nomatch exist
  · refine ⟨⟨_, stored, rfl⟩, rfl, fun t => ?_, nofun, fun t => ?_, Function.update_self ..⟩
    · exact iff_of_false (fun inside => untouched t (.inl inside))
        (not_or.mpr ⟨empty t, nofun⟩)
    · exact iff_of_false (fun inside => untouched t (.inr inside)) nofun
  · obtain ⟨owner, guarded⟩ := before.guarded other now found
    exact ⟨owner, guarded.congr (.refl ..) (fun _ => .rfl) (fun _ => .rfl)
      (Function.update_of_ne apart ..)⟩

/-- `P` or `V` of the semaphore of a lock leaves the other locks alone. -/
theorem Sound.called {called : Synch} (sound : Sound state) (found : state.locks l = some lock)
    (legal : state.kernel.Legal action) (calls : calls action = some lock.semaphore)
    (returned : state.act action = .ok called)
    (same
      : after = { called with acquiring := after.acquiring, releasing := after.releasing })
    (acquiring
      : ∀ other, other ≠ l
        → ∀ t, after.acquiring t = some other ↔ state.acquiring t = some other)
    (releasing
      : ∀ other, other ≠ l
        → ∀ t, after.releasing t = some other ↔ state.releasing t = some other)
    (own
      : state.kernel.perform action = .ok after.kernel
        → after.inside = state.inside
        → ∃ owner, Guarded after l lock owner)
    : Sound after := by
  obtain ⟨invariant, accounts⟩ := sound.books legal returned
  obtain ⟨performed, unchanged⟩ := of_act returned
  have kernel : after.kernel = called.kernel := by rw [same]
  have ledgers : after.ledgers = called.ledgers := by rw [same]
  have locks : after.locks = state.locks := by rw [same, unchanged]
  have inside : after.inside = state.inside := by rw [same, unchanged]
  rw [← kernel] at invariant accounts performed
  rw [← ledgers] at accounts
  refine sound.store lock invariant accounts ?_ (fun _ _ => sound.away found)
    (fun t other apart entered => ?_) (own performed inside) (fun other now apart stored => ?_)
  · rw [locks, ← found, Function.update_eq_self]
  · rwa [acquiring other apart, releasing other apart] at entered
  · obtain ⟨_, guarded⟩ := sound.guarded other now stored
    refine guarded.act sound.kernel legal performed ?_ (acquiring other apart)
      (releasing other apart) (congrFun inside other)
    rw [calls]
    exact fun shared => sound.away found apart stored (Option.some.inj shared).symm

/-- The start of Acquire keeps the locks sound: it is a call of P on the semaphore of the lock. -/
theorem Sound.acquire (sound : Sound state) (legal : state.Legal (.acquire l))
    (returned : state.perform (.acquire l) = .ok after)
    : Sound after := by
  obtain ⟨runs, ⟨own, _⟩, _⟩ := legal
  obtain ⟨lock, looked, returned⟩ := of_bind_ok returned
  have found := of_lookup looked
  have legal : state.kernel.Legal (.call (.p lock.semaphore)) :=
    ⟨runs.1, runs.2, sound.isSome_semaphore found⟩
  obtain ⟨called, returned, done⟩ := of_bind_ok returned
  have unchanged := (of_act returned).2
  have changed := (Except.ok.inj done).symm
  have acquiring : after.acquiring
      = Function.update state.acquiring state.kernel.currentThread (some l) := by
    rw [changed, unchanged]
  have releasing : after.releasing = state.releasing := by rw [changed, unchanged]
  obtain ⟨_, guarded⟩ := sound.guarded l lock found
  refine sound.called found legal rfl returned ?_ (fun other apart t => ?_) (fun other _ t => ?_)
    (fun performed inside => ?_)
  · rw [changed]
  · rw [acquiring]
    exact update_other (by simp [own]) (by simpa using apart.symm) t
  · rw [releasing]
  · exact guarded.acquire sound.kernel own legal performed acquiring releasing
      (congrFun inside l)

/-- The end of Acquire keeps the locks sound. Witness: its P is completed, so no other thread has
the lock.
-/
theorem Sound.acquired (sound : Sound state) (legal : state.Legal .acquired)
    (returned : state.perform .acquired = .ok after)
    : Sound after := by
  obtain ⟨⟨_, calls⟩, entered⟩ := legal
  obtain ⟨l, own⟩ := Option.ne_none_iff_exists'.mp entered
  simp only [perform, own] at returned
  obtain ⟨lock, looked, done⟩ := of_bind_ok returned
  have found := of_lookup looked
  obtain rfl := Except.ok.inj done
  have others (other : LockId) (apart : other ≠ l)
      : ∀ t, Function.update state.acquiring state.kernel.currentThread none t = some other
        ↔ state.acquiring t = some other :=
    update_other (by simpa [own] using apart.symm) nofun
  obtain ⟨_, guarded⟩ := sound.guarded l lock found
  refine sound.store { lock with lockHolder := some state.kernel.currentThread }
    sound.kernel sound.accounts rfl (fun _ _ => sound.away found)
    (fun t other apart inside => inside.imp_left (others other apart t).mp)
    ⟨.held state.kernel.currentThread, ?_⟩
    (fun other now apart stored => ?_)
  · refine guarded.acquired calls own ?_ ?_ ?_ ?_
    · rfl
    · rfl
    · rfl
    · exact Function.update_self ..
  · obtain ⟨owner, guarded⟩ := sound.guarded other now stored
    exact ⟨owner, guarded.congr (.refl ..) (others other apart) (fun _ => .rfl)
      (Function.update_of_ne apart ..)⟩

/-- The start of Release keeps the locks sound: the holder gives the lock up before it signals. -/
theorem Sound.release (sound : Sound state) (legal : state.Legal (.release l))
    (returned : state.perform (.release l) = .ok after)
    : Sound after := by
  obtain ⟨_, ⟨_, own⟩, _⟩ := legal
  obtain ⟨lock, looked, returned⟩ := of_bind_ok returned
  have found := of_lookup looked
  obtain ⟨_, held, done⟩ := of_bind_ok returned
  have holder := of_require_ok held
  obtain rfl := Except.ok.inj done
  have others (other : LockId) (apart : other ≠ l)
      : ∀ t, Function.update state.releasing state.kernel.currentThread (some l) t = some other
        ↔ state.releasing t = some other :=
    update_other (by simp [own]) (by simpa using apart.symm)
  obtain ⟨_, guarded⟩ := sound.guarded l lock found
  refine sound.store { lock with lockHolder := none } sound.kernel sound.accounts rfl
    (fun _ _ => sound.away found)
    (fun t other apart inside => inside.imp_right (others other apart t).mp)
    ⟨.leaving state.kernel.currentThread, ?_⟩
    (fun other now apart stored => ?_)
  · refine guarded.release holder ?_ ?_ ?_ ?_
    · rfl
    · rfl
    · rfl
    · exact Function.update_self ..
  · obtain ⟨owner, guarded⟩ := sound.guarded other now stored
    exact ⟨owner, guarded.congr (.refl ..) (fun _ => .rfl) (others other apart)
      (Function.update_of_ne apart ..)⟩

/-- The end of Release keeps the locks sound: its V passes the lock to the next one. -/
theorem Sound.released (sound : Sound state) (legal : state.Legal .released)
    (returned : state.perform .released = .ok after)
    : Sound after := by
  obtain ⟨runs, entered⟩ := legal
  obtain ⟨l, own⟩ := Option.ne_none_iff_exists'.mp entered
  simp only [perform, own] at returned
  obtain ⟨lock, looked, returned⟩ := of_bind_ok returned
  have found := of_lookup looked
  have legal : state.kernel.Legal (.call (.v lock.semaphore)) :=
    ⟨runs.1, runs.2, sound.isSome_semaphore found⟩
  obtain ⟨called, returned, done⟩ := of_bind_ok returned
  have unchanged := (of_act returned).2
  have changed := (Except.ok.inj done).symm
  have acquiring : after.acquiring = state.acquiring := by rw [changed, unchanged]
  have releasing : after.releasing
      = Function.update state.releasing state.kernel.currentThread none := by
    rw [changed, unchanged]
  obtain ⟨_, guarded⟩ := sound.guarded l lock found
  refine sound.called found legal rfl returned ?_ (fun other _ t => ?_) (fun other apart t => ?_)
    (fun performed inside => ?_)
  · rw [changed]
  · rw [acquiring]
  · rw [releasing]
    exact update_other (by simpa [own] using apart.symm) (by simp) t
  · exact ⟨_, guarded.released sound.kernel legal own performed acquiring releasing
      (congrFun inside l)⟩

/-- Every step keeps the locks sound, by cases on the action. -/
theorem Sound.step {action : Action} (sound : Sound state) (step : Step state action after)
    : Sound after := by
  obtain ⟨legal, returned⟩ := step
  cases action with
  | kernel action =>
      obtain ⟨legal, _, apart⟩ := legal
      exact sound.kernelStep legal (fun l lock found called => apart _ called l lock found rfl)
        returned
  | new l s =>
      obtain ⟨_, free, legal⟩ := legal
      exact sound.new free legal returned
  | acquire l => exact sound.acquire legal returned
  | acquired => exact sound.acquired legal returned
  | release l => exact sound.release legal returned
  | released => exact sound.released legal returned

/-- After the boot there is no semaphore and no lock yet. -/
theorem sound_of_initial {main : ThreadId} {initPriority : Int} {execExit : Bool}
    {first : Kernel} (started : Kernel.initial main initPriority execExit = .ok first)
    (working : first.Working)
    : Sound (start first) := by
  refine ⟨.working working, fun s semaphore found => ?_, nofun, fun t l inside => ?_, nofun⟩
  · obtain ⟨_, _, started⟩ := of_bind_ok started
    obtain ⟨_, _, started⟩ := of_bind_ok started
    obtain rfl := Except.ok.inj started
    exact nomatch found
  · rcases inside with entered | entered <;> exact nomatch entered

-----------------------------------------------------------------------------------------
-- Safety
-----------------------------------------------------------------------------------------

/-- What holds of semaphores and locks between any two actions. -/
structure Safe (state : Synch) : Prop where
  value
    : ∀ s semaphore, state.kernel.semaphores s = some semaphore
      → semaphore.value
          = (state.ledgers s).initialValue + (state.ledgers s).signalled
            - (state.ledgers s).completed
  nonneg
    : ∀ s semaphore, state.kernel.semaphores s = some semaphore
      → 0 ≤ (state.ledgers s).initialValue
      → 0 ≤ semaphore.value
  noLostWakeUp
    : ∀ s semaphore, state.kernel.semaphores s = some semaphore
      → semaphore.queue ≠ []
      → semaphore.value ≤ (state.ledgers s).woken.length
  /-- The threads that are inside `P` without waiting, each once. -/
  woken
    : ∀ s, (state.kernel.semaphores s).isSome
      → (state.ledgers s).woken.Nodup
        ∧ ∀ t, t ∈ (state.ledgers s).woken
          ↔ state.kernel.InP s t ∧ ¬state.kernel.Waits t
  single
    : ∀ l, (state.locks l).isSome → (state.inside l).length ≤ 1
  lockHolder
    : ∀ l lock, state.locks l = some lock → lock.lockHolder = (state.inside l).head?
  /-- A thread that got through `P` in `Acquire` is the only one, and the lock is not held. -/
  through
    : ∀ l lock t, state.locks l = some lock
      → state.acquiring t = some l
      → ¬state.kernel.InP lock.semaphore t
      → state.inside l = []
        ∧ ∀ other, state.acquiring other = some l
          → ¬state.kernel.InP lock.semaphore other
          → other = t
  release
    : ∀ l, state.Legal (.release l)
      → (state.kernel.currentThread ∈ state.inside l
          → ∃ after, state.perform (.release l) = .ok after)
        ∧ (state.kernel.currentThread ∉ state.inside l
          → state.perform (.release l) = .error .assertion)
  /-- Nothing but this assertion ever fails, with `promoteThreads` as it is meant. -/
  returns
    : ∀ action, state.Legal action → (∀ l, action ≠ .release l)
      → ∃ after, state.perform action = .ok after

theorem lookup_of_some (found : state.locks l = some lock) : state.lookup l = .ok lock := by
  unfold lookup
  rw [found]

/-- The assertion in `Release` fails for other threads. -/
theorem Sound.perform_release (sound : Sound state) (legal : state.Legal (.release l))
    : (state.kernel.currentThread ∈ state.inside l
        → ∃ after, state.perform (.release l) = .ok after)
      ∧ (state.kernel.currentThread ∉ state.inside l
        → state.perform (.release l) = .error .assertion) := by
  obtain ⟨_, _, exist⟩ := legal
  obtain ⟨lock, found⟩ := Option.isSome_iff_exists.mp exist
  obtain ⟨owner, guarded⟩ := sound.guarded l lock found
  have looked := lookup_of_some found
  have holds
      : state.kernel.currentThread ∈ state.inside l ↔ state.isHeldByCurrentThread lock := by
    rw [guarded.inside, Option.mem_toList, isHeldByCurrentThread, guarded.holder]
  rw [holds]
  refine ⟨fun held => ?_, fun other => ?_⟩
  · rw [perform, bind_ok looked, bind_ok (require_of held _)]
    exact ⟨_, rfl⟩
  · rw [perform, bind_ok looked, require, if_neg other]
    rfl

theorem Sound.act_ok (sound : Sound state) (legal : state.kernel.Legal action)
    : ∃ after, state.act action = .ok after := by
  obtain ⟨kernel, performed, _⟩ := sound.kernel.perform legal
  rw [act, bind_ok performed]
  exact ⟨_, rfl⟩

/-- All operations but Release return in a sound state, by cases on the action. -/
theorem Sound.returns {action : Action} (sound : Sound state) (legal : state.Legal action)
    (other : ∀ l, action ≠ .release l)
    : ∃ after, state.perform action = .ok after := by
  cases action with
  | kernel action => exact sound.act_ok legal.1
  | new l s =>
      obtain ⟨made, done⟩ := sound.act_ok legal.2.2
      rw [perform, bind_ok done]
      exact ⟨_, rfl⟩
  | acquire l =>
      obtain ⟨runs, _, exist⟩ := legal
      obtain ⟨lock, found⟩ := Option.isSome_iff_exists.mp exist
      have legal : state.kernel.Legal (.call (.p lock.semaphore)) :=
        ⟨runs.1, runs.2, sound.isSome_semaphore found⟩
      obtain ⟨called, done⟩ := sound.act_ok legal
      rw [perform, bind_ok (lookup_of_some found), bind_ok done]
      exact ⟨_, rfl⟩
  | acquired =>
      obtain ⟨_, entered⟩ := legal
      obtain ⟨l, own⟩ := Option.ne_none_iff_exists'.mp entered
      obtain ⟨lock, found⟩ := Option.isSome_iff_exists.mp (sound.exist _ _ (.inl own))
      simp only [perform, own]
      rw [bind_ok (lookup_of_some found)]
      exact ⟨_, rfl⟩
  | release l => exact absurd rfl (other l)
  | released =>
      obtain ⟨runs, entered⟩ := legal
      obtain ⟨l, own⟩ := Option.ne_none_iff_exists'.mp entered
      obtain ⟨lock, found⟩ := Option.isSome_iff_exists.mp (sound.exist _ _ (.inr own))
      have legal : state.kernel.Legal (.call (.v lock.semaphore)) :=
        ⟨runs.1, runs.2, sound.isSome_semaphore found⟩
      obtain ⟨released, done⟩ := sound.act_ok legal
      simp only [perform, own]
      rw [bind_ok (lookup_of_some found), bind_ok done]
      exact ⟨_, rfl⟩

/-- A sound state is safe: each field comes from the accounts of a semaphore or from the owner of a
lock.
-/
theorem Sound.safe (sound : Sound state) : state.Safe where
  value s semaphore found := (sound.accounts s semaphore found).value
  nonneg s semaphore found := (sound.accounts s semaphore found).nonneg
  noLostWakeUp s semaphore found := (sound.accounts s semaphore found).covered
  woken s exist := by
    obtain ⟨semaphore, found⟩ := Option.isSome_iff_exists.mp exist
    have balanced := sound.accounts s semaphore found
    exact ⟨balanced.distinct, balanced.woken⟩
  single l exist := by
    obtain ⟨lock, found⟩ := Option.isSome_iff_exists.mp exist
    obtain ⟨owner, guarded⟩ := sound.guarded l lock found
    rw [guarded.inside]
    cases owner.holder <;> simp
  lockHolder l lock found := by
    obtain ⟨owner, guarded⟩ := sound.guarded l lock found
    rw [guarded.inside, guarded.holder]
    cases owner.holder <;> rfl
  through l lock t found entered outside := by
    obtain ⟨owner, guarded⟩ := sound.guarded l lock found
    have own (other : ThreadId) (entered : state.acquiring other = some l)
        (outside : ¬state.kernel.InP lock.semaphore other)
        : owner = .passed other :=
      ((guarded.acquiring other).mp entered).resolve_left outside
    obtain rfl := own t entered outside
    refine ⟨guarded.inside, fun other entered outside => ?_⟩
    exact (Owner.passed.inj (own other entered outside)).symm
  release l legal := sound.perform_release legal
  returns action legal other := sound.returns legal other

/-- However threads and interrupt handlers use semaphores and locks, they are safe: every step keeps
the semaphores balanced and every lock guarded by its own.
-/
theorem safe_semaphores_and_locks (main : ThreadId) (initPriority : Int) (execExit : Bool)
    : ∃ first,
        Kernel.initial main initPriority execExit = .ok first
        ∧ ∀ state, Runs.Reachable Step (start first) state → state.Safe := by
  obtain ⟨first, started, working⟩ := Kernel.exists_initial main initPriority execExit
  refine ⟨first, started, fun state reachable => ?_⟩
  have sound : Sound state :=
    reachable.invariant (sound_of_initial started working) (fun _ _ _ sound step => sound.step step)
  exact sound.safe

-----------------------------------------------------------------------------------------
-- Execution
-----------------------------------------------------------------------------------------

/-- Only a constructor makes a lock. -/
theorem locks_none_of_perform {action : Action} (free : state.locks l = none)
    (other : ∀ s, action ≠ .new l s) (performed : state.perform action = .ok after)
    : after.locks l = none := by
  have apart {own : LockId} {lock : Lock} (looked : state.lookup own = .ok lock) : l ≠ own := by
    rintro rfl
    cases free.symm.trans (of_lookup looked)
  have kept {action : Kernel.Action} {called : Synch} (acted : state.act action = .ok called)
      : called.locks l = none := by
    rw [(of_act acted).2]
    exact free
  cases action with
  | kernel action => exact kept performed
  | new own s =>
      obtain ⟨made, acted, done⟩ := of_bind_ok performed
      obtain rfl := Except.ok.inj done
      have apart : l ≠ own := by
        rintro rfl
        exact other s rfl
      exact (Function.update_of_ne apart _ _).trans (kept acted)
  | acquire own =>
      obtain ⟨_, _, performed⟩ := of_bind_ok performed
      obtain ⟨called, acted, done⟩ := of_bind_ok performed
      obtain rfl := Except.ok.inj done
      exact (kept acted : called.locks l = none)
  | acquired =>
      simp only [perform] at performed
      split at performed
      · obtain rfl := Except.ok.inj performed
        exact free
      · obtain ⟨lock, looked, done⟩ := of_bind_ok performed
        obtain rfl := Except.ok.inj done
        exact (Function.update_of_ne (apart looked) _ _).trans free
  | release own =>
      obtain ⟨lock, looked, performed⟩ := of_bind_ok performed
      obtain ⟨_, _, done⟩ := of_bind_ok performed
      obtain rfl := Except.ok.inj done
      exact (Function.update_of_ne (apart looked) _ _).trans free
  | released =>
      simp only [perform] at performed
      split at performed
      · obtain rfl := Except.ok.inj performed
        exact free
      · obtain ⟨_, _, performed⟩ := of_bind_ok performed
        obtain ⟨called, acted, done⟩ := of_bind_ok performed
        obtain rfl := Except.ok.inj done
        exact (kept acted : called.locks l = none)

/-- No lock was made at another address than 0. -/
def Only (state : Synch) : Prop := ∀ l, l ≠ 0 → state.locks l = none

/-- Actions of the kernel that are not calls of the current thread. -/
def Uncalled : Kernel.Action → Prop
  | .call _ => False
  | _ => True

/-- The actions that may come next while lock 0 is the only one. -/
def LegalOnly (state : Synch) : Action → Prop
  | .kernel action =>
      state.kernel.Legal action
      ∧ (state.Own ∨ Uncalled action)
      ∧ ∀ lock ∈ state.locks 0, calls action ≠ some lock.semaphore
  | .new l s => l = 0 ∧ state.Legal (.new l s)
  | action => state.Legal action

instance (state : Synch) : Decidable state.Runs := inferInstanceAs (Decidable (_ ∧ _))

instance (state : Synch) : Decidable state.Own := inferInstanceAs (Decidable (_ ∧ _))

instance (action : Kernel.Action) : Decidable (Uncalled action) := by
  unfold Uncalled
  split <;> infer_instance

instance (state : Synch) (action : Action) : Decidable (state.LegalOnly action) :=
  match action with
  | .kernel _ => inferInstanceAs (Decidable (_ ∧ (_ ∨ _) ∧ _))
  | .new _ _ => inferInstanceAs (Decidable (_ ∧ _ ∧ _ ∧ _))
  | .acquire _ | .release _ => inferInstanceAs (Decidable (_ ∧ _ ∧ _))
  | .acquired | .released => inferInstanceAs (Decidable (_ ∧ _ ≠ _))

/-- The step that an action takes, if it may come next while lock 0 is the only one. -/
def next (state : Synch) (action : Action) : Option Synch :=
  if state.LegalOnly action then (state.perform action).toOption else none

/-- The executable step is a step of the relation, and there is still only the one lock. -/
theorem step_of_next {action : Action} (only : state.Only) (computed : state.next action = some after)
    : Step state action after ∧ after.Only := by
  obtain ⟨legal, performed⟩ := Outcome.of_attempt computed
  have one {l : LockId} {lock : Lock} (found : state.locks l = some lock)
      : state.locks 0 = some lock := by
    by_cases zero : l = 0
    · rwa [← zero]
    · cases (only l zero).symm.trans found
  refine ⟨⟨?_, performed⟩, fun l apart => locks_none_of_perform (only l apart) ?_ performed⟩
  · cases action with
    | kernel action =>
        obtain ⟨legal, own, avoids⟩ := legal
        refine ⟨legal, ?_, ?_⟩
        · rintro call rfl
          exact .inl (own.resolve_right not_false)
        · rintro s called l lock found rfl
          exact avoids lock (one found) called
    | new => exact legal.2
    | acquire | acquired | release | released => exact legal
  · rintro s rfl
    exact apart legal.1

/-- What computed steps lead to is reached by steps, while lock 0 is the only one. -/
theorem reachable_of_follow {actions : List Action} (only : state.Only)
    (followed : Runs.follow next actions state = some after)
    : Runs.Reachable Step state after ∧ after.Only := by
  have reached
      : Runs.Reachable
          (fun state action after => state.Only → Step state action after ∧ after.Only)
          state after :=
    .of_follow (fun _ _ _ computed only => step_of_next only computed) (.refl state) followed
  refine @Runs.Reachable.invariant _ _ _ _ _
    (fun middle => Runs.Reachable Step state middle ∧ middle.Only) reached ⟨.refl state, only⟩ ?_
  rintro middle action later ⟨before, only⟩ step
  obtain ⟨step, still⟩ := step only
  exact ⟨before.snoc step, still⟩

/-- The main thread acquires the lock and waits for semaphore 1. -/
def waits : List Action :=
  [
    .new 0 0, .kernel (.call (.semaphore 1 0)), .kernel (.call (.construct 1 0)),
    .kernel (.call (.fork 1)), .acquire 0, .acquired, .kernel (.call (.p 1))
  ]

/-- Thread 1 begins and signals it. -/
def signals : List Action :=
  [
    .kernel .findNext, .kernel .resume, .kernel .handled, .kernel .resume, .kernel (.call (.v 1)),
    .kernel .handled
  ]

/-- It yields, and the main thread gets through `P`. -/
def goesOn : List Action :=
  [.kernel (.call .yield), .kernel .resume, .kernel .resume]

/-- Witness: a run in which a thread that holds a lock waits in `P`, is woken up, and goes on. -/
theorem safe_semaphores_and_locks_of_waiting
    : ∃ first waiting woken returned,
        Kernel.initial 0 0 false = .ok first
        ∧ Runs.Reachable Step (start first) waiting
        ∧ Runs.Reachable Step waiting woken
        ∧ Runs.Reachable Step woken returned
        ∧ (waiting.Safe ∧ woken.Safe ∧ returned.Safe)
        ∧ (waiting.kernel.currentThread = 0
          ∧ waiting.kernel.semaphores 1 = some { value := 0, queue := [0] }
          ∧ waiting.locks 0 = some { semaphore := 0, lockHolder := some 0 })
        ∧ (woken.kernel.currentThread = 1
          ∧ woken.kernel.semaphores 1 = some { value := 1, queue := [] }
          ∧ (woken.ledgers 1).woken = [0])
        ∧ returned.kernel.currentThread = 0
        ∧ returned.kernel.semaphores 1 = some { value := 0, queue := [] }
        ∧ returned.inside 0 = [0] := by
  obtain ⟨first, started, safe⟩ := safe_semaphores_and_locks 0 0 false
  have tested
      : ((Kernel.initial 0 0 false).toOption.bind fun first =>
          (Runs.follow next waits (start first)).bind fun waiting =>
            (Runs.follow next signals waiting).bind fun woken =>
              (Runs.follow next goesOn woken).map fun returned => (waiting, woken, returned)).any
          (fun states =>
            decide
              ((states.1.kernel.currentThread = 0
                ∧ states.1.kernel.semaphores 1 = some { value := 0, queue := [0] }
                ∧ states.1.locks 0 = some { semaphore := 0, lockHolder := some 0 })
              ∧ (states.2.1.kernel.currentThread = 1
                ∧ states.2.1.kernel.semaphores 1 = some { value := 1, queue := [] }
                ∧ (states.2.1.ledgers 1).woken = [0])
              ∧ states.2.2.kernel.currentThread = 0
              ∧ states.2.2.kernel.semaphores 1 = some { value := 0, queue := [] }
              ∧ states.2.2.inside 0 = [0])) := by
    decide +kernel
  obtain ⟨⟨waiting, woken, returned⟩, followed, passed⟩ := (Option.any_eq_true _ _).mp tested
  rw [started] at followed
  change (Runs.follow next waits (start first)).bind _ = _ at followed
  obtain ⟨_, led, followed⟩ := Option.bind_eq_some_iff.mp followed
  obtain ⟨_, more, followed⟩ := Option.bind_eq_some_iff.mp followed
  obtain ⟨_, rest, same⟩ := Option.map_eq_some_iff.mp followed
  cases same
  obtain ⟨before, only⟩ := reachable_of_follow (fun _ _ => rfl) led
  obtain ⟨between, only⟩ := reachable_of_follow only more
  obtain ⟨after, _⟩ := reachable_of_follow only rest
  have all : waiting.Safe ∧ woken.Safe ∧ returned.Safe :=
    ⟨
      safe _ before,
      safe _ (before.trans between),
      safe _ ((before.trans between).trans after)
    ⟩
  exact ⟨first, waiting, woken, returned, started, before, between, after, all,
    of_decide_eq_true passed⟩

end Synch

end Nachos.Threads
