import Nachos.Threads.SemaphoreAccounts

/-! Locks over semaphores, in runs of the kernel in which threads also use semaphores, fork,
yield and are interrupted as before.
-/

namespace Nachos.Threads
open Outcome

/-- The address of a lock. -/
abbrev LockId := Nat

structure Lock where
  semaphore : SemaphoreId
  lockHolder : Option ThreadId
  deriving DecidableEq

/-- The kernel with locks. -/
structure Synch where
  kernel : Kernel
  locks : LockId → Option Lock
  /-- The lock whose `Acquire` a thread is in. -/
  acquiring : ThreadId → Option LockId
  /-- The lock whose `Release` a thread is in. -/
  releasing : ThreadId → Option LockId
  /-- Kept for reference only. -/
  ledgers : SemaphoreId → Kernel.Ledger
  /-- The threads between the return of `Acquire` and the call of `Release`, for reference. -/
  inside : LockId → List ThreadId

namespace Synch

inductive Action where
  | kernel (action : Kernel.Action)
  /-- The constructor of a lock, with the address of its semaphore. -/
  | new (l : LockId) (s : SemaphoreId)
  /-- `Acquire`, up to its call of `P`. -/
  | acquire (l : LockId)
  /-- `Acquire` after its call of `P`. -/
  | acquired
  /-- `Release`, up to its call of `V`. -/
  | release (l : LockId)
  /-- `V` in `Release`. -/
  | released

/-- The semaphore that an action calls. -/
def calls : Kernel.Action → Option SemaphoreId
  | .call (.p s) | .call (.v s) | .device s => some s
  | _ => none

/-- The current thread runs, and is not inside a call of the kernel. -/
def Runs (state : Synch) : Prop :=
  state.kernel.control = .thread ∧ state.kernel.calls state.kernel.currentThread = []

/-- The current thread is not inside `Acquire` or `Release`. -/
def Own (state : Synch) : Prop :=
  state.acquiring state.kernel.currentThread = none
  ∧ state.releasing state.kernel.currentThread = none

/-- A thread calls only `P` and `V` of semaphores that no lock has. Time may pass before any
statement of `Acquire` and `Release`, too.
-/
def Legal (state : Synch) : Action → Prop
  | .kernel action =>
      state.kernel.Legal action
      ∧ (∀ call, action = .call call → state.Own ∨ call = .oneTick)
      ∧ ∀ s, calls action = some s → ∀ l lock, state.locks l = some lock → lock.semaphore ≠ s
  | .new l s =>
      state.Own ∧ state.locks l = none ∧ state.kernel.Legal (.call (.semaphore s 1))
  | .acquire l | .release l => state.Runs ∧ state.Own ∧ (state.locks l).isSome
  | .acquired => state.Runs ∧ state.acquiring state.kernel.currentThread ≠ none
  | .released => state.Runs ∧ state.releasing state.kernel.currentThread ≠ none

/-- Dereference a pointer to a lock. -/
def lookup (l : LockId) (state : Synch) : Except Fault Lock :=
  match state.locks l with
  | some lock => .ok lock
  | none => .error .danglingPointer

def setLockHolder (l : LockId) (lock : Lock) (lockHolder : Option ThreadId) (state : Synch)
    : Synch :=
  { state with locks := Function.update state.locks l (some { lock with lockHolder }) }

/-- An action of the kernel, with its entries in the ledgers. -/
def act (action : Kernel.Action) (state : Synch) : Except Fault Synch := do
  let kernel ← state.kernel.perform action
  return {
    state with
    kernel
    ledgers := fun s => (state.ledgers s).record state.kernel action kernel s
  }

def isHeldByCurrentThread (state : Synch) (lock : Lock) : Prop :=
  lock.lockHolder = some state.kernel.currentThread

instance (state : Synch) (lock : Lock) : Decidable (state.isHeldByCurrentThread lock) :=
  inferInstanceAs (Decidable (_ = _))

def perform (state : Synch) : Action → Except Fault Synch
  | .kernel action => state.act action
  | .new l s => do
      let made ← state.act (.call (.semaphore s 1))
      return {
        made with
        locks := Function.update made.locks l (some { semaphore := s, lockHolder := none })
        inside := Function.update made.inside l []
      }
  | .acquire l => do
      let lock ← state.lookup l
      let called ← state.act (.call (.p lock.semaphore))
      return {
        called with
        acquiring :=
          Function.update called.acquiring state.kernel.currentThread (some l)
      }
  | .acquired => do
      let current := state.kernel.currentThread
      match state.acquiring current with
      | none => return state
      | some l =>
          let lock ← state.lookup l
          return {
            state.setLockHolder l lock (some current) with
            acquiring := Function.update state.acquiring current none
            inside := Function.update state.inside l (current :: state.inside l)
          }
  | .release l => do
      let current := state.kernel.currentThread
      let lock ← state.lookup l
      require (state.isHeldByCurrentThread lock) .assertion
      return {
        state.setLockHolder l lock none with
        releasing := Function.update state.releasing current (some l)
        inside := Function.update state.inside l ((state.inside l).erase current)
      }
  | .released => do
      let current := state.kernel.currentThread
      match state.releasing current with
      | none => return state
      | some l =>
          let lock ← state.lookup l
          let released ← state.act (.call (.v lock.semaphore))
          return {
            released with
            releasing := Function.update released.releasing current none
          }

/-- A step by a legal action that returns. -/
def Step (state : Synch) (action : Action) (after : Synch) : Prop :=
  state.Legal action ∧ state.perform action = .ok after

/-- No lock was made yet. -/
def start (kernel : Kernel) : Synch where
  kernel := kernel
  locks _ := none
  acquiring _ := none
  releasing _ := none
  ledgers _ := .new 0
  inside _ := []

-----------------------------------------------------------------------------------------
-- What always holds
-----------------------------------------------------------------------------------------

/-- Which thread has the semaphore of a lock, and where it is. -/
inductive Owner where
  | free
  /-- In `Acquire`, before `lockHolder` is set. -/
  | passed (t : ThreadId)
  | held (t : ThreadId)
  /-- In `Release`, before `V`. -/
  | leaving (t : ThreadId)
  deriving DecidableEq

def Owner.holder : Owner → Option ThreadId
  | .held t => some t
  | .free | .passed _ | .leaving _ => none

/-- One lock, by its owner. -/
structure Guarded (state : Synch) (l : LockId) (lock : Lock) (owner : Owner) : Prop where
  value
    : ∃ semaphore,
        state.kernel.semaphores lock.semaphore = some semaphore
        ∧ semaphore.value = if owner = .free then 1 else 0
  holder : lock.lockHolder = owner.holder
  acquiring
    : ∀ t, state.acquiring t = some l
      ↔ state.kernel.InP lock.semaphore t ∨ owner = .passed t
  through : ∀ t, owner = .passed t → ¬state.kernel.InP lock.semaphore t
  releasing : ∀ t, state.releasing t = some l ↔ owner = .leaving t
  inside : state.inside l = owner.holder.toList

/-- The semaphores are balanced, and every lock has its own, which guards it. -/
structure Sound (state : Synch) : Prop where
  kernel : state.kernel.Invariant
  accounts : state.kernel.Accounts state.ledgers
  apart
    : ∀ l1 l2 lock1 lock2, state.locks l1 = some lock1 → state.locks l2 = some lock2
      → lock1.semaphore = lock2.semaphore → l1 = l2
  exist
    : ∀ t l, state.acquiring t = some l ∨ state.releasing t = some l
      → (state.locks l).isSome
  guarded : ∀ l lock, state.locks l = some lock → ∃ owner, Guarded state l lock owner

variable {state after : Synch} {kernel : Kernel} {action : Kernel.Action} {l : LockId}
  {lock : Lock} {owner : Owner} {s : SemaphoreId} {semaphore : Semaphore}

-----------------------------------------------------------------------------------------
-- Actions of the kernel
-----------------------------------------------------------------------------------------

/-- The value of a semaphore and the threads inside its `P` are the same. -/
structure Kept (before after : Kernel) (s : SemaphoreId) : Prop where
  value
    : ∀ semaphore, before.semaphores s = some semaphore
      → ∃ changed, after.semaphores s = some changed ∧ changed.value = semaphore.value
  inP : ∀ t, after.InP s t ↔ before.InP s t

theorem Kept.refl (kernel : Kernel) (s : SemaphoreId) : Kept kernel kernel s where
  value semaphore found := ⟨semaphore, found, rfl⟩
  inP _ := .rfl

theorem Kept.of_other {before : Kernel} {other : SemaphoreId} {changed : Semaphore}
    (stored : kernel.semaphores = Function.update before.semaphores other (some changed))
    (apart : s ≠ other) (inP : ∀ t, kernel.InP s t ↔ before.InP s t)
    : Kept before kernel s := by
  refine ⟨fun semaphore found => ⟨semaphore, ?_, rfl⟩, inP⟩
  rw [stored, Function.update_of_ne apart, found]

/-- A thread that tests a semaphore without calling its `P` goes on inside it. -/
theorem inP_of_tests {before : Kernel} (invariant : before.Invariant)
    (legal : before.Legal action) (tested : before.tests action = some s)
    (uncalled : calls action ≠ some s)
    : before.InP s before.currentThread := by
  refine ⟨.inr (.inr (invariant.running_of_tests legal tested)), ?_⟩
  cases action with
  | resume =>
      simp only [Kernel.tests] at tested
      split at tested
      · rename_i own oldLevel rest frames
        obtain rfl := Option.some.inj tested
        rw [frames]
        exact List.mem_cons_self ..
      · cases tested
  | call call =>
      cases call with
      | p own => exact absurd tested uncalled
      | _ => cases tested
  | _ => cases tested

/-- An action that does not call a semaphore can only let a thread get through its `P`. -/
theorem kept_or_passed {before : Kernel} (invariant : before.Invariant)
    (legal : before.Legal action) (returned : before.perform action = .ok kernel)
    (found : before.semaphores s = some semaphore) (uncalled : calls action ≠ some s)
    : Kept before kernel s
      ∨ (semaphore.value ≠ 0
          ∧ before.InP s before.currentThread
          ∧ kernel.semaphores s = some { semaphore with value := semaphore.value - 1 }
          ∧ ∀ t, kernel.InP s t ↔ before.InP s t ∧ t ≠ before.currentThread) := by
  have called {s : SemaphoreId} (signals : action.signals = some s) : calls action = some s := by
    cases action with
    | call call => cases call <;> first | exact signals | exact nomatch signals
    | device own => exact signals
    | _ => exact nomatch signals
  rcases invariant.effect legal returned with ⟨_, _, _, same, settled⟩ |
    ⟨own, _, _, free, stored, settled⟩ |
    ⟨own, other, tested, _, ownFound, some, stored, _, inP, _⟩ |
    ⟨own, other, tested, _, ownFound, taken, stored, _, inP, _⟩ |
    ⟨own, other, _, signals, ownFound, _, stored, settled⟩ |
    ⟨own, other, _, _, _, signals, ownFound, _, stored, inP, _⟩
  · exact .inl ⟨fun semaphore found => ⟨semaphore, same ▸ found, rfl⟩, settled.inP s⟩
  · refine .inl (.of_other stored ?_ (settled.inP s))
    rintro rfl
    exact nomatch free.symm.trans found
  · by_cases apart : s = own
    · subst apart
      obtain rfl := Option.some.inj (found.symm.trans ownFound)
      refine .inr ⟨some, inP_of_tests invariant legal tested uncalled, ?_, fun t => ?_⟩
      · rw [stored, Function.update_self]
      · simp [inP]
    · exact .inl (.of_other stored apart (fun t => by simp [inP, apart]))
  · by_cases apart : s = own
    · subst apart
      have inside := inP_of_tests invariant legal tested uncalled
      refine .inl ⟨fun semaphore found => ⟨_, by rw [stored, Function.update_self], ?_⟩,
        fun t => ?_⟩
      · rw [Option.some.inj (found.symm.trans ownFound)]
      · rw [inP, or_iff_left_of_imp]
        rintro ⟨_, rfl⟩
        exact inside
    · exact .inl (.of_other stored apart (fun t => by simp [inP, apart]))
  · refine .inl (.of_other stored ?_ (settled.inP s))
    rintro rfl
    exact uncalled (called signals)
  · refine .inl (.of_other stored ?_ (inP s))
    rintro rfl
    exact uncalled (called signals)

-----------------------------------------------------------------------------------------
-- One lock
-----------------------------------------------------------------------------------------

/-- A lock whose semaphore is left alone. -/
theorem Guarded.congr (guarded : Guarded state l lock owner)
    (kept : Kept state.kernel after.kernel lock.semaphore)
    (acquiring : ∀ t, after.acquiring t = some l ↔ state.acquiring t = some l)
    (releasing : ∀ t, after.releasing t = some l ↔ state.releasing t = some l)
    (inside : after.inside l = state.inside l)
    : Guarded after l lock owner where
  value := by
    obtain ⟨semaphore, found, value⟩ := guarded.value
    obtain ⟨changed, now, same⟩ := kept.value semaphore found
    exact ⟨changed, now, same.trans value⟩
  holder := guarded.holder
  acquiring t := by rw [acquiring, guarded.acquiring, kept.inP]
  through t own := by
    rw [kept.inP]
    exact guarded.through t own
  releasing t := by rw [releasing, guarded.releasing]
  inside := inside.trans guarded.inside

/-- A thread got through `P` of a lock that was free. -/
theorem Guarded.through_p (guarded : Guarded state l lock owner)
    (found : state.kernel.semaphores lock.semaphore = some semaphore)
    (some : semaphore.value ≠ 0) {t : ThreadId}
    (stored
      : after.kernel.semaphores lock.semaphore
        = Option.some { semaphore with value := semaphore.value - 1 })
    (inP
      : ∀ u, after.kernel.InP lock.semaphore u ↔ state.kernel.InP lock.semaphore u ∧ u ≠ t)
    (acquiring
      : ∀ u, after.acquiring u = Option.some l ↔ state.acquiring u = Option.some l ∨ u = t)
    (releasing
      : ∀ u, after.releasing u = Option.some l ↔ state.releasing u = Option.some l)
    (inside : after.inside l = state.inside l)
    : Guarded after l lock (.passed t) := by
  obtain ⟨_, ownFound, value⟩ := guarded.value
  obtain rfl := Option.some.inj (found.symm.trans ownFound)
  have free : owner = .free := by
    by_contra taken
    exact some (value.trans (if_neg taken))
  subst free
  refine {
    value := ⟨_, stored, ?_⟩
    holder := guarded.holder
    acquiring := fun u => ?_
    through := fun u same => ?_
    releasing := fun u => ?_
    inside := inside.trans guarded.inside
  }
  · simp [value]
  · rw [acquiring, guarded.acquiring, inP, Owner.passed.injEq]
    by_cases own : u = t
    · simp [own]
    · simp [own, Ne.symm own]
  · obtain rfl := Owner.passed.inj same
    simp [inP]
  · rw [releasing, guarded.releasing]
    exact iff_of_false nofun nofun

/-- Actions of the kernel that do not call the semaphore of a lock keep the lock. -/
theorem Guarded.act (guarded : Guarded state l lock owner)
    (invariant : state.kernel.Invariant) (legal : state.kernel.Legal action)
    (returned : state.kernel.perform action = .ok after.kernel)
    (uncalled : calls action ≠ some lock.semaphore)
    (acquiring : ∀ t, after.acquiring t = some l ↔ state.acquiring t = some l)
    (releasing : ∀ t, after.releasing t = some l ↔ state.releasing t = some l)
    (inside : after.inside l = state.inside l)
    : ∃ owner, Guarded after l lock owner := by
  obtain ⟨semaphore, found, _⟩ := guarded.value
  rcases kept_or_passed invariant legal returned found uncalled with
    kept | ⟨some, waited, stored, inP⟩
  · exact ⟨owner, guarded.congr kept acquiring releasing inside⟩
  · refine ⟨_, guarded.through_p found some stored inP (fun u => ?_) releasing inside⟩
    rw [acquiring, or_iff_left_of_imp]
    rintro rfl
    exact (guarded.acquiring _).mpr (.inl waited)

/-- A thread calls `P` of a lock in `Acquire`. -/
theorem Guarded.acquire (guarded : Guarded state l lock owner)
    (invariant : state.kernel.Invariant)
    (own : state.acquiring state.kernel.currentThread = none)
    (legal : state.kernel.Legal (.call (.p lock.semaphore)))
    (returned : state.kernel.perform (.call (.p lock.semaphore)) = .ok after.kernel)
    (acquiring
      : after.acquiring
        = Function.update state.acquiring state.kernel.currentThread (some l))
    (releasing : after.releasing = state.releasing)
    (inside : after.inside l = state.inside l)
    : ∃ owner, Guarded after l lock owner := by
  have entering (u : ThreadId)
      : after.acquiring u = some l
        ↔ state.acquiring u = some l ∨ u = state.kernel.currentThread := by
    rw [acquiring]
    by_cases same : u = state.kernel.currentThread
    · simp [same]
    · simp [same]
  rcases invariant.effect legal returned with ⟨untested, _⟩ | ⟨_, _, same, _⟩ |
    ⟨s, semaphore, tested, _, found, some, stored, _, inP, _⟩ |
    ⟨s, semaphore, tested, _, found, taken, stored, _, inP, _⟩ |
    ⟨_, _, untested, _⟩ | ⟨_, _, _, _, untested, _⟩
  · exact nomatch untested
  · exact nomatch same
  · obtain rfl := Option.some.inj tested
    refine ⟨_, guarded.through_p found some ?_ (fun u => ?_) entering (fun u => ?_) inside⟩
    · rw [stored, Function.update_self]
    · simp [inP]
    · rw [releasing]
  · obtain rfl := Option.some.inj tested
    obtain ⟨before, foundBefore, value⟩ := guarded.value
    obtain rfl := Option.some.inj (found.symm.trans foundBefore)
    have inside' (u : ThreadId)
        : after.kernel.InP lock.semaphore u
          ↔ state.kernel.InP lock.semaphore u ∨ u = state.kernel.currentThread := by
      simp [inP]
    have now := (congrFun stored lock.semaphore).trans (Function.update_self ..)
    refine ⟨owner, {
      value := ⟨_, now, value⟩
      holder := guarded.holder
      acquiring := fun u => ?_
      through := fun u same => ?_
      releasing := fun u => by rw [releasing, guarded.releasing]
      inside := inside.trans guarded.inside
    }⟩
    · rw [entering, guarded.acquiring, inside']
      tauto
    · rw [inside', not_or]
      refine ⟨guarded.through u same, ?_⟩
      rintro rfl
      have already := (guarded.acquiring _).mpr (.inr same)
      rw [own] at already
      exact nomatch already
  · exact nomatch untested
  · exact nomatch untested

/-- The thread that got through `P` becomes the holder. -/
theorem Guarded.acquired (guarded : Guarded state l lock owner)
    (calls : state.kernel.calls state.kernel.currentThread = [])
    (own : state.acquiring state.kernel.currentThread = some l)
    (kernel : after.kernel = state.kernel)
    (acquiring
      : after.acquiring
        = Function.update state.acquiring state.kernel.currentThread none)
    (releasing : after.releasing = state.releasing)
    (inside : after.inside l = state.kernel.currentThread :: state.inside l)
    : Guarded after l { lock with lockHolder := some state.kernel.currentThread }
        (.held state.kernel.currentThread) := by
  have outside : ¬state.kernel.InP lock.semaphore state.kernel.currentThread := by
    rintro ⟨_, member⟩
    rw [calls] at member
    exact List.not_mem_nil member
  obtain rfl : owner = .passed state.kernel.currentThread :=
    ((guarded.acquiring _).mp own).resolve_left outside
  obtain ⟨semaphore, found, value⟩ := guarded.value
  refine {
    value := ⟨semaphore, kernel ▸ found, value⟩
    holder := rfl
    acquiring := fun u => ?_
    through := nofun
    releasing := fun u => ?_
    inside := ?_
  }
  · rw [acquiring, kernel]
    by_cases same : u = state.kernel.currentThread
    · subst same
      simp [outside]
    · have before := guarded.acquiring u
      simpa [same, Ne.symm same] using before
  · rw [releasing, guarded.releasing]
    exact iff_of_false nofun nofun
  · rw [inside, guarded.inside]
    rfl

/-- The holder is about to signal the semaphore. -/
theorem Guarded.release (guarded : Guarded state l lock owner)
    (held : lock.lockHolder = some state.kernel.currentThread)
    (kernel : after.kernel = state.kernel) (acquiring : after.acquiring = state.acquiring)
    (releasing
      : after.releasing
        = Function.update state.releasing state.kernel.currentThread (some l))
    (inside : after.inside l = (state.inside l).erase state.kernel.currentThread)
    : Guarded after l { lock with lockHolder := none }
        (.leaving state.kernel.currentThread) := by
  obtain rfl : owner = .held state.kernel.currentThread := by
    have holder := guarded.holder.symm.trans held
    cases owner with
    | held t => exact congrArg Owner.held (Option.some.inj holder)
    | _ => exact nomatch holder
  obtain ⟨semaphore, found, value⟩ := guarded.value
  refine {
    value := ⟨semaphore, kernel ▸ found, value⟩
    holder := rfl
    acquiring := fun u => ?_
    through := nofun
    releasing := fun u => ?_
    inside := ?_
  }
  · rw [acquiring, guarded.acquiring, kernel]
    exact or_congr_right (iff_of_false nofun nofun)
  · rw [releasing]
    by_cases same : u = state.kernel.currentThread
    · simp [same]
    · have before := guarded.releasing u
      simpa [same, Ne.symm same] using before
  · rw [inside, guarded.inside]
    simp [Owner.holder]

/-- The thread in `Release` signals the semaphore. -/
theorem Guarded.released (guarded : Guarded state l lock owner)
    (invariant : state.kernel.Invariant)
    (legal : state.kernel.Legal (.call (.v lock.semaphore)))
    (own : state.releasing state.kernel.currentThread = some l)
    (returned : state.kernel.perform (.call (.v lock.semaphore)) = .ok after.kernel)
    (acquiring : after.acquiring = state.acquiring)
    (releasing
      : after.releasing
        = Function.update state.releasing state.kernel.currentThread none)
    (inside : after.inside l = state.inside l)
    : Guarded after l lock .free := by
  obtain rfl := (guarded.releasing _).mp own
  obtain ⟨semaphore, found, value⟩ := guarded.value
  have freed {changed : Semaphore}
      (stored
        : after.kernel.semaphores
          = Function.update state.kernel.semaphores lock.semaphore (some changed))
      (more : changed.value = semaphore.value + 1)
      (inP : ∀ u, after.kernel.InP lock.semaphore u ↔ state.kernel.InP lock.semaphore u)
      : Guarded after l lock .free := by
    refine {
      value := ⟨changed, ?_, ?_⟩
      holder := guarded.holder
      acquiring := fun u => ?_
      through := nofun
      releasing := fun u => ?_
      inside := inside.trans guarded.inside
    }
    · rw [stored, Function.update_self]
    · rw [more, value]
      rfl
    · rw [acquiring, guarded.acquiring, inP]
      exact or_congr_right (iff_of_false nofun nofun)
    · rw [releasing]
      by_cases same : u = state.kernel.currentThread
      · simp [same]
      · have before := guarded.releasing u
        simpa [same, Ne.symm same] using before
  rcases invariant.effect legal returned with ⟨_, unsignalled, _⟩ | ⟨_, _, same, _⟩ |
    ⟨_, _, tested, _⟩ | ⟨_, _, tested, _⟩ |
    ⟨s, changed, _, signals, ownFound, _, stored, settled⟩ |
    ⟨s, changed, t, rest, _, signals, ownFound, _, stored, inP, _⟩
  · exact nomatch unsignalled
  · exact nomatch same
  · exact nomatch tested
  · exact nomatch tested
  · obtain rfl := Option.some.inj signals
    obtain rfl := Option.some.inj (found.symm.trans ownFound)
    exact freed stored rfl (settled.inP _)
  · obtain rfl := Option.some.inj signals
    obtain rfl := Option.some.inj (found.symm.trans ownFound)
    exact freed stored rfl (inP _)

end Synch

end Nachos.Threads
