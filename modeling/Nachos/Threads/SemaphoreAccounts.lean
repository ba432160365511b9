import Nachos.Threads.SemaphoreEffects

/-! The value of every semaphore against the calls of `P` and `V` so far, and the threads that
were woken up against those that still sleep.
-/

namespace Nachos.Threads

namespace Kernel

-----------------------------------------------------------------------------------------
-- Ledgers
-----------------------------------------------------------------------------------------

/-- What happened to a semaphore so far, kept for reference only. -/
structure Ledger where
  initialValue : Int
  /-- The calls of `V`. -/
  signalled : Nat
  /-- The calls of `P` that got through. -/
  completed : Nat
  /-- The threads that a `V` made ready and that did not test the value again. -/
  woken : List ThreadId

namespace Ledger

def new (initialValue : Int) : Ledger :=
  { initialValue, signalled := 0, completed := 0, woken := [] }

/-- The entry for one action. A thread that tests the value is no longer woken up, and it got
through `P` when it leaves that call. `V` wakes up the front of the queue.
-/
def record (kernel : Kernel) (action : Action) (after : Kernel) (s : SemaphoreId)
    (ledger : Ledger)
    : Ledger :=
  match action with
  | .call (.semaphore made initialValue) => if made = s then new initialValue else ledger
  | _ =>
      if kernel.tests action = some s then
        {
          ledger with
          completed :=
            if s ∈ semaphoresOf (after.calls kernel.currentThread) then ledger.completed
            else ledger.completed + 1
          woken := ledger.woken.erase kernel.currentThread
        }
      else if action.signals = some s then
        {
          ledger with
          signalled := ledger.signalled + 1
          woken :=
            ledger.woken
              ++ ((kernel.semaphores s).elim [] (fun semaphore => semaphore.queue.take 1))
        }
      else ledger

variable {kernel after : Kernel} {action : Action} {s : SemaphoreId} {ledger : Ledger}

/-- A test of P is recorded: the call is completed, or it is still inside. -/
theorem record_of_tests (tested : kernel.tests action = some s)
    : ledger.record kernel action after s
      = {
          ledger with
          completed :=
            if s ∈ semaphoresOf (after.calls kernel.currentThread) then ledger.completed
            else ledger.completed + 1
          woken := ledger.woken.erase kernel.currentThread
        } := by
  unfold record
  split
  · exact nomatch tested
  · exact if_pos tested

/-- A V is recorded with the thread that it wakes. -/
theorem record_of_signals (untested : kernel.tests action = none)
    (signals : action.signals = some s)
    : ledger.record kernel action after s
      = {
          ledger with
          signalled := ledger.signalled + 1
          woken :=
            ledger.woken
              ++ ((kernel.semaphores s).elim [] (fun semaphore => semaphore.queue.take 1))
        } := by
  unfold record
  split
  · exact nomatch signals
  · rw [if_neg (by simp [untested]), if_pos signals]

/-- Actions on other semaphores leave the ledger alone. -/
theorem record_of_other (untested : kernel.tests action ≠ some s)
    (unsignalled : action.signals ≠ some s)
    (unmade : ∀ initialValue, action ≠ .call (.semaphore s initialValue))
    : ledger.record kernel action after s = ledger := by
  unfold record
  split
  · rename_i made initialValue
    refine if_neg (fun same => unmade initialValue ?_)
    rw [same]
  · rw [if_neg untested, if_neg unsignalled]

end Ledger

-----------------------------------------------------------------------------------------
-- One semaphore
-----------------------------------------------------------------------------------------

/-- A semaphore against its ledger. -/
structure Balanced (kernel : Kernel) (s : SemaphoreId) (semaphore : Semaphore)
    (ledger : Ledger)
    : Prop where
  value : semaphore.value = ledger.initialValue + ledger.signalled - ledger.completed
  nonneg : 0 ≤ ledger.initialValue → 0 ≤ semaphore.value
  /-- The queue holds the threads inside `P` that wait. -/
  queued : ∀ t, t ∈ semaphore.queue ↔ kernel.InP s t ∧ kernel.Waits t
  /-- The others inside `P` were woken up. -/
  woken : ∀ t, t ∈ ledger.woken ↔ kernel.InP s t ∧ ¬kernel.Waits t
  distinct : ledger.woken.Nodup
  /-- No wake-up is lost: while threads sleep, every unit has a woken thread on its way. -/
  covered : semaphore.queue ≠ [] → semaphore.value ≤ ledger.woken.length

/-- Every semaphore is balanced. -/
def Accounts (kernel : Kernel) (ledgers : SemaphoreId → Ledger) : Prop :=
  ∀ s semaphore, kernel.semaphores s = some semaphore → Balanced kernel s semaphore (ledgers s)

variable {kernel after : Kernel} {action : Action} {s : SemaphoreId} {t : ThreadId}
  {semaphore : Semaphore} {ledger : Ledger} {ledgers : SemaphoreId → Ledger}

/-- Threads inside `P` of other semaphores do not matter. -/
theorem Balanced.congr (balanced : Balanced kernel s semaphore ledger)
    (inP : ∀ t, after.InP s t ↔ kernel.InP s t)
    (waits : ∀ t, kernel.InP s t → (after.Waits t ↔ kernel.Waits t))
    : Balanced after s semaphore ledger := by
  refine { balanced with queued := fun t => ?_, woken := fun t => ?_ }
  · rw [balanced.queued, inP]
    exact and_congr_right (fun inside => (waits t inside).symm)
  · rw [balanced.woken, inP]
    exact and_congr_right (fun inside => not_congr (waits t inside).symm)

theorem Balanced.settled (balanced : Balanced kernel s semaphore ledger)
    (settled : Settled kernel after)
    : Balanced after s semaphore ledger :=
  balanced.congr (settled.inP s) (fun t _ => settled.waits t)

/-- A semaphore that nobody used yet. -/
theorem balanced_new (initialValue : Int) (unused : ∀ t, ¬kernel.InP s t)
    : Balanced kernel s { value := initialValue, queue := [] } (.new initialValue) where
  value := by simp [Ledger.new]
  nonneg := id
  queued t := iff_of_false List.not_mem_nil (fun inside => unused t inside.1)
  woken t := iff_of_false List.not_mem_nil (fun inside => unused t inside.1)
  distinct := List.nodup_nil
  covered some := absurd rfl some

/-- A thread that runs took one unit. -/
theorem Balanced.passed (balanced : Balanced kernel s semaphore ledger)
    (some : semaphore.value ≠ 0) (runs : ¬kernel.Waits t)
    (inP : ∀ u, after.InP s u ↔ kernel.InP s u ∧ u ≠ t)
    (waits : ∀ u, after.Waits u ↔ kernel.Waits u)
    : Balanced after s { semaphore with value := semaphore.value - 1 }
        {
          ledger with
          completed := ledger.completed + 1
          woken := ledger.woken.erase t
        } where
  value := by
    have value := balanced.value
    dsimp only
    push_cast
    omega
  nonneg initial := by
    have nonneg := balanced.nonneg initial
    dsimp only
    omega
  queued u := by
    rw [balanced.queued, inP, waits]
    refine ⟨fun queued => ⟨⟨queued.1, ?_⟩, queued.2⟩, fun queued => ⟨queued.1.1, queued.2⟩⟩
    rintro rfl
    exact runs queued.2
  woken u := by
    rw [balanced.distinct.mem_erase_iff, balanced.woken, inP, waits]
    tauto
  distinct := balanced.distinct.erase t
  covered waiting := by
    have covered := balanced.covered waiting
    have shorter : ledger.woken.length - 1 ≤ (ledger.woken.erase t).length := List.le_length_erase
    dsimp only
    omega

/-- A thread that runs went to sleep in the queue. -/
theorem Balanced.slept (balanced : Balanced kernel s semaphore ledger)
    (taken : semaphore.value = 0) (inP : ∀ u, after.InP s u ↔ kernel.InP s u ∨ u = t)
    (waits : ∀ u, after.Waits u ↔ kernel.Waits u ∨ u = t)
    : Balanced after s { semaphore with queue := semaphore.queue ++ [t] }
        { ledger with woken := ledger.woken.erase t } where
  value := balanced.value
  nonneg := balanced.nonneg
  queued u := by
    rw [List.mem_append, balanced.queued, List.mem_singleton, inP, waits]
    tauto
  woken u := by
    rw [balanced.distinct.mem_erase_iff, balanced.woken, inP, waits]
    tauto
  distinct := balanced.distinct.erase t
  covered _ := by
    dsimp only
    rw [taken]
    exact Int.natCast_nonneg _

/-- A unit was added while nobody slept. -/
theorem Balanced.signalled (balanced : Balanced kernel s semaphore ledger)
    (empty : semaphore.queue = []) (settled : Settled kernel after)
    : Balanced after s { semaphore with value := semaphore.value + 1 }
        { ledger with signalled := ledger.signalled + 1, woken := ledger.woken ++ [] } where
  value := by
    have value := balanced.value
    dsimp only
    push_cast
    omega
  nonneg initial := by
    have nonneg := balanced.nonneg initial
    dsimp only
    omega
  queued := (balanced.settled settled).queued
  woken := by
    rw [List.append_nil]
    exact (balanced.settled settled).woken
  distinct := by
    rw [List.append_nil]
    exact balanced.distinct
  covered waiting := absurd empty waiting

/-- A unit was added, and the first thread that slept was woken up. -/
theorem Balanced.woke {rest : List ThreadId} (balanced : Balanced kernel s semaphore ledger)
    (queue : semaphore.queue = t :: rest) (once : t ∉ rest)
    (inP : ∀ u, after.InP s u ↔ kernel.InP s u)
    (waits : ∀ u, after.Waits u ↔ kernel.Waits u ∧ u ≠ t)
    : Balanced after s { value := semaphore.value + 1, queue := rest }
        { ledger with signalled := ledger.signalled + 1, woken := ledger.woken ++ [t] } := by
  have slept := (balanced.queued t).mp (queue ▸ List.mem_cons_self ..)
  refine { value := ?_, nonneg := ?_, queued := ?_, woken := ?_, distinct := ?_, covered := ?_ }
  · have value := balanced.value
    dsimp only
    push_cast
    omega
  · intro initial
    have nonneg := balanced.nonneg initial
    dsimp only
    omega
  · intro u
    have queued := balanced.queued u
    rw [queue, List.mem_cons] at queued
    rw [inP, waits, ← and_assoc, ← queued]
    constructor
    · intro member
      refine ⟨.inr member, ?_⟩
      rintro rfl
      exact once member
    · exact fun member => member.1.resolve_left member.2
  · intro u
    rw [List.mem_append, balanced.woken, List.mem_singleton, inP, waits]
    by_cases own : u = t
    · subst own
      simp [slept.1]
    · simp [own]
  · refine List.nodup_append.mpr ⟨balanced.distinct, List.nodup_singleton t, ?_⟩
    rintro u member _ last rfl
    rw [List.mem_singleton.mp last] at member
    exact ((balanced.woken t).mp member).2 slept.2
  · intro _
    have covered := balanced.covered (by simp [queue])
    rw [List.length_append, List.length_singleton]
    dsimp only
    push_cast
    omega

-----------------------------------------------------------------------------------------
-- All semaphores
-----------------------------------------------------------------------------------------

/-- A thread that tests a semaphore is inside `P` of no other. -/
theorem Invariant.inP_of_tests {other : SemaphoreId} (invariant : kernel.Invariant)
    (legal : kernel.Legal action) (tested : kernel.tests action = some s)
    (inside : kernel.InP other kernel.currentThread)
    : other = s := by
  cases action with
  | call call =>
      have member := inside.2
      rw [legal.2.1] at member
      cases member
  | resume =>
      have running := invariant.running_of_tests legal tested
      cases frames : kernel.calls kernel.currentThread with
      | nil => exact absurd frames legal.2
      | cons frame rest =>
          simp only [tests, frames] at tested
          cases frame with
          | p own oldLevel =>
              obtain rfl := Option.some.inj tested
              refine invariant.inP_unique legal.awake inside ⟨.inr (.inr running), ?_⟩
              rw [frames]
              exact List.mem_cons_self ..
          | _ => cases tested
  | _ => cases tested

/-- A change to one semaphore leaves the others balanced. -/
theorem Accounts.update (accounts : Accounts kernel ledgers) {changed : Semaphore}
    {record : SemaphoreId → Ledger}
    (stored : after.semaphores = Function.update kernel.semaphores s (some changed))
    (own : Balanced after s changed (record s))
    (others
      : ∀ other, other ≠ s
        → record other = ledgers other
          ∧ (∀ t, after.InP other t ↔ kernel.InP other t)
          ∧ ∀ t, kernel.InP other t → (after.Waits t ↔ kernel.Waits t))
    : Accounts after record := by
  intro other semaphore found
  rw [stored] at found
  by_cases same : other = s
  · subst same
    rw [Function.update_self] at found
    exact Option.some.inj found ▸ own
  · rw [Function.update_of_ne same] at found
    obtain ⟨unchanged, inP, waits⟩ := others other same
    rw [unchanged]
    exact (accounts other semaphore found).congr inP waits

/-- Every action keeps all semaphores balanced. -/
theorem Accounts.step (accounts : Accounts kernel ledgers) (invariant : kernel.Invariant)
    (legal : kernel.Legal action) (returned : kernel.perform action = .ok after)
    : Accounts after (fun s => (ledgers s).record kernel action after s) := by
  have awake := legal.awake
  obtain ⟨leaving, sound⟩ := invariant.exists_sound
  -- No other semaphore is made by an action that tests or signals one.
  have unmade {s : SemaphoreId} (uses : kernel.tests action = some s ∨ action.signals = some s)
      (other : SemaphoreId) (initialValue : Int)
      : action ≠ .call (.semaphore other initialValue) := by
    rintro rfl
    rcases uses with used | used <;> exact nomatch used
  rcases invariant.effect legal returned with ⟨untested, unsignalled, others, same, settled⟩ |
    ⟨s, initialValue, rfl, free, stored, settled⟩ |
    ⟨s, semaphore, tested, unsignalled, found, some, stored, left, inP, waits⟩ |
    ⟨s, semaphore, tested, unsignalled, found, taken, stored, stays, inP, waits⟩ |
    ⟨s, semaphore, untested, signals, found, empty, stored, settled⟩ |
    ⟨s, semaphore, t, rest, untested, signals, found, queue, stored, inP, waits⟩
  · intro s semaphore found
    rw [same] at found
    dsimp only
    rw [Ledger.record_of_other (by simp [untested]) (by simp [unsignalled]) (others s)]
    exact (accounts s semaphore found).settled settled
  · have unused (t : ThreadId) : ¬after.InP s t := by
      intro inside
      have exist := invariant.exists_of_inP ((settled.inP s t).mp inside)
      rw [free] at exist
      exact nomatch exist
    refine accounts.update stored ?_
      (fun other apart => ⟨?_, settled.inP other, fun t _ => settled.waits t⟩)
    · rw [Ledger.record, if_pos rfl]
      exact balanced_new initialValue unused
    · rw [Ledger.record, if_neg (Ne.symm apart)]
  · have runs : ¬kernel.Waits kernel.currentThread :=
      Going.not_waits (.inr (invariant.running_of_tests legal tested))
    refine accounts.update stored ?_ (fun other apart => ⟨?_, fun t => ?_, fun t _ => waits t⟩)
    · rw [Ledger.record_of_tests tested, if_neg left]
      exact (accounts s semaphore found).passed some runs (fun u => by simp [inP]) waits
    · exact Ledger.record_of_other (by simp [tested, Ne.symm apart]) (by simp [unsignalled])
        (unmade (.inl tested) other)
    · simp [inP, apart]
  · refine accounts.update stored ?_ (fun other apart => ⟨?_, fun t => ?_, fun t inside => ?_⟩)
    · rw [Ledger.record_of_tests tested, if_pos stays]
      exact (accounts s semaphore found).slept taken (fun u => by simp [inP]) waits
    · exact Ledger.record_of_other (by simp [tested, Ne.symm apart]) (by simp [unsignalled])
        (unmade (.inl tested) other)
    · simp [inP, apart]
    · rw [waits, or_iff_left]
      rintro rfl
      exact apart (invariant.inP_of_tests legal tested inside)
  · refine accounts.update stored ?_
      (fun other apart => ⟨?_, settled.inP other, fun t _ => settled.waits t⟩)
    · have balanced := (accounts s semaphore found).signalled empty settled
      rw [Ledger.record_of_signals untested signals, found, Option.elim_some]
      rw [empty] at balanced ⊢
      exact balanced
    · exact Ledger.record_of_other (by simp [untested]) (by simp [signals, Ne.symm apart])
        (unmade (.inr signals) other)
  · have waiting := sound.waiting
    have once : t ∉ rest :=
      (List.nodup_cons.mp (queue ▸ waiting.distinct s semaphore found)).1
    have balanced := accounts s semaphore found
    refine accounts.update stored ?_
      (fun other apart => ⟨?_, inP other, fun u inside => ?_⟩)
    · rw [Ledger.record_of_signals untested signals, found, Option.elim_some, queue]
      exact balanced.woke queue once (inP s) waits
    · exact Ledger.record_of_other (by simp [untested]) (by simp [signals, Ne.symm apart])
        (unmade (.inr signals) other)
    · rw [waits, and_iff_left]
      rintro rfl
      have queued := ((balanced.queued u).mp (queue ▸ List.mem_cons_self ..)).1
      exact apart (invariant.inP_unique awake inside queued)

end Kernel

end Nachos.Threads
