/-! Stateful routines that may stop on a fault. The state reached so far survives a fault,
as memory and disk survive a failed assertion of the program that was using them.
-/

namespace Routines

/-- A routine over the state `σ` returns a value or stops with a fault `ε`. -/
def Routine (ε σ α : Type) : Type := σ → Except ε α × σ

namespace Routine

variable {ε σ α β : Type}

/-- The outcome and final state of a routine started in `state`. -/
def run (routine : Routine ε σ α) (state : σ) : Except ε α × σ := routine state

/-- Sequencing stops at the first fault and keeps the state in which it occurred. -/
def bind (first : Routine ε σ α) (next : α → Routine ε σ β) : Routine ε σ β :=
  fun state =>
    match first state with
    | (.ok value, after) => next value after
    | (.error fault, after) => (.error fault, after)

instance : Monad (Routine ε σ) where
  pure value := fun state => (.ok value, state)
  bind := bind

instance : MonadExceptOf ε (Routine ε σ) where
  throw fault := fun state => (.error fault, state)
  tryCatch routine handler := fun state =>
    match routine state with
    | (.ok value, after) => (.ok value, after)
    | (.error fault, after) => handler fault after

/-- Read the state without changing it. -/
def get : Routine ε σ σ := fun state => (.ok state, state)

/-- Replace the state. -/
def set (state : σ) : Routine ε σ Unit := fun _ => (.ok (), state)

/-- A stateless computation runs without touching the state. -/
def lift (outcome : Except ε α) : Routine ε σ α := fun state => (outcome, state)

/-- Run a routine on a part of a larger state. -/
def onPart {τ : Type} (part : σ → τ) (put : σ → τ → σ) (routine : Routine ε τ α)
    : Routine ε σ α :=
  fun state =>
    let (outcome, after) := routine (part state)
    (outcome, put state after)

/-- Continue when the condition holds, otherwise stop with the fault. -/
def assert (condition : Prop) [Decidable condition] (fault : ε) : Routine ε σ Unit :=
  if condition then pure () else throw fault

@[simp]
theorem run_pure (value : α) (state : σ)
    : (pure value : Routine ε σ α).run state = (.ok value, state) :=
  rfl

@[simp]
theorem run_throw (fault : ε) (state : σ)
    : (throw fault : Routine ε σ α).run state = (.error fault, state) :=
  rfl

@[simp]
theorem run_get (state : σ) : (get : Routine ε σ σ).run state = (.ok state, state) := rfl

@[simp]
theorem run_set (next state : σ) : (set next : Routine ε σ Unit).run state = (.ok (), next) :=
  rfl

@[simp]
theorem run_lift (outcome : Except ε α) (state : σ)
    : (lift outcome : Routine ε σ α).run state = (outcome, state) :=
  rfl

theorem run_onPart {τ : Type} (part : σ → τ) (put : σ → τ → σ) (routine : Routine ε τ α)
    (state : σ)
    : (onPart part put routine).run state
      = ((routine.run (part state)).1, put state (routine.run (part state)).2) :=
  rfl

@[simp]
theorem run_assert_of {condition : Prop} [Decidable condition] (holds : condition)
    (fault : ε) (state : σ)
    : (assert condition fault : Routine ε σ Unit).run state = (.ok (), state) := by
  simp [assert, holds]

@[simp]
theorem run_assert_not {condition : Prop} [Decidable condition] (fails : ¬condition)
    (fault : ε) (state : σ)
    : (assert condition fault : Routine ε σ Unit).run state = (.error fault, state) := by
  simp [assert, fails]

/-- A first part that returns hands its value and state to the rest. -/
theorem run_bind_ok {first : Routine ε σ α} {state after : σ} {value : α}
    (returned : first.run state = (.ok value, after)) (next : α → Routine ε σ β)
    : (first >>= next).run state = (next value).run after := by
  change bind first next state = next value after
  simp only [run] at returned
  simp only [bind, returned]

/-- A first part that faults ends the whole routine in the same state. -/
theorem run_bind_error {first : Routine ε σ α} {state after : σ} {fault : ε}
    (stopped : first.run state = (.error fault, after)) (next : α → Routine ε σ β)
    : (first >>= next).run state = (.error fault, after) := by
  change bind first next state = (.error fault, after)
  simp only [run] at stopped
  simp only [bind, stopped]

/-- Only the run of the first part matters to a sequence. -/
theorem run_bind_congr {first other : Routine ε σ α} {state : σ}
    (same : first.run state = other.run state) (next : α → Routine ε σ β)
    : (first >>= next).run state = (other >>= next).run state := by
  change bind first next state = bind other next state
  simp only [run] at same
  simp only [bind, same]

/-- A sequence that returned has a first part that returned, by cases on its outcome. -/
theorem of_run_bind_ok {first : Routine ε σ α} {next : α → Routine ε σ β}
    {state final : σ} {result : β}
    (returned : (first >>= next).run state = (.ok result, final))
    : ∃ value after,
        first.run state = (.ok value, after)
        ∧ (next value).run after = (.ok result, final) := by
  cases outcome : first.run state with
  | mk value after =>
      cases value with
      | ok value => exact ⟨value, after, rfl, by rw [← run_bind_ok outcome next, returned]⟩
      | error fault => simp [run_bind_error outcome next] at returned

-----------------------------------------------------------------------------------------
-- Properties that every run keeps
-----------------------------------------------------------------------------------------

/-- A property of the state survives the routine, whether it returns or faults. -/
def Keeps (property : σ → Prop) (routine : Routine ε σ α) : Prop :=
  ∀ state, property state → property (routine.run state).2

variable {property : σ → Prop}

theorem keeps_pure (value : α) : Keeps property (pure value : Routine ε σ α) :=
  fun _ holds => holds

theorem keeps_throw (fault : ε) : Keeps property (throw fault : Routine ε σ α) :=
  fun _ holds => holds

theorem keeps_get : Keeps property (get : Routine ε σ σ) := fun _ holds => holds

theorem keeps_lift (outcome : Except ε α) : Keeps property (lift outcome : Routine ε σ α) :=
  fun _ holds => holds

theorem keeps_assert (condition : Prop) [Decidable condition] (fault : ε)
    : Keeps property (assert condition fault : Routine ε σ Unit) := by
  intro state holds
  by_cases passes : condition
  · rwa [run_assert_of passes]
  · rwa [run_assert_not passes]

/-- A sequence keeps what both parts keep; the rest only needs to for values that the first
part returned.
-/
theorem keeps_bind_of {first : Routine ε σ α} {next : α → Routine ε σ β}
    (firstKeeps : Keeps property first)
    (nextKeeps
      : ∀ value state after,
          property state → first.run state = (.ok value, after) → property after
          → property ((next value).run after).2)
    : Keeps property (first >>= next) := by
  intro state holds
  have kept := firstKeeps state holds
  cases outcome : first.run state with
  | mk result after =>
      rw [outcome] at kept
      cases result with
      | ok value =>
          rw [run_bind_ok outcome]
          exact nextKeeps value state after holds outcome kept
      | error fault => rwa [run_bind_error outcome]

theorem keeps_bind {first : Routine ε σ α} {next : α → Routine ε σ β}
    (firstKeeps : Keeps property first) (nextKeeps : ∀ value, Keeps property (next value))
    : Keeps property (first >>= next) :=
  keeps_bind_of firstKeeps (fun value _ after _ _ kept => nextKeeps value after kept)

/-- A routine that first reads the state. -/
theorem keeps_get_bind {next : σ → Routine ε σ α}
    (kept : ∀ state, property state → property ((next state).run state).2)
    : Keeps property (get >>= next) :=
  fun state holds => kept state holds

/-- A first part that keeps every property leaves the state to the rest as it was. -/
theorem of_run_bind_ok_reading {first : Routine ε σ α} {next : α → Routine ε σ β}
    {state final : σ} {result : β} (reading : ∀ property, Keeps property first)
    (returned : (first >>= next).run state = (.ok result, final))
    : ∃ value,
        first.run state = (.ok value, state)
        ∧ (next value).run state = (.ok result, final) := by
  obtain ⟨value, after, ran, rest⟩ := of_run_bind_ok returned
  have same : after = state := by
    have kept := reading (· = state) state rfl
    rwa [ran] at kept
  subst same
  exact ⟨value, ran, rest⟩

theorem keeps_ite {condition : Prop} [Decidable condition] {left right : Routine ε σ α}
    (leftKeeps : Keeps property left) (rightKeeps : Keeps property right)
    : Keeps property (if condition then left else right) := by
  split
  · exact leftKeeps
  · exact rightKeeps

-----------------------------------------------------------------------------------------
-- Properties of every value that is returned
-----------------------------------------------------------------------------------------

/-- What the routine returns has a property. -/
def Yields (property : α → Prop) (routine : Routine ε σ α) : Prop :=
  ∀ state value after, routine.run state = (.ok value, after) → property value

variable {returned : α → Prop}

theorem yields_pure {value : α} (holds : returned value)
    : Yields returned (pure value : Routine ε σ α) := by
  intro _ _ _ ran
  exact Except.ok.inj (congrArg Prod.fst ran) ▸ holds

theorem yields_throw (fault : ε) : Yields returned (throw fault : Routine ε σ α) := by
  intro _ _ _ ran
  cases congrArg Prod.fst ran

theorem yields_bind {first : Routine ε σ β} {next : β → Routine ε σ α}
    (rest : ∀ value, Yields returned (next value))
    : Yields returned (first >>= next) := by
  intro _ _ _ ran
  obtain ⟨value, after, _, last⟩ := of_run_bind_ok ran
  exact rest value after _ _ last

theorem yields_ite {condition : Prop} [Decidable condition] {left right : Routine ε σ α}
    (leftYields : Yields returned left) (rightYields : Yields returned right)
    : Yields returned (if condition then left else right) := by
  split
  · exact leftYields
  · exact rightYields

end Routine

end Routines
