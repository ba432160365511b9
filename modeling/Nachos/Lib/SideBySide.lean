import Nachos.Lib.Routine

/-! Routines run side by side from two related states. A routine that respects a relation has the
same outcome from both, and leaves them related; the relation may also say what stays as it was.
-/

namespace Routines.Routine

variable {ε σ α β : Type} {related : σ → σ → Prop}

/-- Two runs have the same outcome and end in related states. -/
def Paired (related : σ → σ → Prop) (left right : Except ε α × σ) : Prop :=
  left.1 = right.1 ∧ related left.2 right.2

/-- From related states the routine runs in pairs. -/
def Respects (related : σ → σ → Prop) (routine : Routine ε σ α) : Prop :=
  ∀ left right, related left right → Paired related (routine.run left) (routine.run right)

theorem respects_pure (value : α) : Respects related (pure value : Routine ε σ α) :=
  fun _ _ both => ⟨rfl, both⟩

theorem respects_throw (fault : ε) : Respects related (throw fault : Routine ε σ α) :=
  fun _ _ both => ⟨rfl, both⟩

/-- A pair of runs goes on as a pair; the rest may rely on what the first part returned. -/
theorem Paired.bind_of {first other : Routine ε σ α} {next : α → Routine ε σ β} {left right : σ}
    (both : Paired related (first.run left) (other.run right))
    (rest
      : ∀ value after final,
          first.run left = (.ok value, after) → other.run right = (.ok value, final)
          → related after final
          → Paired related ((next value).run after) ((next value).run final))
    : Paired related ((first >>= next).run left) ((other >>= next).run right) := by
  cases here : first.run left with
  | mk outcome after =>
      cases there : other.run right with
      | mk other final =>
          rw [here, there] at both
          obtain ⟨same, kept⟩ := both
          cases same
          cases outcome with
          | ok value =>
              rw [run_bind_ok here, run_bind_ok there]
              exact rest value _ _ here there kept
          | error fault =>
              rw [run_bind_error here, run_bind_error there]
              exact ⟨rfl, kept⟩

theorem Paired.bind {first other : Routine ε σ α} {next : α → Routine ε σ β} {left right : σ}
    (both : Paired related (first.run left) (other.run right))
    (rest : ∀ value, Respects related (next value))
    : Paired related ((first >>= next).run left) ((other >>= next).run right) :=
  both.bind_of (fun value after final _ _ kept => rest value after final kept)

theorem respects_bind {first : Routine ε σ α} {next : α → Routine ε σ β}
    (start : Respects related first) (rest : ∀ value, Respects related (next value))
    : Respects related (first >>= next) :=
  fun left right both => (start left right both).bind rest

/-- A routine that first reads the state. -/
theorem respects_get_bind {next : σ → Routine ε σ α}
    (rest
      : ∀ left right, related left right
        → Paired related ((next left).run left) ((next right).run right))
    : Respects related (get >>= next) :=
  fun left right both => rest left right both

theorem respects_ite {condition : Prop} [Decidable condition] {left right : Routine ε σ α}
    (whenTrue : Respects related left) (whenFalse : Respects related right)
    : Respects related (if condition then left else right) := by
  split
  · exact whenTrue
  · exact whenFalse

end Routines.Routine
