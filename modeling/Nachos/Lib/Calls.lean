/-! Sequences of calls that answer and may fail, and what they do on an abstract state that
answers each call in the same way.
-/

namespace Calls

variable {σ τ ω ρ ε : Type}

/-- The answers of calls, made one after the other up to the first failure, and the state after
them.
-/
def performAll (perform : σ → ω → Except ε (ρ × σ)) : List ω → σ → Except ε (List ρ × σ)
  | [], state => return ([], state)
  | call :: calls, state => do
      let (answer, next) ← perform state call
      let (answers, final) ← performAll perform calls next
      return (answer :: answers, final)

/-- The answers of calls that do not fail, and the state after them. -/
def applyAll (apply : τ → ω → ρ × τ) : List ω → τ → List ρ × τ
  | [], state => ([], state)
  | call :: calls, state =>
      let (answer, next) := apply state call
      let (answers, final) := applyAll apply calls next
      (answer :: answers, final)

/-- The calls on the one state do what the same calls do on the other. -/
def Simulates (perform : σ → ω → Except ε (ρ × σ)) (apply : τ → ω → ρ × τ)
    (related : σ → τ → Prop)
    : Prop :=
  ∀ {state : σ} {image : τ} (call : ω),
    related state image
    → ∃ after,
        perform state call = .ok ((apply image call).1, after)
        ∧ related after (apply image call).2

variable {perform : σ → ω → Except ε (ρ × σ)} {apply : τ → ω → ρ × τ} {related : σ → τ → Prop}
  {state : σ} {image : τ}

/-- Sequences of calls answer in the same way, by induction on them. -/
theorem Simulates.performAll (simulates : Simulates perform apply related)
    (initial : related state image) (calls : List ω)
    : ∃ final,
        performAll perform calls state = .ok ((applyAll apply calls image).1, final)
        ∧ related final (applyAll apply calls image).2 := by
  induction calls generalizing state image with
  | nil => exact ⟨state, rfl, initial⟩
  | cons call calls ih =>
      obtain ⟨next, answered, kept⟩ := simulates call initial
      obtain ⟨final, others, last⟩ := ih kept
      refine ⟨final, ?_, last⟩
      rw [Calls.performAll, answered]
      change (Calls.performAll perform calls next >>= _) = _
      rw [others]
      rfl

end Calls
