/-! Folds over a list that may fail: what they keep, and when they fail. -/

namespace Folds

variable {α σ ε : Type} {step : σ → α → Except ε σ} {Inv : List α → σ → Prop}
  {Stops : List α → α → Prop} {done items : List α} {state final : σ}

/-- What every step keeps, for the items that are done, holds at the end for all of them. -/
theorem of_foldlM_ok
    (keeps
      : ∀ {done state item next},
          Inv done state → step state item = .ok next → Inv (done ++ [item]) next)
    (holds : Inv done state) (ran : items.foldlM step state = .ok final)
    : Inv (done ++ items) final := by
  induction items generalizing done state with
  | nil =>
      obtain rfl := Except.ok.inj ran
      rwa [List.append_nil]
  | cons item rest ih =>
      rw [List.foldlM_cons] at ran
      cases stepped : step state item with
      | error error =>
          rw [stepped] at ran
          exact nomatch ran
      | ok next =>
          rw [stepped] at ran
          have all := ih (keeps holds stepped) ran
          rwa [List.append_assoc] at all

/-- A fold fails when one of its items stops it after those before. -/
theorem foldlM_error_iff
    (keeps
      : ∀ {done state item next},
          Inv done state → step state item = .ok next → Inv (done ++ [item]) next)
    (stops
      : ∀ {done state item},
          Inv done state → ((∃ error, step state item = .error error) ↔ Stops done item))
    (holds : Inv done state)
    : (∃ error, items.foldlM step state = .error error)
      ↔ ∃ before item after, items = before ++ item :: after ∧ Stops (done ++ before) item := by
  induction items generalizing done state with
  | nil =>
      refine iff_of_false ?_ ?_
      · rintro ⟨_, failed⟩
        exact nomatch failed
      · rintro ⟨before, item, after, split, _⟩
        simp at split
  | cons item rest ih =>
      rw [List.foldlM_cons]
      cases stepped : step state item with
      | error error =>
          refine iff_of_true ⟨error, rfl⟩ ⟨[], item, rest, rfl, ?_⟩
          rw [List.append_nil]
          exact (stops holds).mp ⟨error, stepped⟩
      | ok next =>
          have goesOn : ¬Stops done item := by
            rw [← stops holds, stepped]
            exact fun ⟨_, failed⟩ => nomatch failed
          refine (ih (keeps holds stepped)).trans ⟨?_, ?_⟩
          · rintro ⟨before, last, after, rfl, stopped⟩
            rw [List.append_assoc] at stopped
            exact ⟨item :: before, last, after, rfl, stopped⟩
          · rintro ⟨before, last, after, split, stopped⟩
            cases before with
            | nil =>
                obtain ⟨rfl, _⟩ := List.cons.inj split
                rw [List.append_nil] at stopped
                exact absurd stopped goesOn
            | cons first before =>
                obtain ⟨rfl, rfl⟩ := List.cons.inj split
                refine ⟨before, last, after, rfl, ?_⟩
                rwa [List.append_assoc]

end Folds
