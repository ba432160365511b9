import Mathlib.Logic.Basic

/-! Finite runs of a labelled transition relation, with the rules for invariants and for
forward simulations.
-/

namespace Runs

variable {σ τ α : Type}

/-- The states and labels of finitely many steps. -/
inductive Run (step : σ → α → σ → Prop) : σ → List α → σ → Prop where
  | nil (state : σ) : Run step state [] state
  | snoc {start middle final : σ} {trace : List α} {label : α}
      (before : Run step start trace middle) (last : step middle label final)
      : Run step start (trace ++ [label]) final

/-- States that some run from `start` ends in. -/
def Reachable (step : σ → α → σ → Prop) (start final : σ) : Prop :=
  ∃ trace, Run step start trace final

variable {step : σ → α → σ → Prop} {start middle final : σ} {trace : List α}

theorem Reachable.refl (state : σ) : Reachable step state state := ⟨[], .nil state⟩

theorem Reachable.snoc {label : α} (before : Reachable step start middle)
    (last : step middle label final)
    : Reachable step start final :=
  before.elim (fun _ run => ⟨_, run.snoc last⟩)

/-- A run from where another ended, by induction on the second one. -/
theorem Reachable.trans (first : Reachable step start middle)
    (second : Reachable step middle final)
    : Reachable step start final := by
  obtain ⟨_, run⟩ := second
  induction run with
  | nil => exact first
  | snoc _ last ih => exact ih.snoc last

/-- What every step keeps, every run keeps, by induction on the run. -/
theorem Run.invariant {invariant : σ → Prop} (run : Run step start trace final)
    (initial : invariant start)
    (kept
      : ∀ state label after, invariant state → step state label after → invariant after)
    : invariant final := by
  induction run with
  | nil => exact initial
  | snoc _ last ih => exact kept _ _ _ ih last

theorem Reachable.invariant {invariant : σ → Prop} (reachable : Reachable step start final)
    (initial : invariant start)
    (kept
      : ∀ state label after, invariant state → step state label after → invariant after)
    : invariant final :=
  reachable.elim (fun _ run => run.invariant initial kept)

/-- A relation that every step can follow relates every run to one with the same labels, by
induction on the run.
-/
theorem Run.simulate {other : τ → α → τ → Prop} {related : σ → τ → Prop}
    (run : Run step start trace final) {image : τ} (initial : related start image)
    (followed
      : ∀ state label after image, related state image → step state label after
        → ∃ next, other image label next ∧ related after next)
    : ∃ next, Run other image trace next ∧ related final next := by
  induction run with
  | nil => exact ⟨image, .nil image, initial⟩
  | snoc _ last ih =>
      obtain ⟨middle, before, between⟩ := ih
      obtain ⟨next, step, after⟩ := followed _ _ _ _ between last
      exact ⟨next, before.snoc step, after⟩

/-- A step in front of a run, by induction on the run. -/
theorem Run.cons {label : α} (first : step start label middle) (run : Run step middle trace final)
    : Run step start (label :: trace) final := by
  induction run with
  | nil => exact @Run.snoc _ _ step start start _ [] _ (.nil start) first
  | snoc _ last ih => exact @Run.snoc _ _ step _ _ _ (label :: _) _ ih last

/-- Runs of a smaller relation are runs of a larger one. -/
theorem Run.mono {larger : σ → α → σ → Prop} (run : Run step start trace final)
    (within : ∀ state label after, step state label after → larger state label after)
    : Run larger start trace final := by
  induction run with
  | nil => exact .nil _
  | snoc _ last ih => exact ih.snoc (within _ _ _ last)

-----------------------------------------------------------------------------------------
-- Execution
-----------------------------------------------------------------------------------------

/-- The state after the given labels, where `next` computes steps. -/
def follow (next : σ → α → Option σ) : List α → σ → Option σ
  | [], state => some state
  | label :: rest, state => (next state label).bind (follow next rest)

/-- What computed steps lead to is reachable, by induction on the labels. -/
theorem Reachable.of_follow {next : σ → α → Option σ}
    (computed : ∀ state label after, next state label = some after → step state label after)
    {labels : List α} (before : Reachable step start middle)
    (followed : follow next labels middle = some final)
    : Reachable step start final := by
  induction labels generalizing middle with
  | nil => exact Option.some.inj followed ▸ before
  | cons label rest ih =>
      obtain ⟨after, first, others⟩ := Option.bind_eq_some_iff.mp followed
      exact ih (before.snoc (computed _ _ _ first)) others

/-- Computed steps are a run, by induction on the labels. -/
theorem Run.of_follow {next : σ → α → Option σ}
    (computed : ∀ state label after, next state label = some after → step state label after)
    {labels : List α} (followed : follow next labels start = some final)
    : Run step start labels final := by
  induction labels generalizing start with
  | nil => exact Option.some.inj followed ▸ .nil start
  | cons label rest ih =>
      obtain ⟨after, first, others⟩ := Option.bind_eq_some_iff.mp followed
      exact (ih others).cons (computed _ _ _ first)

/-- To follow two lists of labels is to follow one after the other, by induction on the first. -/
theorem follow_append (next : σ → α → Option σ) (first second : List α) (state : σ)
    : follow next (first ++ second) state = (follow next first state).bind (follow next second) := by
  induction first generalizing state with
  | nil => rfl
  | cons label rest ih =>
      rw [List.cons_append, follow, follow, Option.bind_assoc]
      exact congrArg (Option.bind _) (funext ih)

/-- A part of a system moves on its own labels, and the labels of the others leave it as it is: every
run of the system is one of the part, by induction on the run.
-/
theorem Run.project {β : Type} {next : τ → β → Option τ} {related : σ → τ → Prop}
    {own : α → Option β} (run : Run step start trace final) {image : τ}
    (initial : related start image)
    (moves
      : ∀ state label after image act, related state image → step state label after
        → own label = some act
        → ∃ moved, next image act = some moved ∧ related after moved)
    (stays
      : ∀ state label after image, related state image → step state label after
        → own label = none
        → related after image)
    : ∃ last, follow next (trace.filterMap own) image = some last ∧ related final last := by
  induction run with
  | nil => exact ⟨image, rfl, initial⟩
  | @snoc _ _ trace label _ step ih =>
      obtain ⟨middle, followed, between⟩ := ih
      rw [List.filterMap_append, follow_append, followed, Option.bind_some]
      cases act : own label with
      | none =>
          refine ⟨middle, ?_, stays _ _ _ _ between step act⟩
          rw [List.filterMap_cons_none act]
          rfl
      | some act' =>
          obtain ⟨moved, goes, after⟩ := moves _ _ _ _ _ between step act
          refine ⟨moved, ?_, after⟩
          rw [List.filterMap_cons_some act, follow, goes]
          rfl

end Runs
