import Nachos.KernelLib.BusyDevice

/-! Devices whose requests add to a log: calls under the lock leave whole entries in it, in the
order in which they acquired the lock.
-/

namespace Nachos.SynchDevice

variable {ι κ ρ ω δ ε β : Type} {driver : Driver κ ρ ω δ ε}
  {invariant : δ → Int → List (Instruction ρ) → Prop} {memory : δ → List β}
  {effect : ρ → List β → ω × List β} {start : List β} {current : Option ι}
  {state : State ι κ ρ ω δ} {entry : ρ → List β}

/-- A request adds its entry to the log, and changes nothing else in it. -/
def Appends (effect : ρ → List β → ω × List β) (entry : ρ → List β) : Prop :=
  ∀ request log, (effect request log).2 = log ++ entry request

/-- What a call adds to the log. -/
def entries (driver : Driver κ ρ ω δ ε) (entry : ρ → List β) (call : κ) : List β :=
  (requests (driver.script call)).flatMap entry

/-- Requests add their entries in order, by induction on them. -/
theorem Appends.execute (appends : Appends effect entry) (served : List ρ) (log : List β)
    : (SynchDevice.execute effect served log).2 = log ++ served.flatMap entry := by
  induction served generalizing log with
  | nil => exact (List.append_nil _).symm
  | cons request rest ih =>
      refine (ih _).trans ?_
      rw [appends, List.append_assoc, List.flatMap_cons]

/-- Calls made one after the other add their entries in order, by induction on them. -/
theorem Appends.serial (appends : Appends effect entry) (calls : List κ) (log : List β)
    : (SynchDevice.serial driver.script effect calls log).2
      = log ++ calls.flatMap (entries driver entry) := by
  induction calls generalizing log with
  | nil => exact (List.append_nil _).symm
  | cons call rest ih =>
      refine (ih _).trans ?_
      rw [appends.execute, List.append_assoc, List.flatMap_cons]
      rfl

/-- What a thread that has the lock has added of the entries of its call. -/
theorem Appends.added_of_did (appends : Appends effect entry) {progress : Progress κ ρ ω}
    {call : κ} {before now : List β} (holding : progress.holding = some call)
    (did : progress.Did driver effect before now)
    : ∃ added, now = before ++ added ∧ added <+: entries driver entry call
        ∧ ∀ other outputs, progress = .releasing other outputs
          → added = entries driver entry call := by
  cases progress with
  | outside | acquiring => exact absurd holding (Option.some_ne_none _).symm
  | acquired other =>
      have same : now = before := did
      refine ⟨[], by rw [same, List.append_nil], List.nil_prefix, fun _ _ releasing => ?_⟩
      cases releasing
  | inside other rest outputs =>
      obtain rfl := Option.some.inj holding
      obtain ⟨done, all, ran⟩ := did
      have final := congrArg Prod.snd ran
      rw [appends.execute] at final
      refine ⟨_, final.symm, ?_, fun _ _ releasing => ?_⟩
      · unfold entries
        rw [all, List.flatMap_append]
        exact List.prefix_append _ _
      · cases releasing
  | releasing other outputs =>
      obtain rfl := Option.some.inj holding
      have final := congrArg Prod.snd did
      rw [appends.execute] at final
      exact ⟨_, final.symm, List.prefix_refl _, fun _ _ _ => rfl⟩

/-- The log holds the entries of the calls that returned, and behind them what the call that has
the lock has added of its own.
-/
theorem Appends.log_of_holds (appends : Appends effect entry)
    (holds : Holds driver invariant memory effect start current state)
    : ∃ added,
        memory state.device
          = start ++ (state.returned.map Prod.fst).flatMap (entries driver entry) ++ added
        ∧ (state.acquired = state.returned.map Prod.fst ∧ added = []
            ∨ ∃ call, state.acquired = state.returned.map Prod.fst ++ [call]
              ∧ added <+: entries driver entry call)
        ∧ ∀ t call outputs, state.threads t = .releasing call outputs
          → state.acquired = state.returned.map Prod.fst ++ [call]
            ∧ added = entries driver entry call := by
  obtain ⟨before, ran, free, did⟩ := holds.served
  have ordered := holds.ordered
  have served : before = start ++ (state.returned.map Prod.fst).flatMap (entries driver entry) := by
    have final := congrArg Prod.snd ran
    rw [appends.serial] at final
    exact final.symm
  have mine : ∀ t call outputs, state.threads t = .releasing call outputs → current = some t :=
    fun t call outputs releasing =>
      (holds.only t).mp (by rw [releasing]; exact Option.some_ne_none _)
  cases has : current with
  | none =>
      rw [has, Option.bind_none, Option.toList_none, List.append_nil] at ordered
      refine ⟨[], by rw [List.append_nil, free has, served], .inl ⟨ordered, rfl⟩, ?_⟩
      intro t call outputs releasing
      exact absurd ((mine t call outputs releasing).symm.trans has) (Option.some_ne_none t)
  | some t =>
      obtain ⟨call, holding⟩ := Option.ne_none_iff_exists'.mp ((holds.only t).mpr has)
      rw [has, Option.bind_some, holding, Option.toList_some] at ordered
      obtain ⟨added, now, part, whole⟩ := appends.added_of_did holding (did t has)
      refine ⟨added, by rw [now, served], .inr ⟨call, ordered, part⟩, ?_⟩
      intro other returning outputs releasing
      cases Option.some.inj ((mine other returning outputs releasing).symm.trans has)
      have same := holding
      rw [releasing] at same
      cases Option.some.inj same
      exact ⟨ordered, whole _ _ releasing⟩

end Nachos.SynchDevice
