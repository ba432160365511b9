/-! Rules for computations that return or stop with an error. -/

namespace Outcome

variable {ε ε' α β : Type}

/-- Go on when the condition holds. -/
def require (condition : Prop) [Decidable condition] (cause : ε) : Except ε Unit :=
  if condition then .ok () else .error cause

theorem require_of {condition : Prop} [Decidable condition] (holds : condition) (cause : ε)
    : require condition cause = .ok () :=
  if_pos holds

theorem of_require_ok {condition : Prop} [Decidable condition] {cause : ε} {done : Unit}
    (returned : require condition cause = .ok done)
    : condition := by
  unfold require at returned
  split at returned
  · assumption
  · exact nomatch returned

theorem of_require_error {condition : Prop} [Decidable condition] {cause other : ε}
    (stopped : require condition cause = .error other)
    : cause = other := by
  unfold require at stopped
  split at stopped
  · exact nomatch stopped
  · injection stopped

/-- A sequence that returned has a first part that returned, by cases on its outcome. -/
theorem of_bind_ok {first : Except ε α} {next : α → Except ε β} {result : β}
    (returned : first >>= next = .ok result)
    : ∃ value, first = .ok value ∧ next value = .ok result := by
  cases first with
  | ok value => exact ⟨value, rfl, returned⟩
  | error cause => exact nomatch returned

/-- A sequence stopped in its first part, or in what follows it. -/
theorem of_bind_error {first : Except ε α} {next : α → Except ε β} {cause : ε}
    (stopped : first >>= next = .error cause)
    : first = .error cause
      ∨ ∃ value, first = .ok value ∧ next value = .error cause := by
  cases first with
  | ok value => exact .inr ⟨value, rfl, stopped⟩
  | error _ => exact .inl (by injection stopped with same; rw [same])

/-- What stops does not return. -/
theorem not_throw_bind_ok {cause : ε} {next : α → Except ε β} {result : β}
    : (throw cause >>= next : Except ε β) ≠ .ok result :=
  nofun

theorem bind_ok {first : Except ε α} {value : α} (returned : first = .ok value)
    (next : α → Except ε β)
    : first >>= next = next value := by
  rw [returned]
  rfl

/-- A computation that is only tried under a condition returned. -/
theorem of_attempt {condition : Prop} [Decidable condition] {outcome : Except ε α} {value : α}
    (computed : (if condition then outcome.toOption else none) = some value)
    : condition ∧ outcome = .ok value := by
  split at computed
  · refine ⟨‹_›, ?_⟩
    cases outcome with
    | ok result => exact congrArg Except.ok (Option.some.inj computed)
    | error cause => exact nomatch computed
  · exact nomatch computed

theorem of_mapError_ok {outcome : Except ε α} {convert : ε → ε'} {value : α}
    (returned : outcome.mapError convert = .ok value)
    : outcome = .ok value := by
  cases outcome with
  | ok _ => injection returned with same; rw [same]
  | error _ => exact nomatch returned

theorem of_mapError_error {outcome : Except ε α} {convert : ε → ε'} {cause : ε'}
    (stopped : outcome.mapError convert = .error cause)
    : ∃ inner, outcome = .error inner ∧ convert inner = cause := by
  cases outcome with
  | ok _ => exact nomatch stopped
  | error inner => injection stopped with same; exact ⟨inner, rfl, same⟩

theorem mapError_ok {outcome : Except ε α} {value : α} (returned : outcome = .ok value)
    (convert : ε → ε')
    : outcome.mapError convert = .ok value := by
  rw [returned]
  rfl

end Outcome
