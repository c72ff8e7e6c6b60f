/-!
Actions on a state. An action may fail, and keeps what it did before the failure. It may also
have no outcome at all, when what it needs goes beyond a bound that it was given.

`bind_apply` gives a sequence of actions by cases on the outcome of the first, and
`bind_eq_ok` takes a sequence that answered apart.
-/

set_option autoImplicit false

namespace MoveMachine

instance outcomeDecidableEq {ε α : Type} [DecidableEq ε] [DecidableEq α] :
    DecidableEq (Except ε α)
  | .error error, .error other => decidable_of_iff (error = other) (by simp)
  | .ok answer, .ok other => decidable_of_iff (answer = other) (by simp)
  | .error _, .ok _ => isFalse nofun
  | .ok _, .error _ => isFalse nofun

/-- An action on a state `σ` that answers or fails with an `ε`, or has no outcome. -/
abbrev Action (σ ε : Type) := ExceptT ε (StateT σ Option)

namespace Action

variable {σ τ ε δ α β : Type}

def exhausted : Action σ ε α := fun _ => none

/-- The outcome of an action as a value, be it an answer or an error. -/
def outcome (action : Action σ δ α) : Action σ ε (Except δ α) :=
  fun state => (action state).map fun (result, changed) => (.ok result, changed)

def mapError (change : δ → ε) (action : Action σ δ α) : Action σ ε α :=
  fun state => (action state).map fun (result, changed) => (result.mapError change, changed)

def focus (part : τ → σ) (replace : σ → τ → τ) (action : Action σ ε α) : Action τ ε α :=
  fun state => (action (part state)).map fun (result, changed) => (result, replace changed state)

theorem get_bind_apply (next : σ → Action σ ε β) (state : σ) :
    (get >>= next) state = next state state := rfl

theorem bind_apply (first : Action σ ε α) (next : α → Action σ ε β) (state : σ) :
    (first >>= next) state =
      match first state with
      | none => none
      | some (.ok answer, changed) => next answer changed
      | some (.error error, changed) => some (.error error, changed) := by
  change Option.bind (first state) _ = _
  cases first state with
  | none => rfl
  | some outcome =>
    obtain ⟨result, changed⟩ := outcome
    cases result <;> rfl

theorem bind_of_ok {first : Action σ ε α} {next : α → Action σ ε β} {state changed : σ}
    {answer : α} (answered : first state = some (.ok answer, changed)) :
    (first >>= next) state = next answer changed := by
  rw [bind_apply, answered]

theorem bind_looked {first : Action σ ε α} {next : α → Action σ ε β} {state : σ}
    {seen : Except ε α} {rest : α → Except ε β} (looked : first state = some (seen, state))
    (goesOn : ∀ answer, next answer state = some (rest answer, state)) :
    (first >>= next) state = some (seen >>= rest, state) := by
  rw [bind_apply, looked]
  cases seen with
  | error error => rfl
  | ok answer => exact goesOn answer

theorem bind_eq_ok {first : Action σ ε α} {next : α → Action σ ε β} {state final : σ}
    {answer : β} :
    (first >>= next) state = some (.ok answer, final) ↔
      ∃ middle between, first state = some (.ok middle, between) ∧
        next middle between = some (.ok answer, final) := by
  rw [bind_apply]
  constructor
  · intro ran
    cases began : first state with
    | none =>
      rw [began] at ran
      cases ran
    | some outcome =>
      obtain ⟨result, changed⟩ := outcome
      rw [began] at ran
      cases result with
      | error error => cases ran
      | ok middle => exact ⟨middle, changed, rfl, ran⟩
  · rintro ⟨middle, between, began, ended⟩
    rw [began]
    exact ended

theorem bind_eq_error {first : Action σ ε α} {next : α → Action σ ε β} {state final : σ}
    {error : ε} :
    (first >>= next) state = some (.error error, final) ↔
      first state = some (.error error, final) ∨
        ∃ middle between, first state = some (.ok middle, between) ∧
          next middle between = some (.error error, final) := by
  rw [bind_apply]
  rcases first state with _ | ⟨raised | answer, between⟩
  · simp
  · simp
  · simp [and_assoc]

theorem mapError_eq_ok {change : δ → ε} {action : Action σ δ α} {state final : σ} {answer : α} :
    mapError change action state = some (.ok answer, final) ↔
      action state = some (.ok answer, final) := by
  unfold mapError
  cases action state with
  | none => simp
  | some outcome =>
    obtain ⟨result, changed⟩ := outcome
    cases result with
    | ok other =>
      constructor
      · intro same
        cases same
        rfl
      · intro same
        cases same
        rfl
    | error error => exact ⟨nofun, nofun⟩

theorem mapError_eq_error {change : δ → ε} {action : Action σ δ α} {state final : σ} {error : ε} :
    mapError change action state = some (.error error, final) ↔
      ∃ cause, action state = some (.error cause, final) ∧ change cause = error := by
  unfold mapError
  rcases action state with _ | ⟨raised | answer, after⟩
  · simp
  · constructor
    · intro told
      cases told
      exact ⟨raised, rfl, rfl⟩
    · rintro ⟨cause, same, rfl⟩
      cases same
      rfl
  · constructor
    · exact nofun
    · rintro ⟨cause, same, -⟩
      cases same

end Action

end MoveMachine
