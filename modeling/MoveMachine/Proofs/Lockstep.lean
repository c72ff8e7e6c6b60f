import MoveMachine.Action

/-!
Actions side by side. Two actions run in lockstep if, from states that belong together, they give
the same result and end in states that belong together again. What belongs together, and which
outcomes may be missing, are the `Terms`; so one notion covers two programs, two runs of one
program, what a single run keeps and how it fails. Lockstep passes through every way in which
actions are put together.
-/

set_option autoImplicit false

namespace MoveMachine.Action

variable {σ τ υ φ ε δ α β : Type}

/-- On what terms two actions run side by side. -/
structure Terms (σ τ : Type) where
  /-- Which two states may come of which two. Two states may be begun from that may stay. -/
  goes : σ → τ → σ → τ → Prop
  stays : ∀ {s t s' t'}, goes s t s' t' → goes s' t' s' t'
  trans : ∀ {s t s' t' s'' t''}, goes s t s' t' → goes s' t' s'' t'' → goes s t s'' t''
  /-- Outcomes may be missing on the left, -/
  lacks : Prop
  /-- and then the right need not be missing as well. -/
  alone : Prop

namespace Terms

def alike (R : σ → τ → Prop) : Terms σ τ where
  goes s t s' t' := R s t ∧ R s' t'
  stays both := ⟨both.2, both.2⟩
  trans first second := ⟨first.1, second.2⟩
  lacks := True
  alone := False

/-- The states are the same on both sides, and a preorder relates them to what they come to. -/
def keeping (R : σ → σ → Prop) (refl : ∀ s, R s s) (trans : ∀ s t u, R s t → R t u → R s u) :
    Terms σ σ where
  goes s t s' t' := s = t ∧ s' = t' ∧ R s s'
  stays := by
    rintro _ _ s' _ ⟨-, rfl, -⟩
    exact ⟨rfl, rfl, refl s'⟩
  trans := by
    rintro s _ s' _ s'' _ ⟨rfl, rfl, first⟩ ⟨-, rfl, second⟩
    exact ⟨rfl, rfl, trans s s' s'' first second⟩
  lacks := True
  alone := False

/-- The states are the same on both sides and of one kind, and no outcome is missing. -/
def settled (kind : σ → Prop) : Terms σ σ where
  goes s t s' t' := (s = t ∧ kind s) ∧ s' = t' ∧ kind s'
  stays both := ⟨both.2, both.2⟩
  trans first second := ⟨first.1, second.2⟩
  lacks := False
  alone := False

/-- The states are the same on both sides, and an outcome may be missing on the left. -/
def within : Terms σ σ where
  goes s t s' t' := s = t ∧ s' = t'
  stays both := ⟨both.2, both.2⟩
  trans first second := ⟨first.1, second.2⟩
  lacks := True
  alone := True

end Terms

/-- The same result in states that come of the first two, with errors of one kind only. -/
inductive Agree (terms : Terms σ τ) (errors : ε → Prop) (s : σ) (t : τ) :
    Option (Except ε α × σ) → Option (Except ε α × τ) → Prop
  | ok {answer : α} {s' : σ} {t' : τ} : terms.goes s t s' t' →
      Agree terms errors s t (some (.ok answer, s')) (some (.ok answer, t'))
  | error {error : ε} {s' : σ} {t' : τ} : errors error → terms.goes s t s' t' →
      Agree terms errors s t (some (.error error, s')) (some (.error error, t'))
  | lacking {right : Option (Except ε α × τ)} : terms.lacks → terms.alone ∨ right = none →
      Agree terms errors s t none right

/-- From any two states to begin with, two actions have outcomes that agree. -/
def Lockstep (terms : Terms σ τ) (errors : ε → Prop) (x : Action σ ε α) (y : Action τ ε α) :
    Prop :=
  ∀ s t, terms.goes s t s t → Agree terms errors s t (x s) (y t)

abbrev AnyError (_ : ε) : Prop := True

variable {terms : Terms σ τ} {errors : ε → Prop}

namespace Agree

variable {s s' : σ} {t t' : τ}

theorem of_eq (goes : terms.goes s t s' t') (result : Except ε α) :
    Agree terms AnyError s t (some (result, s')) (some (result, t')) := by
  cases result with
  | ok answer => exact .ok goes
  | error error => exact .error True.intro goes

theorem mono {kind : ε → Prop} {x : Option (Except ε α × σ)} {y : Option (Except ε α × τ)}
    (agree : Agree terms errors s t x y) (weaker : ∀ error, errors error → kind error) :
    Agree terms kind s t x y := by
  cases agree with
  | ok goes => exact .ok goes
  | error own goes => exact .error (weaker _ own) goes
  | lacking lacks missing => exact .lacking lacks missing

theorem after {x : Option (Except ε α × σ)} {y : Option (Except ε α × τ)}
    (began : terms.goes s t s' t') (agree : Agree terms errors s' t' x y) :
    Agree terms errors s t x y := by
  cases agree with
  | ok goes => exact .ok (terms.trans began goes)
  | error own goes => exact .error own (terms.trans began goes)
  | lacking lacks missing => exact .lacking lacks missing

theorem right_of_left {x : Option (Except ε α × σ)} {y : Option (Except ε α × τ)}
    (agree : Agree terms errors s t x y) {result : Except ε α} (left : x = some (result, s')) :
    ∃ t', y = some (result, t') ∧ terms.goes s t s' t' := by
  subst left
  cases agree with
  | ok goes => exact ⟨_, rfl, goes⟩
  | error _ goes => exact ⟨_, rfl, goes⟩

theorem error_of_left {x : Option (Except ε α × σ)} {y : Option (Except ε α × τ)}
    (agree : Agree terms errors s t x y) {error : ε} (left : x = some (.error error, s')) :
    errors error := by
  subst left
  cases agree with
  | error own _ => exact own

theorem exists_some {x : Option (Except ε α × σ)} {y : Option (Except ε α × τ)}
    (agree : Agree terms errors s t x y) (never : ¬terms.lacks) :
    ∃ result s' t', x = some (result, s') ∧ y = some (result, t') ∧ terms.goes s t s' t' ∧
      ∀ error, result = .error error → errors error := by
  cases agree with
  | ok goes => exact ⟨_, _, _, rfl, rfl, goes, nofun⟩
  | error own goes =>
    refine ⟨_, _, _, rfl, rfl, goes, ?_⟩
    rintro _ ⟨⟩
    exact own
  | lacking lacks _ => exact absurd lacks never

theorem rel {x : Option (Except ε α × σ)} {y : Option (Except ε α × τ)}
    (agree : Agree terms errors s t x y) (together : ¬terms.alone) :
    Option.Rel (fun left right => left.1 = right.1 ∧ terms.goes s t left.2 right.2) x y := by
  cases agree with
  | ok goes => exact .some ⟨rfl, goes⟩
  | error _ goes => exact .some ⟨rfl, goes⟩
  | lacking _ missing =>
    obtain rfl := missing.resolve_left together
    exact .none

/-- What follows an answer begins where the answer left off, and is told from where it began. -/
theorem bind_from {x : Action σ ε α} {y : Action τ ε α} {f : α → Action σ ε β}
    {g : α → Action τ ε β} (first : Agree terms errors s t (x s) (y t))
    (next : ∀ answer s' t', terms.goes s t s' t' →
      Agree terms errors s t (f answer s') (g answer t')) :
    Agree terms errors s t ((x >>= f) s) ((y >>= g) t) := by
  rw [bind_apply, bind_apply]
  generalize x s = left at first
  generalize y t = right at first
  cases first with
  | ok goes => exact next _ _ _ goes
  | error own goes => exact .error own goes
  | lacking lacks missing =>
    refine .lacking lacks (missing.imp_right ?_)
    rintro rfl
    rfl

theorem bind {x : Action σ ε α} {y : Action τ ε α} {f : α → Action σ ε β}
    {g : α → Action τ ε β} (first : Agree terms errors s t (x s) (y t))
    (next : ∀ answer, Lockstep terms errors (f answer) (g answer)) :
    Agree terms errors s t ((x >>= f) s) ((y >>= g) t) :=
  first.bind_from fun answer s' t' goes => (next answer s' t' (terms.stays goes)).after goes

theorem map {other : Terms υ φ} {kind : δ → Prop} {u : υ} {v : φ}
    {x : Option (Except ε α × σ)} {y : Option (Except ε α × τ)}
    (agree : Agree terms errors s t x y) {f : Except ε α × σ → Except δ β × υ}
    {g : Except ε α × τ → Except δ β × φ} (lacks : terms.lacks → other.lacks)
    (alone : terms.alone → other.alone)
    (keeps : ∀ result s' t', (∀ error, result = .error error → errors error) →
      terms.goes s t s' t' → Agree other kind u v (some (f (result, s'))) (some (g (result, t')))) :
    Agree other kind u v (x.map f) (y.map g) := by
  cases agree with
  | ok goes => exact keeps _ _ _ nofun goes
  | error own goes =>
    refine keeps _ _ _ ?_ goes
    rintro _ ⟨⟩
    exact own
  | lacking missing others =>
    refine .lacking (lacks missing) (others.imp alone ?_)
    rintro rfl
    rfl

end Agree

namespace Lockstep

theorem pure (answer : α) :
    Lockstep terms errors (Pure.pure answer : Action σ ε α) (Pure.pure answer) :=
  fun _ _ start => .ok start

theorem throw {error : ε} (own : errors error) :
    Lockstep terms errors (MonadExcept.throw error : Action σ ε α) (MonadExcept.throw error) :=
  fun _ _ start => .error own start

theorem bind {x : Action σ ε α} {y : Action τ ε α} {f : α → Action σ ε β}
    {g : α → Action τ ε β} (first : Lockstep terms errors x y)
    (next : ∀ answer, Lockstep terms errors (f answer) (g answer)) :
    Lockstep terms errors (x >>= f) (y >>= g) :=
  fun s t start => (first s t start).bind next

theorem mono {kind : ε → Prop} {x : Action σ ε α} {y : Action τ ε α}
    (lockstep : Lockstep terms errors x y) (weaker : ∀ error, errors error → kind error) :
    Lockstep terms kind x y :=
  fun s t start => (lockstep s t start).mono weaker

theorem get_bind {f : σ → Action σ ε β} {g : τ → Action τ ε β}
    (next : ∀ s t, terms.goes s t s t → Agree terms errors s t (f s s) (g t t)) :
    Lockstep terms errors (get >>= f) (get >>= g) :=
  next

theorem outcome {kind : δ → Prop} {x : Action σ δ α} {y : Action τ δ α}
    (lockstep : Lockstep terms kind x y) :
    Lockstep terms errors (Action.outcome (ε := ε) x) (Action.outcome y) := by
  intro s t start
  apply (lockstep s t start).map id id
  intro result s' t' _ goes
  exact .ok goes

theorem mapError {kind : δ → Prop} {x : Action σ δ α} {y : Action τ δ α}
    (lockstep : Lockstep terms kind x y) {change : δ → ε}
    (told : ∀ error, kind error → errors (change error)) :
    Lockstep terms errors (Action.mapError change x) (Action.mapError change y) := by
  intro s t start
  apply (lockstep s t start).map id id
  intro result s' t' own goes
  cases result with
  | ok answer => exact .ok goes
  | error error => exact .error (told error (own error rfl)) goes

/-- Lockstep on a part is lockstep on the whole, if putting parts back keeps the wholes together. -/
theorem focus {other : Terms υ φ} {part : υ → σ} {replace : σ → υ → υ} {part' : φ → τ}
    {replace' : τ → φ → φ} {x : Action σ ε α} {y : Action τ ε α}
    (lockstep : Lockstep terms errors x y) (lacks : terms.lacks → other.lacks)
    (alone : terms.alone → other.alone)
    (take : ∀ u v, other.goes u v u v → terms.goes (part u) (part' v) (part u) (part' v))
    (back : ∀ u v, other.goes u v u v → ∀ s t, terms.goes (part u) (part' v) s t →
      other.goes u v (replace s u) (replace' t v)) :
    Lockstep other errors (Action.focus part replace x) (Action.focus part' replace' y) := by
  intro u v start
  apply (lockstep _ _ (take u v start)).map lacks alone
  intro result s t own goes
  have after := back u v start s t goes
  cases result with
  | ok answer => exact .ok after
  | error error => exact .error (own error rfl) after

theorem forM {act : β → Action σ ε Unit} {act' : β → Action τ ε Unit}
    (acts : ∀ item, Lockstep terms errors (act item) (act' item)) (items : List β) :
    Lockstep terms errors (items.forM act) (items.forM act') := by
  induction items with
  | nil => exact pure ()
  | cons item items ih => exact (acts item).bind fun _ => ih

end Lockstep

end MoveMachine.Action
