import BluetoothUuid.Action

/-! Operations that are all or nothing, although a failure takes nothing back. Such an operation
first makes all checks, then has one effect, and after that cannot fail. -/
namespace BluetoothUuid.Action
variable {σ τ α β : Type} {act : Action σ α} {next : α → Action σ β} {f : α → β}

/-- Never changes the state. -/
def Checks (act : Action σ α) : Prop := ∀ s, (act.outcome s).2 = s

/-- Never fails. -/
def Succeeds (act : Action σ α) : Prop := ∀ s t e, act.outcome s ≠ (.error e, t)

/-- Changes nothing when it fails. -/
def Atomic (act : Action σ α) : Prop := ∀ s t e, act.outcome s = (.error e, t) → t = s

theorem Checks.atomic (check : Checks act) : Atomic act := by
  intro s t e failed
  rw [← check s, failed]

theorem Succeeds.atomic (success : Succeeds act) : Atomic act :=
  fun s t e failed => absurd failed (success s t e)

theorem checks_get : Checks (get : Action σ σ) := fun _ => rfl

theorem checks_lift (answer : Except Error α) : Checks (liftM answer : Action σ α) := fun _ => rfl

theorem succeeds_pure (a : α) : Succeeds (pure a : Action σ α) := by
  rintro s t e ⟨⟩

theorem succeeds_modify (change : σ → σ) : Succeeds (modify change) := by
  rintro s t e ⟨⟩

theorem Checks.bind (first : Checks act) (second : ∀ a, Checks (next a)) :
    Checks (act >>= next) := by
  intro s
  have unchanged := first s
  rw [outcome_bind]
  cases result : act.outcome s with
  | mk answer t =>
    rw [result] at unchanged
    subst unchanged
    cases answer with
    | ok a => exact second a _
    | error e => rfl

/-- After checks comes the effect. -/
theorem Checks.bind_atomic (first : Checks act) (second : ∀ a, Atomic (next a)) :
    Atomic (act >>= next) := by
  intro s t e failed
  rcases outcome_bind_eq_error_iff.mp failed with early | ⟨a, u, passed, late⟩
  · exact first.atomic s t e early
  · have unchanged := first s
    rw [passed] at unchanged
    rw [second a u t e late]
    exact unchanged

/-- After the effect nothing fails. -/
theorem Atomic.bind_succeeds (first : Atomic act) (second : ∀ a, Succeeds (next a)) :
    Atomic (act >>= next) := by
  intro s t e failed
  rcases outcome_bind_eq_error_iff.mp failed with early | ⟨a, u, _, late⟩
  · exact first s t e early
  · exact absurd late (second a u t e)

theorem Succeeds.bind (first : Succeeds act) (second : ∀ a, Succeeds (next a)) :
    Succeeds (act >>= next) := by
  intro s t e failed
  rcases outcome_bind_eq_error_iff.mp failed with early | ⟨a, u, _, late⟩
  · exact first s t e early
  · exact second a u t e late

theorem Atomic.bind_pure (first : Atomic act) : Atomic (act >>= fun a => pure (f a)) :=
  first.bind_succeeds fun a => succeeds_pure (f a)

theorem Succeeds.bind_pure (first : Succeeds act) : Succeeds (act >>= fun a => pure (f a)) :=
  first.bind fun a => succeeds_pure (f a)

theorem Atomic.map (atomic : Atomic act) : Atomic (f <$> act) :=
  fun s t e failed => atomic s t e (outcome_map_eq_error_iff.mp failed)

/-- What keeps its part of the state keeps the state. -/
theorem Atomic.onPart {part : σ → τ} {replace : σ → τ → σ} {act : Action τ α}
    (atomic : Atomic act) (replace_part : ∀ s, replace s (part s) = s) :
    Atomic (onPart part replace act) := by
  intro s t e failed
  rw [outcome_onPart, Prod.mk.injEq] at failed
  obtain ⟨answer, rfl⟩ := failed
  rw [atomic (part s) (act.outcome (part s)).2 e (Prod.ext answer rfl)]
  exact replace_part s

end BluetoothUuid.Action
