import BluetoothUuid.Action

/-! Two runs of one operation. An operation respects a relation between states if related states get
the same answer from it and are left related. What the relation leaves open then never shows in an
answer, in this operation or in any that follows. -/
namespace BluetoothUuid.Action
variable {σ τ α β : Type} {R : σ → σ → Prop} {act : Action σ α} {next : α → Action σ β} {f : α → β}

def Respects (R : σ → σ → Prop) (act : Action σ α) : Prop :=
  ∀ s t, R s t → (act.outcome s).1 = (act.outcome t).1 ∧ R (act.outcome s).2 (act.outcome t).2

theorem respects_eq (act : Action σ α) : Respects Eq act := by
  rintro s t rfl
  exact ⟨rfl, rfl⟩

theorem respects_pure (a : α) : Respects R (pure a : Action σ α) :=
  fun _ _ related => ⟨rfl, related⟩

theorem respects_lift (answer : Except Error α) : Respects R (liftM answer : Action σ α) :=
  fun _ _ related => ⟨rfl, related⟩

theorem respects_modify {change : σ → σ} (kept : ∀ s t, R s t → R (change s) (change t)) :
    Respects R (modify change) :=
  fun s t related => ⟨rfl, kept s t related⟩

theorem Respects.bind (first : Respects R act) (second : ∀ a, Respects R (next a)) :
    Respects R (act >>= next) := by
  intro s t related
  obtain ⟨same, kept⟩ := first s t related
  rw [outcome_bind, outcome_bind]
  cases one : act.outcome s with
  | mk answer u =>
    cases two : act.outcome t with
    | mk other v =>
      rw [one, two] at same kept
      subst same
      cases answer with
      | ok a => exact second a u v kept
      | error e => exact ⟨rfl, kept⟩

theorem Respects.bind_pure (first : Respects R act) : Respects R (act >>= fun a => pure (f a)) :=
  first.bind fun a => respects_pure (f a)

/-- An operation may look at the state, if it looks at nothing that the relation leaves open. -/
theorem respects_get_bind {next : σ → Action σ β} (same : ∀ s t, R s t → next s = next t)
    (each : ∀ s, Respects R (next s)) : Respects R (get >>= next) := by
  intro s t related
  have result : ((next t).outcome s).1 = ((next t).outcome t).1 ∧
      R ((next t).outcome s).2 ((next t).outcome t).2 := each t s t related
  rw [outcome_bind, outcome_bind, outcome_get, outcome_get]
  simp only [same s t related]
  exact result

theorem Respects.onPart {Q : τ → τ → Prop} {part : σ → τ} {replace : σ → τ → σ}
    {act : Action τ α} (respects : Respects Q act)
    (related_part : ∀ s t, R s t → Q (part s) (part t))
    (related_replace : ∀ s t a b, R s t → Q a b → R (replace s a) (replace t b)) :
    Respects R (onPart part replace act) := by
  intro s t related
  obtain ⟨same, kept⟩ := respects (part s) (part t) (related_part s t related)
  exact ⟨same, related_replace s t _ _ related kept⟩

end BluetoothUuid.Action
