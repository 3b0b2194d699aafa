import BluetoothUuid.Error

/-! Operations on a state that may fail. A failure takes nothing back: what an operation did before
it failed stays done, so it is all or nothing only if its checks come before its effects. -/
namespace BluetoothUuid

/-- Gives an answer or fails, and leaves a state in both cases. -/
abbrev Action (σ : Type) := ExceptT Error (StateM σ)

namespace Action
variable {σ τ ι α β : Type}

/-- The answer of an operation and the state that it leaves. -/
def outcome (act : Action σ α) (s : σ) : Except Error α × σ := act.run.run s

/-- An operation on a part of the state. -/
def onPart (part : σ → τ) (replace : σ → τ → σ) (act : Action τ α) : Action σ α := fun s =>
  let (answer, t) := act.outcome (part s)
  (answer, replace s t)

/-- Performs one operation after the other, each on the state that the one before left, whether it
failed or not. Gives what came of each, and the state in the end. -/
def attempts (act : ι → Action σ α) : List ι → σ → List (ι × Except Error α) × σ
  | [], s => ([], s)
  | i :: rest, s =>
    let (answer, next) := (act i).outcome s
    let (answers, last) := attempts act rest next
    ((i, answer) :: answers, last)

/-- What was attempted with success. -/
def succeeded : List (ι × Except Error α) → List ι
  | [] => []
  | (i, .ok _) :: rest => i :: succeeded rest
  | (_, .error _) :: rest => succeeded rest

/-- The answers to what was attempted with success. -/
def answers : List (ι × Except Error α) → List α
  | [] => []
  | (_, .ok a) :: rest => a :: answers rest
  | (_, .error _) :: rest => answers rest

theorem ext {act other : Action σ α} (same : ∀ s, act.outcome s = other.outcome s) :
    act = other := funext same

@[simp] theorem outcome_pure (a : α) (s : σ) : outcome (pure a) s = (.ok a, s) := rfl

@[simp] theorem outcome_throw (e : Error) (s : σ) :
    outcome (throw e : Action σ α) s = (.error e, s) := rfl

@[simp] theorem outcome_get (s : σ) : outcome get s = (.ok s, s) := rfl

@[simp] theorem outcome_modify (change : σ → σ) (s : σ) :
    outcome (modify change) s = (.ok (), change s) := rfl

@[simp] theorem outcome_onPart (part : σ → τ) (replace : σ → τ → σ) (act : Action τ α) (s : σ) :
    outcome (onPart part replace act) s =
      ((act.outcome (part s)).1, replace s (act.outcome (part s)).2) := rfl

@[simp] theorem outcome_lift (answer : Except Error α) (s : σ) :
    outcome (liftM answer : Action σ α) s = (answer, s) := rfl

@[simp] theorem outcome_map (f : α → β) (act : Action σ α) (s : σ) :
    outcome (f <$> act) s = ((act.outcome s).1.map f, (act.outcome s).2) := by
  simp only [outcome, ExceptT.run_map, StateT.run_map]
  rfl

theorem outcome_map_eq_ok_iff {f : α → β} {act : Action σ α} {b : β} {s t : σ} :
    outcome (f <$> act) s = (.ok b, t) ↔ ∃ a, act.outcome s = (.ok a, t) ∧ f a = b := by
  rw [outcome_map]
  obtain ⟨answer, u⟩ := act.outcome s
  cases answer with
  | ok a =>
    constructor
    · rintro ⟨⟩
      exact ⟨a, rfl, rfl⟩
    · rintro ⟨_, ⟨⟩, rfl⟩
      rfl
  | error e => simp [Except.map]

theorem outcome_map_eq_error_iff {f : α → β} {act : Action σ α} {e : Error} {s t : σ} :
    outcome (f <$> act) s = (.error e, t) ↔ act.outcome s = (.error e, t) := by
  rw [outcome_map]
  obtain ⟨answer, u⟩ := act.outcome s
  cases answer <;> simp [Except.map]

theorem outcome_bind (act : Action σ α) (next : α → Action σ β) (s : σ) :
    outcome (act >>= next) s =
      match act.outcome s with
      | (.ok a, t) => (next a).outcome t
      | (.error e, t) => (.error e, t) := by
  simp only [outcome, ExceptT.run_bind, StateT.run_bind]
  obtain ⟨answer, t⟩ := act.run.run s
  cases answer <;> rfl

theorem outcome_bind_of_ok {act : Action σ α} {next : α → Action σ β} {a : α} {s t : σ}
    (first : act.outcome s = (.ok a, t)) : outcome (act >>= next) s = (next a).outcome t := by
  rw [outcome_bind, first]

theorem outcome_bind_eq_error_iff {act : Action σ α} {next : α → Action σ β} {e : Error}
    {s t : σ} :
    outcome (act >>= next) s = (.error e, t) ↔
      act.outcome s = (.error e, t) ∨
        ∃ a u, act.outcome s = (.ok a, u) ∧ (next a).outcome u = (.error e, t) := by
  rw [outcome_bind]
  cases first : act.outcome s with
  | mk answer u =>
    cases answer with
    | ok a =>
      constructor
      · intro failed
        exact .inr ⟨a, u, rfl, failed⟩
      · rintro (⟨⟨⟩⟩ | ⟨_, _, ⟨⟩, failed⟩)
        exact failed
    | error cause => simp

end Action
end BluetoothUuid
