import Mathlib.Order.Bounds.Basic
import BluetoothUuid.Proofs.Cursor.Runs
import BluetoothUuid.Session

/-! A step that fails leaves the session as it was, in every run. Each step evaluates what it is
given, then reads or writes, then stores, and only the first two can fail. The one exception is a
list with a trailing part, since its UUIDs are read one by one. -/
namespace BluetoothUuid.Session

/-- What a failing step makes of a session: nothing, but that a list keeps as consumed the largest
multiple of the size of its UUIDs that lay ahead. -/
def LeftByFailure (s t : Session) : Step → Prop
  | .read (.uuids k) =>
    t.writer = s.writer ∧ t.slots = s.slots ∧ t.reader.bytes = s.reader.bytes ∧
      ∃ consumed, IsGreatest {n | k.size ∣ n ∧ n ≤ s.reader.left.toNat} consumed ∧
        t.reader.position.toNat = s.reader.position.toNat + consumed
  | _ => t = s

theorem atomic_reading {α : Type} {act : Action Cursor α} (atomic : Action.Atomic act) :
    Action.Atomic (reading act) := atomic.onPart fun _ => rfl

theorem atomic_writing {α : Type} {act : Action Cursor α} (atomic : Action.Atomic act) :
    Action.Atomic (writing act) := atomic.onPart fun _ => rfl

theorem checks_given (operand : Operand) : Action.Checks (given operand) :=
  Action.checks_get.bind fun _ => Action.checks_lift _

theorem succeeds_store (slot : Option String) (u : SomeUuid) : Action.Succeeds (store slot u) :=
  Action.succeeds_modify _

theorem atomic_perform {next : Step} (single : ∀ k, next ≠ .read (.uuids k)) :
    Action.Atomic (perform next) := by
  cases next with
  | read shape =>
    have shape_single : ∀ k, shape ≠ .uuids k := by
      rintro k rfl
      exact single k rfl
    exact (atomic_reading (Cursor.atomic_read shape_single)).bind_pure
  | skip count => exact (atomic_reading (Cursor.atomic_skip count)).bind_pure
  | decode choice slot =>
    refine (Action.checks_lift _).bind_atomic fun k => ?_
    refine (atomic_reading (Cursor.atomic_readUuid k)).bind_succeeds fun u => ?_
    exact (succeeds_store slot ⟨k, u⟩).bind_pure
  | write item => exact (atomic_writing (Cursor.atomic_write item)).bind_pure
  | writeZeros count => exact (atomic_writing (Cursor.atomic_writeZeros count)).bind_pure
  | encode operand =>
    refine (checks_given operand).bind_atomic fun u => ?_
    exact (atomic_writing (Cursor.atomic_write (.uuid u))).bind_pure
  | encodeList k operands =>
    refine Action.checks_get.bind_atomic fun s => ?_
    refine (Action.checks_lift _).bind_atomic fun us => ?_
    exact (atomic_writing (Cursor.atomic_write (.uuids k us))).bind_pure
  | set slot operand =>
    refine (checks_given operand).bind_atomic fun u => ?_
    exact (succeeds_store slot u).bind_pure.atomic
  | load slot j =>
    refine (Action.checks_lift _).bind_atomic fun u => ?_
    exact (succeeds_store slot u).bind_pure.atomic
  | evaluate operand => exact (checks_given operand).atomic.bind_pure
  | compare a b =>
    refine (checks_given a).bind_atomic fun u => ?_
    exact (checks_given b).atomic.bind_pure
  | reread => exact (Action.succeeds_modify _).bind_pure.atomic

variable {s t : Session} {next : Step} {e : Error}

/-- A whole number of UUIDs with less than one after them is the most that fits. -/
theorem isGreatest_totalSize {k : Kind} (us : List (Uuid k)) {left rest : Nat}
    (whole : left = Cursor.totalSize us + rest) (part : rest < k.size) :
    IsGreatest {n | k.size ∣ n ∧ n ≤ left} (Cursor.totalSize us) := by
  refine ⟨⟨Nat.dvd_mul_left .., by omega⟩, ?_⟩
  rintro _ ⟨⟨count, rfl⟩, fits⟩
  rw [whole, Cursor.totalSize, Nat.mul_comm] at fits
  rw [Cursor.totalSize, Nat.mul_comm _ k.size]
  have fewer : count < us.length + 1 := by
    apply Nat.lt_of_mul_lt_mul_right (a := k.size)
    rw [Nat.add_mul]
    omega
  exact Nat.mul_le_mul_left _ (Nat.le_of_lt_succ fewer)

theorem leftByFailure_of_read_uuids {k : Kind}
    (failed : s.step (.read (.uuids k)) = (.error e, t)) :
    LeftByFailure s t (.read (.uuids k)) := by
  rcases Action.outcome_bind_eq_error_iff.mp failed with early | ⟨item, u, _, late⟩
  · rw [reading, Action.outcome_onPart, Prod.mk.injEq] at early
    obtain ⟨answer, rfl⟩ := early
    have stopped : (Cursor.readUuids k).outcome s.reader =
        (.error e, ((Cursor.read (.uuids k)).outcome s.reader).2) :=
      Action.outcome_map_eq_error_iff.mp (Prod.ext answer rfl)
    obtain ⟨⟨us, moved⟩, _, part, _⟩ := Cursor.readUuids_eq_error_iff.mp stopped
    have length := Cursor.length_flatMap_bytes us
    refine ⟨rfl, rfl, moved.bytes, Cursor.totalSize us, ?_, ?_⟩
    · exact isGreatest_totalSize us (length ▸ moved.toNat_left) part
    · exact length ▸ moved.toNat_position
  · exact absurd late (Action.succeeds_pure _ u t e)

theorem leftByFailure_iff (single : ∀ k, next ≠ .read (.uuids k)) :
    LeftByFailure s t next ↔ t = s := by
  cases next with
  | read shape =>
    cases shape with
    | uuids k => exact absurd rfl (single k)
    | _ => exact Iff.rfl
  | _ => exact Iff.rfl

theorem leftByFailure_of_step (failed : s.step next = (.error e, t)) :
    LeftByFailure s t next := by
  by_cases list : ∃ k, next = .read (.uuids k)
  · obtain ⟨k, rfl⟩ := list
    exact leftByFailure_of_read_uuids failed
  · have single : ∀ k, next ≠ .read (.uuids k) := fun k same => list ⟨k, same⟩
    exact (leftByFailure_iff single).mpr (atomic_perform single s t e failed)

theorem trace_getElem? (s : Session) (steps : List Step) (i : Nat) :
    (s.trace steps)[i]? = steps[i]?.map (s.after (steps.take i)).step := by
  induction steps generalizing s i with
  | nil => rfl
  | cons first rest ih =>
    cases i with
    | zero => rfl
    | succ i => exact ih (s.step first).2 i

/-- In every run, a step that answers with an error leaves both blocks, both positions and the slots
as they were before it, but for what a list has consumed. -/
theorem leftByFailure_of_trace (s : Session) (steps : List Step) (i : Nat) (next : Step)
    (e : Error) (t : Session) (asked : steps[i]? = some next)
    (failed : (s.trace steps)[i]? = some (.error e, t)) :
    LeftByFailure (s.after (steps.take i)) t next := by
  rw [trace_getElem?, asked, Option.map_some, Option.some.injEq] at failed
  exact leftByFailure_of_step failed

theorem leftByFailure_of_trace_trailing_part :
    (trace ⟨.start [0x18, 0x0D, 0x2A] (by decide), .start [0xFF] (by decide), []⟩
        [.write (.u8 1), .read (.uuids .bits16)])[1]? =
      some (.error (.endOfInput 2 1), ⟨⟨[0x18, 0x0D, 0x2A], 2, by decide, by decide⟩,
        ⟨[0x01], 1, by decide, by decide⟩, []⟩) ∧
    LeftByFailure ⟨.start [0x18, 0x0D, 0x2A] (by decide), ⟨[0x01], 1, by decide, by decide⟩, []⟩
      ⟨⟨[0x18, 0x0D, 0x2A], 2, by decide, by decide⟩, ⟨[0x01], 1, by decide, by decide⟩, []⟩
      (.read (.uuids .bits16)) := by
  have stopped : (Cursor.readUuids .bits16).outcome (.start [0x18, 0x0D, 0x2A] (by decide)) =
      (.error (.endOfInput 2 1), ⟨[0x18, 0x0D, 0x2A], 2, by decide, by decide⟩) := by
    refine Cursor.readUuids_eq_error_iff.mpr ⟨⟨[⟨0x180D⟩], ⟨rfl, rfl⟩⟩, ?_⟩
    decide
  have failed : (trace ⟨.start [0x18, 0x0D, 0x2A] (by decide), .start [0xFF] (by decide), []⟩
      [.write (.u8 1), .read (.uuids .bits16)])[1]? =
      some (.error (.endOfInput 2 1), ⟨⟨[0x18, 0x0D, 0x2A], 2, by decide, by decide⟩,
        ⟨[0x01], 1, by decide, by decide⟩, []⟩) := by
    change some (step ⟨.start [0x18, 0x0D, 0x2A] (by decide),
      ⟨[0x01], 1, by decide, by decide⟩, []⟩ (.read (.uuids .bits16))) = _
    rw [step, perform, Action.outcome_bind, reading, Action.outcome_onPart, Cursor.read,
      Action.outcome_map, stopped]
    rfl
  exact ⟨failed, leftByFailure_of_trace _ _ 1 _ _ _ rfl failed⟩

end BluetoothUuid.Session
