import Mathlib.Data.List.Forall2
import BluetoothUuid.Action.Respects
import BluetoothUuid.Session

/-! What a block held before it is written never shows. Two sessions that differ only in that give
the same answers to the same steps, also where bytes that were written are read again. -/
namespace BluetoothUuid

namespace Cursor
open BluetoothUuid.Action (Respects)

/-- The same has been written through both cursors, and both have the same room left. -/
structure SameSoFar (c d : Cursor) : Prop where
  position : c.position = d.position
  left : c.left = d.left
  passed : c.passed = d.passed

variable {block other : Block} {bs : Bytes} {c d : Cursor}

theorem SameSoFar.of_passed (passed : c.passed = d.passed) (left : c.left.toNat = d.left.toNat) :
    SameSoFar c d where
  position := by rw [← UInt64.toNat_inj, ← length_passed, ← length_passed, passed]
  left := UInt64.toNat_inj.mp left
  passed := passed

theorem SameSoFar.of_writes {b a : Cursor} (same : SameSoFar a b) (one : Writes a bs c)
    (two : Writes b bs d) : SameSoFar c d := by
  apply of_passed
  · rw [one.passed, two.passed, same.passed]
  · have left := one.toNat_left
    rw [same.left, two.toNat_left] at left
    omega

/-- Whether a write fits is a matter of the room that is left, not of what the room holds. -/
theorem respects_writeSlice (bs : Bytes) : Respects SameSoFar (writeSlice bs) := by
  intro c d same
  by_cases room : bs.length ≤ c.left.toNat
  · obtain ⟨e, first⟩ := writeSlice_of_room room
    obtain ⟨f, second⟩ := writeSlice_of_room (same.left ▸ room)
    rw [first, second]
    exact ⟨rfl, same.of_writes (writeSlice_eq_ok_iff.mp first) (writeSlice_eq_ok_iff.mp second)⟩
  · have short := Nat.lt_of_not_le room
    have first := writeSlice_eq_error_iff.mpr ⟨short, rfl, rfl⟩
    have second := writeSlice_eq_error_iff.mpr ⟨same.left ▸ short, rfl, rfl⟩
    rw [first, second, same.left]
    exact ⟨rfl, same⟩

theorem respects_write (item : Item) : Respects SameSoFar (write item) := by
  rw [write_eq_writeSlice]
  exact respects_writeSlice item.bytes

theorem respects_writeZeros (count : Nat) : Respects SameSoFar (writeZeros count) := by
  rw [writeZeros_eq_writeSlice]
  exact respects_writeSlice _

/-- What has been written is all that is read again. -/
theorem SameSoFar.reread (same : SameSoFar c d) : c.reread = d.reread := by
  apply ext_views
  · rfl
  · exact same.passed

theorem exists_start_of_open? (opened : open? block = some c) :
    ∃ bytes length_lt, c = start bytes length_lt := by
  cases block with
  | null claimed =>
    cases claimed with
    | zero => exact ⟨_, _, (Option.some.inj opened).symm⟩
    | succ claimed => contradiction
  | of bytes length_lt => exact ⟨_, _, (Option.some.inj opened).symm⟩

theorem SameSoFar.of_open? (first : open? block = some c) (second : open? other = some d)
    (capacity : c.bytes.length = d.bytes.length) : SameSoFar c d := by
  obtain ⟨bytes, fits, rfl⟩ := exists_start_of_open? first
  obtain ⟨bytes', fits', rfl⟩ := exists_start_of_open? second
  apply of_passed
  · rfl
  · rw [← length_ahead, ← length_ahead]
    exact capacity

end Cursor

namespace Session
open BluetoothUuid.Action (Respects respects_eq respects_lift respects_modify respects_get_bind)

/-- The two sessions differ at most in what their blocks hold behind what has been written. -/
structure SameSoFar (s t : Session) : Prop where
  reader : s.reader = t.reader
  writer : Cursor.SameSoFar s.writer t.writer
  slots : s.slots = t.slots

variable {s t : Session}

theorem respects_reading {α : Type} (act : Action Cursor α) : Respects SameSoFar (reading act) := by
  apply (respects_eq act).onPart
  · intro s t same
    exact same.reader
  · rintro s t reader _ same rfl
    exact ⟨rfl, same.writer, same.slots⟩

theorem respects_writing {α : Type} {act : Action Cursor α}
    (respects : Respects Cursor.SameSoFar act) : Respects SameSoFar (writing act) := by
  apply respects.onPart
  · intro s t same
    exact same.writer
  · intro s t writer writer' same kept
    exact ⟨same.reader, kept, same.slots⟩

theorem respects_given (operand : Operand) : Respects SameSoFar (given operand) := by
  apply respects_get_bind
  · intro s t same
    rw [same.slots]
  · intro s
    exact respects_lift _

theorem respects_store (slot : Option String) (u : SomeUuid) :
    Respects SameSoFar (store slot u) := by
  apply respects_modify
  intro s t same
  cases slot with
  | none => exact same
  | some name => exact ⟨same.reader, same.writer, congrArg (Slots.put · name u) same.slots⟩

theorem respects_perform (next : Step) : Respects SameSoFar (perform next) := by
  cases next with
  | read shape => exact (respects_reading _).bind_pure
  | skip count => exact (respects_reading _).bind_pure
  | decode choice slot =>
    apply (respects_lift _).bind
    intro k
    apply (respects_reading _).bind
    intro u
    exact (respects_store slot ⟨k, u⟩).bind_pure
  | write item => exact (respects_writing (Cursor.respects_write item)).bind_pure
  | writeZeros count => exact (respects_writing (Cursor.respects_writeZeros count)).bind_pure
  | encode operand =>
    apply (respects_given operand).bind
    intro u
    exact (respects_writing (Cursor.respects_write (.uuid u))).bind_pure
  | encodeList k operands =>
    apply respects_get_bind
    · intro s t same
      rw [same.slots]
    · intro s
      apply (respects_lift _).bind
      intro us
      exact (respects_writing (Cursor.respects_write (.uuids k us))).bind_pure
  | set slot operand =>
    apply (respects_given operand).bind
    intro u
    exact (respects_store slot u).bind_pure
  | load slot j =>
    apply (respects_lift _).bind
    intro u
    exact (respects_store slot u).bind_pure
  | evaluate operand => exact (respects_given operand).bind_pure
  | compare a b =>
    apply (respects_given a).bind
    intro u
    exact (respects_given b).bind_pure
  | reread =>
    apply Action.Respects.bind_pure
    apply respects_modify
    intro s t same
    exact ⟨same.writer.reread, same.writer, same.slots⟩

theorem SameSoFar.trace (same : SameSoFar s t) (steps : List Step) :
    List.Forall₂ (fun one two => one.1 = two.1 ∧ SameSoFar one.2 two.2) (s.trace steps)
      (t.trace steps) := by
  induction steps generalizing s t with
  | nil => exact .nil
  | cons first rest ih =>
    have step := respects_perform first s t same
    exact .cons step (ih step.2)

theorem exists_open?_of_start {input output : Block} (opened : start input output = .ok s) :
    ∃ reader writer, Cursor.open? input = some reader ∧ Cursor.open? output = some writer ∧
      s = ⟨reader, writer, []⟩ := by
  rw [start] at opened
  split at opened
  · contradiction
  · contradiction
  · next reader writer first second =>
    exact ⟨reader, writer, first, second, (Except.ok.inj opened).symm⟩

/-- Sessions over the same input and over outputs of the same capacity answer the same steps alike,
whatever the outputs held at first, and at any time the same has been written to both. -/
theorem trace_sameSoFar_of_start (input output other : Block) (steps : List Step)
    (opened : start input output = .ok s) (opened_other : start input other = .ok t)
    (capacity : s.writer.bytes.length = t.writer.bytes.length) :
    List.Forall₂ (fun one two => one.1 = two.1 ∧ SameSoFar one.2 two.2) (s.trace steps)
      (t.trace steps) := by
  obtain ⟨reader, writer, input_opened, output_opened, rfl⟩ := exists_open?_of_start opened
  obtain ⟨reader', writer', input_opened', other_opened, rfl⟩ := exists_open?_of_start opened_other
  have same_input := Option.some.inj (input_opened.symm.trans input_opened')
  have same_output := Cursor.SameSoFar.of_open? output_opened other_opened capacity
  have same : SameSoFar ⟨reader, writer, []⟩ ⟨reader', writer', []⟩ :=
    ⟨same_input, same_output, rfl⟩
  exact same.trace steps

theorem trace_sameSoFar_of_start_reread :
    ∃ s t : Session, start (.of [0x18] (by decide)) (.of [1, 2, 3, 4, 5] (by decide)) = .ok s ∧
      start (.of [0x18] (by decide)) (.of [0, 0, 0, 0, 0] (by decide)) = .ok t ∧
      s.writer.bytes.length = t.writer.bytes.length ∧
      let steps : List Step := [.write (.u16 0x1234), .write (.u32 7), .reread,
        .decode (.tag 0) (some "a"), .read .u8, .encodeList .bits16 [.slot "a", .slot "b"],
        .encode (.slot "a")]
      List.Forall₂ (fun one two => one.1 = two.1 ∧ SameSoFar one.2 two.2) (s.trace steps)
        (t.trace steps) := by
  refine ⟨_, _, rfl, rfl, rfl, ?_⟩
  exact trace_sameSoFar_of_start (.of [0x18] (by decide)) (.of [1, 2, 3, 4, 5] (by decide))
    (.of [0, 0, 0, 0, 0] (by decide)) _ rfl rfl rfl

end Session
end BluetoothUuid
