import BluetoothUuid.Uuid.Base
import BluetoothUuid.Uuid.Record
import BluetoothUuid.Uuid.Text.Parse
import BluetoothUuid.Uuid.Wire

/-! Widening and writing as text, done at a cursor. A number is written over the beginning of the Base
UUID, or into a block of its own whose digits are the text. There is always room for it, and what comes
of it is the same as by calculation. -/
namespace BluetoothUuid

namespace Kind

/-- A block that a UUID of the kind is written to. What it holds before is never seen. -/
def block (k : Kind) : Bytes := List.replicate k.size 0

theorem length_block (k : Kind) : k.block.length = k.size := List.length_replicate

theorem length_block_lt (k : Kind) : k.block.length < UInt64.size := by
  rw [length_block]
  exact k.size_lt

end Kind

namespace Cursor

/-- The cursor after an operation over the whole of a block. -/
def after (block : Bytes) (fits : block.length < UInt64.size) (act : Action Cursor Unit) :
    Except Error Cursor :=
  let (answer, c) := act.outcome (start block fits)
  answer.map fun _ => c

/-- The block after an operation at a cursor over the whole of it. -/
def fill (block : Bytes) (fits : block.length < UInt64.size) (act : Action Cursor Unit) :
    Except Error Bytes :=
  (after block fits act).map bytes

variable {k : Kind} {block : Bytes}

/-- A block as long as a UUID has room for it, and nothing of what it held is left. -/
theorem after_writeUuid (length : block.length = k.size) (fits : block.length < UInt64.size)
    (u : Uuid k) :
    ∃ c, after block fits (writeUuid u) = .ok c ∧ c.bytes = u.bytes ∧ c.passed = u.bytes := by
  have left : (start block fits).left.toNat = k.size := by
    rw [← length_ahead, ahead_start, length]
  obtain ⟨c, done, written⟩ := writeUuid_of_room u (Nat.le_of_eq left.symm)
  have passed : c.passed = u.bytes := written.passed
  have nothing : c.ahead = [] := by
    rw [written.ahead, ahead_start, u.length_bytes, ← length, List.drop_length]
  refine ⟨c, ?_, ?_, passed⟩
  · simp only [after, done, Except.map]
  · rw [← passed_append_ahead c, passed, nothing, List.append_nil]

theorem fill_writeUuid (length : block.length = k.size) (fits : block.length < UInt64.size)
    (u : Uuid k) : fill block fits (writeUuid u) = .ok u.bytes := by
  obtain ⟨c, done, bytes, _⟩ := after_writeUuid length fits u
  rw [fill, done, ← bytes]
  rfl

end Cursor

namespace Uuid
variable {k : Kind}

/-- Writes the number over the first bytes of the Base UUID, at a cursor that has only these. -/
def widenInPlace (u : Uuid .bits32) : Except Error (Uuid .bits128) := do
  let front ← Cursor.fill (base.bytes.take Kind.bits32.size) (by decide) (Cursor.writeUuid u)
  return ofBytes .bits128 (front ++ base.bytes.drop Kind.bits32.size)

/-- Writes the UUID over a block, whose digits are the text. -/
def textInPlace (f : Format) (block : Bytes) (fits : block.length < UInt64.size) (u : Uuid k) :
    Except Error Text := do
  let written ← Cursor.fill block fits (Cursor.writeUuid u)
  return Hex.encode f.letters written

/-- Widens a shortened UUID in place, one of 16 bits as one of 32 bits. -/
def widen : {k : Kind} → Uuid k → Except Error (Uuid .bits128)
  | .bits16, u => u.widen32.widenInPlace
  | .bits32, u => u.widenInPlace
  | .bits128, u => .ok u

/-- Writes a UUID as text, a shortened one in place. -/
def toText (f : Format) : {k : Kind} → Uuid k → Except Error Text
  | .bits128, u => .ok (u.text f)
  | k, u => textInPlace f k.block k.length_block_lt u

def serialize (u : Uuid k) : Except Error Json := do
  return Record.make (Int64.ofNat k.bits) (← u.toText .canonical)

/-- What is written of a block that the UUID is written to. -/
def wireForm (u : Uuid k) : Except Error Bytes :=
  (Cursor.after k.block k.length_block_lt (Cursor.writeUuid u)).map Cursor.passed

theorem widenInPlace_eq_ok (u : Uuid .bits32) : u.widenInPlace = .ok u.toFull := by
  have length : (base.bytes.take Kind.bits32.size).length = Kind.bits32.size := rfl
  have front := Cursor.fill_writeUuid length (by decide) u
  have whole : u.bytes ++ base.bytes.drop Kind.bits32.size = u.toFull.bytes :=
    (bytes_toFull u (by decide)).symm
  rw [widenInPlace, front, ← ofBytes_bytes u.toFull, ← whole]
  rfl

theorem textInPlace_eq_ok {f : Format} {block : Bytes} {u : Uuid k} (shortened : k ≠ .bits128)
    (length : block.length = k.size) (fits : block.length < UInt64.size) :
    textInPlace f block fits u = .ok (u.text f) := by
  rw [textInPlace, Cursor.fill_writeUuid length, text_of_shortened shortened]
  rfl

theorem widen_eq_ok (u : Uuid k) : u.widen = .ok u.toFull := by
  cases k with
  | bits16 => rw [widen, widenInPlace_eq_ok, toFull_widen32]
  | bits32 => exact widenInPlace_eq_ok u
  | bits128 => rfl

theorem toText_of_shortened {f : Format} {u : Uuid k} (shortened : k ≠ .bits128) :
    u.toText f = textInPlace f k.block k.length_block_lt u := by
  cases k with
  | bits16 | bits32 => rfl
  | bits128 => contradiction

theorem toText_eq_ok (f : Format) (u : Uuid k) : u.toText f = .ok (u.text f) := by
  by_cases full : k = .bits128
  · subst full
    rfl
  · rw [toText_of_shortened full, textInPlace_eq_ok full k.length_block]

theorem serialize_eq_ok (u : Uuid k) : u.serialize = .ok u.toJson := by
  rw [serialize, toText_eq_ok]
  rfl

theorem wireForm_eq_ok (u : Uuid k) : u.wireForm = .ok u.bytes := by
  obtain ⟨c, done, _, passed⟩ := Cursor.after_writeUuid k.length_block k.length_block_lt u
  rw [wireForm, done, ← passed]
  rfl

end Uuid
end BluetoothUuid
