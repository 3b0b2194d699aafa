import BluetoothUuid.Uuid.Record
import BluetoothUuid.Uuid.Text.Parse

/-! The record of a UUID on a line. Writing JSON is the business of a library, of which nothing is known
but how it writes an object of an integer and a plain text. That is enough, since the text of a UUID is
plain, and two records that are written alike are the same, but for the sort of their numbers. -/
namespace BluetoothUuid
open BluetoothUuid.Text (ofString decimal signedDecimal)

namespace Record

/-- The record with the two members alone, whatever number the first of them is. -/
def bare (n : Json.Number) (t : Text) : Json :=
  .object [(bitsKey, .number n), (uuidKey, .string t)]

/-- A byte that is itself between quotes: ASCII that is printed, but no quote and no backslash. -/
def plain (c : UInt8) : Bool :=
  ' '.toUInt8 ≤ c && c ≤ '~'.toUInt8 && c != '"'.toUInt8 && c != '\\'.toUInt8

/-- The record on a line without blanks: the integer in decimal, and the text between quotes. -/
def onLine (i : Int) (t : Text) : Text :=
  ofString "\x7b\"bits\":" ++ signedDecimal i ++ ofString ",\"uuid\":\"" ++ t ++ ofString "\"\x7d"

/-- What is assumed of the library that writes JSON. It may fail on other values, or write them in any
way. The members of these objects are in the order of their names, so that it is no matter whether it
sorts them. -/
structure WritesRecords (dump : Json → Except Error Text) : Prop where
  bare : ∀ (n : Json.Number) (i : Int) (t : Text), n.toInt? = some i →
    (∀ c ∈ t, plain c = true) → dump (Record.bare n t) = .ok (onLine i t)

/-- Writes records, and refuses what has not the two members. -/
def dump (j : Json) : Except Error Text :=
  match (j.member? bitsKey).bind Json.toInt? with
  | some i => do return onLine i (← text j)
  | none => .error .missingBits

/-- A record with the two members alone that is written as the line, its number a 64-bit integer. -/
inductive Written (dump : Json → Except Error Text) (line : Text) : Json → Prop
  | bare {n : Json.Number} {i : Int} {t : Text} (integer : n.toInt? = some i)
      (each : ∀ c ∈ t, plain c = true) (same : dump (Record.bare n t) = .ok line) :
      Written dump line (Record.bare n t)

theorem writesRecords_dump : WritesRecords dump where
  bare n i t integer _ := by
    have told : ((Record.bare n t).member? bitsKey).bind Json.toInt? = some i := integer
    rw [dump, told]
    rfl

/-- A record is told from its line. -/
theorem onLine_inj {i j : Int} {s t : Text} (same : onLine i s = onLine j t) : i = j ∧ s = t := by
  have absent (i : Int) : ','.toUInt8 ∉ signedDecimal i :=
    fun member => absurd (Text.mem_signedDecimal member) (by decide)
  have comma : ofString ",\"uuid\":\"" = ','.toUInt8 :: ofString "\"uuid\":\"" := rfl
  simp only [onLine, comma, List.append_assoc, List.append_cancel_left_eq, List.cons_append] at same
  obtain ⟨numbers, texts⟩ := Text.append_cons_inj (absent i) (absent j) same
  simp only [List.append_cancel_left_eq, List.append_cancel_right_eq] at texts
  exact ⟨Text.signedDecimal_inj.mp numbers, texts⟩

end Record

theorem Uuid.plain_of_mem_text {k : Kind} {f : Format} {u : Uuid k} {c : UInt8}
    (member : c ∈ u.text f) : Record.plain c = true := by
  have each : ∀ c, Hex.isDigit c = true ∨ c = hyphen → Record.plain c = true := by
    apply Text.forall_byte
    decide +kernel
  exact each c (mem_text member)

namespace SomeUuid
variable {dump : Json → Except Error Text} {u : SomeUuid} {j : Json} {line : Text}

theorem dump_toJson (writes : Record.WritesRecords dump) (u : SomeUuid) :
    dump u.toJson = .ok (Record.onLine u.kind.bits (u.text .canonical)) := by
  have number : (Json.Number.signed (Int64.ofNat u.kind.bits)).toInt? = some (u.kind.bits : Int) := by
    cases u.kind <;> rfl
  exact writes.bare _ _ _ number fun c member => Uuid.plain_of_mem_text member

/-- The line of a UUID is that of a record with its number of bits and its text only. -/
theorem eq_bare_of_written (writes : Record.WritesRecords dump) (shown : dump u.toJson = .ok line)
    (written : Record.Written dump line j) :
    ∃ n : Json.Number, n.toInt? = some (u.kind.bits : Int) ∧
      j = Record.bare n (u.text .canonical) := by
  obtain ⟨integer, each, same⟩ := written
  rw [writes.bare _ _ _ integer each, ← shown, dump_toJson writes] at same
  obtain ⟨rfl, rfl⟩ := Record.onLine_inj (Except.ok.inj same)
  exact ⟨_, integer, rfl⟩

end SomeUuid
end BluetoothUuid
