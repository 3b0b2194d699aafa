import BluetoothUuid.Hex.Scan
import BluetoothUuid.Proofs.Record.Checks

/-! The digits of a record before they are read. A text that is let through has as many bytes as were
asked for and each of them is a digit, also by the table of the reader, so that the reader takes all
of it in pairs. Nothing can be wrong with it but that one digit is over. -/
namespace BluetoothUuid.Record
open BluetoothUuid.Text (ofString)

/-- The value is an object whose text is this one. -/
def GivesText (j : Json) (t : Text) : Prop :=
  ∃ members, j = .object members ∧ members.lookup uuidKey = some (.string t)

variable {j : Json} {t : Text} {count : Nat} {c : UInt8}

theorem givesText_iff : GivesText j t ↔ text? j = some t := by
  constructor
  · rintro ⟨members, rfl, found⟩
    rw [text?, Json.member?, found]
    rfl
  · intro given
    obtain ⟨field, found, string⟩ := Option.bind_eq_some_iff.mp given
    cases j with
    | object members =>
      cases field with
      | string s =>
        cases string
        exact ⟨members, rfl, found⟩
      | _ => contradiction
    | _ => contradiction

/-- What may stand in a text of digits: no separator, NUL or byte beyond ASCII, and nothing that the table
of the reader has no number for. -/
structure ReadAsDigit (c : UInt8) : Prop where
  bare : Hex.isSeparator c = false
  notNul : c ≠ 0
  ascii : c ≤ 127
  entry : ∃ entry, Hex.reverseTable[c.toNat]? = some entry ∧ 0 ≤ entry

theorem readAsDigit_of_isDigit (digit : Hex.isDigit c = true) : ReadAsDigit c := by
  obtain ⟨nibble, read⟩ := Option.isSome_iff_exists.mp digit
  refine ⟨Hex.not_isSeparator_of_nibble? read, ?_, (Hex.reverseTable_of_nibble? c nibble read).1,
    Hex.isDigit_iff_reverseTable.mp digit⟩
  rintro rfl
  contradiction

/-- The digits are let through exactly if the text has that many of them and nothing else, whether they
are told by the digits of both cases or by the table of the reader. They are then read, half as many
bytes, if their number is even, and otherwise the only offence is that it is odd. -/
theorem digits_guards_decode (count : Nat) (j : Json) :
    (∀ t, digits count j = .ok t ↔
      GivesText j t ∧ t.length = count ∧ ∀ c ∈ t, ∃ letters : LetterCase, c ∈ letters.digits) ∧
    (∀ t, digits count j = .ok t →
      (∀ c ∈ t, ReadAsDigit c) ∧
      Hex.scan (-1) t = some (Hex.decode t) ∧
      (count % 2 = 0 → ∃ bs, Hex.decode t = .ok bs ∧ bs.length = count / 2) ∧
      (count % 2 = 1 → Hex.decode t = .error .oddHexDigits)) ∧
    Error.oddHexDigits.message = ofString "Odd number of hex digits." ∧
    ∀ c : UInt8, (∃ letters : LetterCase, c ∈ letters.digits) ↔
      ∃ entry, Hex.reverseTable[c.toNat]? = some entry ∧ 0 ≤ entry := by
  refine ⟨?_, ?_, by decide, ?_⟩
  · intro t
    simp only [digits_eq_ok_iff, givesText_iff, Hex.isDigit_iff_exists_mem_digits]
  · intro t passed
    obtain ⟨_, length, each⟩ := digits_eq_ok_iff.mp passed
    refine ⟨fun c member => readAsDigit_of_isDigit (each c member), (Hex.scan_eq_decode t).1, ?_, ?_⟩
    · intro even
      have halves : t.length = 2 * (count / 2) := by omega
      obtain ⟨bs, read⟩ := Hex.exists_pairs? halves each
      have size := Hex.length_of_pairs? read
      exact ⟨bs, Hex.decode_of_pairs? read, by omega⟩
    · intro odd
      have halves : t.length = 2 * (count / 2) + 1 := by omega
      exact Hex.decode_of_odd halves each
  · intro c
    rw [← Hex.isDigit_iff_exists_mem_digits, Hex.isDigit_iff_reverseTable]

/-- A separator and a NUL have as many bytes as digits have, and are not let through. -/
theorem digits_guards_decode_of_four_and_five :
    digits 4 (.object [(uuidKey, .string (ofString "0aF1"))]) = .ok (ofString "0aF1") ∧
    (∃ bs, Hex.decode (ofString "0aF1") = .ok bs ∧ bs.length = 2) ∧
    digits 5 (.object [(uuidKey, .string (ofString "0aF19"))]) = .ok (ofString "0aF19") ∧
    Hex.decode (ofString "0aF19") = .error .oddHexDigits ∧
    (∀ t, digits 5 (.object [(uuidKey, .string (ofString "0a F1"))]) ≠ .ok t) ∧
    ∀ t, digits 5 (.object [(uuidKey, .string (ofString "0aF1\x00"))]) ≠ .ok t := by
  obtain ⟨_, even, _⟩ := digits_guards_decode 4 (.object [(uuidKey, .string (ofString "0aF1"))])
  obtain ⟨_, odd, _⟩ := digits_guards_decode 5 (.object [(uuidKey, .string (ofString "0aF19"))])
  have four : digits 4 (.object [(uuidKey, .string (ofString "0aF1"))]) = .ok (ofString "0aF1") := rfl
  have five : digits 5 (.object [(uuidKey, .string (ofString "0aF19"))]) = .ok (ofString "0aF19") := rfl
  refine ⟨four, (even _ four).2.2.1 rfl, five, (odd _ five).2.2.2 rfl, ?_, ?_⟩
  · intro t passed
    contradiction
  · intro t passed
    contradiction

end BluetoothUuid.Record
