import BluetoothUuid.Proofs.Record.Checks

/-! Writing a record and reading it are inverse. What is written is read back, and what is read is
written again as the same record in canonical form: capital letters, no blanks, no other members. -/
namespace BluetoothUuid
open BluetoothUuid.Text (inCase trim blanks)
open BluetoothUuid.Record (bits? text? Spells)

variable {k : Kind} {j : Json} {t : Text} {letters : LetterCase}

namespace Record

theorem bits?_make (n : Int64) (t : Text) : bits? (make n t) = some n.toInt := rfl

theorem text?_make (n : Int64) (t : Text) : text? (make n t) = some t := rfl

theorem toInt_ofNat_bits (k : Kind) : (Int64.ofNat k.bits).toInt = k.bits := by
  cases k <;> rfl

/-- The text that spells a UUID is its own, but for letter case and, if full, blanks around it. -/
theorem text_of_spells {u : Uuid k} (spelled : Spells t u) :
    u.text ⟨letters, true⟩ = inCase letters (if k = .bits128 then trim blanks t else t) := by
  by_cases full : k = .bits128
  · subst full
    rw [if_pos rfl]
    exact ((Uuid.parse_eq_ok_iff letters).mp spelled).symm
  · have read := (spells_iff_of_shortened full).mp spelled
    rw [if_neg full, (Hex.pairs?_eq_some_iff letters).mp read, Uuid.text_of_shortened full]

theorem spells_text (letters : LetterCase) (u : Uuid k) : Spells (u.text ⟨letters, true⟩) u := by
  by_cases full : k = .bits128
  · subst full
    exact Uuid.parse_text letters u
  · rw [spells_iff_of_shortened full, Uuid.text_of_shortened full, Hex.pairs?_encode]

end Record

theorem Uuid.ofJson_toJson (u : Uuid k) : Uuid.ofJson k u.toJson = .ok u := by
  apply Record.ofJson_eq_ok_iff.mpr
  constructor
  · rw [Record.kind_eq_ok_iff, Uuid.toJson, Record.bits?_make, Record.toInt_ofNat_bits]
  · exact ⟨u.text .canonical, Record.text?_make _ _, Record.spells_text .upper u⟩

/-- The kind that a record tells is the one that it is then read as. -/
theorem SomeUuid.ofJson_eq_ok_iff {u : SomeUuid} :
    SomeUuid.ofJson j = .ok u ↔ Uuid.ofJson u.kind j = .ok u.uuid := by
  rw [SomeUuid.ofJson, Error.bind_eq_ok_iff]
  simp only [Error.bind_eq_ok_iff]
  constructor
  · rintro ⟨k, _, v, read, made⟩
    cases made
    exact read
  · intro read
    exact ⟨u.kind, (Record.ofJson_eq_ok_iff.mp read).1, u.uuid, read, rfl⟩

namespace Record

/-- Every UUID is read back from its record, also by those who expect its kind. A record that is
read gives again the record with the same number of bits and the same text in capital letters, if
full without the blanks around it, whatever else the record had. -/
theorem ofJson_toJson_and_toJson_ofJson :
    (∀ u : SomeUuid, SomeUuid.ofJson u.toJson = .ok u) ∧
    (∀ (k : Kind) (u : Uuid k), Uuid.ofJson k u.toJson = .ok u) ∧
    ∀ (j : Json) (u : SomeUuid), SomeUuid.ofJson j = .ok u →
      ∃ (n : Int64) (t : Text), bits? j = some n.toInt ∧ text? j = some t ∧
        u.toJson = make n (inCase .upper (if n = 128 then trim blanks t else t)) := by
  refine ⟨?_, ?_, ?_⟩
  · intro u
    exact SomeUuid.ofJson_eq_ok_iff.mpr u.uuid.ofJson_toJson
  · intro k u
    exact u.ofJson_toJson
  · rintro j ⟨k, u⟩ read
    obtain ⟨told, t, given, spelled⟩ := ofJson_eq_ok_iff.mp (SomeUuid.ofJson_eq_ok_iff.mp read)
    have full : Int64.ofNat k.bits = 128 ↔ k = .bits128 := by cases k <;> decide
    refine ⟨Int64.ofNat k.bits, t, ?_, given, ?_⟩
    · rw [toInt_ofNat_bits]
      exact kind_eq_ok_iff.mp told
    · simp only [full]
      exact congrArg (make _) (text_of_spells spelled)

theorem toJson_ofJson_of_padded_lower_case :
    SomeUuid.ofJson (.object [(Text.ofString "note", .null), (bitsKey, .number (.unsigned 128)),
      (uuidKey, .string (Text.ofString "\t0000180d-0000-1000-8000-00805f9B34Fb \n"))]) =
        .ok ⟨.bits128, ⟨0x0000180D_0000_1000_8000_00805F9B34FB⟩⟩ ∧
    ∃ (n : Int64) (t : Text), n.toInt = 128 ∧
      t = Text.ofString "\t0000180d-0000-1000-8000-00805f9B34Fb \n" ∧
      SomeUuid.toJson ⟨.bits128, ⟨0x0000180D_0000_1000_8000_00805F9B34FB⟩⟩ =
        make n (inCase .upper (if n = 128 then trim blanks t else t)) := by
  have read : SomeUuid.ofJson (.object [(Text.ofString "note", .null),
      (bitsKey, .number (.unsigned 128)),
      (uuidKey, .string (Text.ofString "\t0000180d-0000-1000-8000-00805f9B34Fb \n"))]) =
        .ok ⟨.bits128, ⟨0x0000180D_0000_1000_8000_00805F9B34FB⟩⟩ := by
    rfl
  obtain ⟨n, t, bits, text, written⟩ := ofJson_toJson_and_toJson_ofJson.2.2 _ _ read
  refine ⟨read, n, t, ?_, ?_, written⟩
  · exact (Option.some.inj bits).symm
  · exact (Option.some.inj text).symm

end Record
end BluetoothUuid
