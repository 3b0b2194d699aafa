import Mathlib.Logic.ExistsUnique
import BluetoothUuid.Uuid.Record.Bits
import BluetoothUuid.Uuid.Record.Dump
import BluetoothUuid.Proofs.Record.RoundTrip

/-! The reader of records of all kinds against the readers of one kind. What is wrong with the number of
bits is wrong for all of them. Where it is that of a kind, the reader of all kinds is the reader of that
kind, and the others refuse the record because of the number. -/
namespace BluetoothUuid
open BluetoothUuid.Text (ofString decimal)

variable {j : Json} {k : Kind} {e : Error}

theorem Uuid.ofJson_of_kind_error (failed : Record.kind j = .error e) (k : Kind) :
    Uuid.ofJson k j = .error e := by
  rw [Uuid.ofJson, Record.requireBits, failed]
  rfl

theorem Uuid.ofJson_of_other {other : Kind} (told : Record.kind j = .ok k) (different : other ≠ k) :
    Uuid.ofJson other j = .error (.otherBits other.bits k.bits) :=
  Record.ofJson_eq_error_iff.mpr ⟨_, .otherBits told (Ne.symm different)⟩

namespace SomeUuid

theorem ofJson_of_kind_error (failed : Record.kind j = .error e) : ofJson j = .error e := by
  rw [ofJson, failed]
  rfl

/-- The whole outcome is that of the reader of the kind. -/
theorem ofJson_of_kind (told : Record.kind j = .ok k) :
    ofJson j = (Uuid.ofJson k j).map (SomeUuid.mk k) := by
  rw [ofJson, told]
  change (Uuid.ofJson k j >>= fun u => (pure ⟨k, u⟩ : Except Error SomeUuid)) = _
  cases Uuid.ofJson k j <;> rfl

end SomeUuid

namespace Record

/-- A reader of one kind accepts no record but one that tells its kind. -/
theorem kind_of_ofJson {u : Uuid k} (read : Uuid.ofJson k j = .ok u) : kind j = .ok k :=
  (ofJson_eq_ok_iff.mp read).1

theorem exists_ofJson_iff_existsUnique :
    (∃ u, SomeUuid.ofJson j = .ok u) ↔ ∃! k, ∃ u : Uuid k, Uuid.ofJson k j = .ok u := by
  constructor
  · rintro ⟨⟨k, u⟩, read⟩
    have here : Uuid.ofJson k j = .ok u := SomeUuid.ofJson_eq_ok_iff.mp read
    refine ⟨k, ⟨u, here⟩, ?_⟩
    rintro other ⟨v, there⟩
    exact Except.ok.inj ((kind_of_ofJson there).symm.trans (kind_of_ofJson here))
  · rintro ⟨k, ⟨u, read⟩, _⟩
    exact ⟨⟨k, u⟩, SomeUuid.ofJson_eq_ok_iff.mpr read⟩

/-- The reader of all kinds fails with every reader of one kind, if the number of bits cannot be told,
and otherwise does what the reader of that number does, while the others find another number than
their own. It accepts a record exactly if one reader of one kind does. -/
theorem ofJson_agrees_with_reader_of_kind (j : Json) :
    SomeUuid.ofJsonByBits j = SomeUuid.ofJson j ∧
    (∀ k, Uuid.ofJsonWithBits k j = Uuid.ofJson k j) ∧
    (∀ e, bits j = .error e →
      SomeUuid.ofJson j = .error e ∧ ∀ k, Uuid.ofJson k j = .error e) ∧
    (∀ n, bits j = .ok n → ∃ k : Kind, n.toInt = k.bits ∧
      SomeUuid.ofJson j = (Uuid.ofJson k j).map (SomeUuid.mk k) ∧
      ∀ other : Kind, other ≠ k → ∃ e, Uuid.ofJson other j = .error e ∧
        e.message = ofString "UUID json: expected " ++ decimal other.bits ++
          ofString "-bit UUID, got " ++ Text.signedDecimal n.toInt) ∧
    ((∃ u, SomeUuid.ofJson j = .ok u) ↔ ∃! k, ∃ u : Uuid k, Uuid.ofJson k j = .ok u) ∧
    ∀ u, SomeUuid.ofJson j = .ok u ↔ Uuid.ofJson u.kind j = .ok u.uuid := by
  refine ⟨SomeUuid.ofJsonByBits_eq_ofJson j, ?_, ?_, ?_, exists_ofJson_iff_existsUnique, ?_⟩
  · intro k
    exact Uuid.ofJsonWithBits_eq_ofJson k j
  · intro e failed
    have untold := bits_eq_error_iff.mp failed
    exact ⟨SomeUuid.ofJson_of_kind_error untold, Uuid.ofJson_of_kind_error untold⟩
  · intro n found
    obtain ⟨k, told, rfl⟩ := bits_eq_ok_iff.mp found
    refine ⟨k, toInt_word k, SomeUuid.ofJson_of_kind told, ?_⟩
    intro other different
    refine ⟨_, Uuid.ofJson_of_other told different, ?_⟩
    rw [toInt_word]
    exact Error.message_otherBits other.bits k.bits
  · intro u
    exact SomeUuid.ofJson_eq_ok_iff

/-- With a minus sign it is the number of no kind. -/
theorem ofJson_agrees_with_reader_of_kind_at_32_and_minus_32 :
    bits (bare (.unsigned 32) (ofString "0000180F")) = .ok 32 ∧
    SomeUuid.ofJson (bare (.unsigned 32) (ofString "0000180F")) = .ok ⟨.bits32, ⟨0x180F⟩⟩ ∧
    (∃ e, Uuid.ofJson .bits16 (bare (.unsigned 32) (ofString "0000180F")) = .error e ∧
      e.message = ofString "UUID json: expected 16-bit UUID, got 32") ∧
    bits (bare (.signed (-32)) (ofString "0000180F")) = .error (.wrongBits (-32)) ∧
    Uuid.ofJson .bits32 (bare (.signed (-32)) (ofString "0000180F")) =
      .error (.wrongBits (-32)) := by
  obtain ⟨_, _, _, agreed, _⟩ :=
    ofJson_agrees_with_reader_of_kind (bare (.unsigned 32) (ofString "0000180F"))
  obtain ⟨_, _, refused, _⟩ :=
    ofJson_agrees_with_reader_of_kind (bare (.signed (-32)) (ofString "0000180F"))
  have right : bits (bare (.unsigned 32) (ofString "0000180F")) = .ok 32 := rfl
  have wrong : bits (bare (.signed (-32)) (ofString "0000180F")) = .error (.wrongBits (-32)) := rfl
  obtain ⟨k, same, whole, others⟩ := agreed 32 right
  obtain rfl : k = .bits32 := Kind.bits_inj.mp same.symm
  obtain ⟨e, failed, message⟩ := others .bits16 (by decide)
  refine ⟨right, whole, ⟨e, failed, message.trans ?_⟩, wrong, (refused _ wrong).2 .bits32⟩
  decide +kernel

end Record
end BluetoothUuid
