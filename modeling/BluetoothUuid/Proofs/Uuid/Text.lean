import BluetoothUuid.Uuid.Base
import BluetoothUuid.Uuid.Text.Layout
import BluetoothUuid.Uuid.Wire

/-! The text of a UUID and its wire form tell the same, in every format. -/
namespace BluetoothUuid.SomeUuid

/-- A text is read as the bytes that are written at a cursor. It has the length of its kind, its
digits are of the asked case and its hyphens, if any, in their places. Formats differ in nothing but
the case of the digits and the hyphens. -/
theorem text_agrees_with_wire (u : SomeUuid) (f : Format) :
    Hex.decode (u.text f) = .ok u.bytes ∧
    (∀ c d, (Cursor.writeUuid u.uuid).outcome c = (.ok (), d) ↔ c.Writes u.bytes d) ∧
    (u.text f).length = Uuid.textLength u.kind f.hyphens ∧
    (∀ i c, (u.text f)[i]? = some c →
      if u.kind = .bits128 ∧ f.hyphens ∧ i ∈ [8, 13, 18, 23] then c = Uuid.hyphen
      else c ∈ f.letters.digits) ∧
    (u.text ⟨f.letters, true⟩).filter (· != Uuid.hyphen) = u.text (.compact f.letters) ∧
    u.text ⟨.lower, f.hyphens⟩ = Text.inCase .lower (u.text ⟨.upper, f.hyphens⟩) := by
  refine ⟨Uuid.decode_text f u.uuid, ?_, Uuid.length_text f u.uuid, ?_,
    Uuid.filter_text f.letters u.uuid, ?_⟩
  · intro c d
    rw [Cursor.writeUuid_eq_writeSlice, Cursor.writeSlice_eq_ok_iff]
    rfl
  · intro i c found
    exact Uuid.getElem?_text found
  · exact (Uuid.inCase_text .lower .upper f.hyphens u.uuid).symm

theorem text_agrees_with_wire_of_base :
    (text .lower ⟨.bits128, .base⟩)[23]? = some Uuid.hyphen ∧
    (text .lower ⟨.bits128, .base⟩)[34]? = some 'f'.toUInt8 ∧
    'f'.toUInt8 ∈ LetterCase.lower.digits ∧
    Hex.decode (text .lower ⟨.bits128, .base⟩) = .ok Uuid.base.bytes := by
  obtain ⟨decoded, _, _, places, _⟩ := text_agrees_with_wire ⟨.bits128, .base⟩ .lower
  have digit : (text .lower ⟨.bits128, .base⟩)[34]? = some 'f'.toUInt8 := by decide +kernel
  have place := places 34 'f'.toUInt8 digit
  rw [if_neg (by decide)] at place
  exact ⟨by decide +kernel, digit, place, decoded⟩

end BluetoothUuid.SomeUuid
