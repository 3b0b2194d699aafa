import BluetoothUuid.Uuid.Record.Bits
import BluetoothUuid.Proofs.Record.Checks

/-! The number of bits of a record as the integer that is written there. It is one of 65 bits, since it is
kept as a word of 64 bits either with a sign or without, and every such integer occurs. None of them is
taken for another one, however many low bits they share, and a number of no kind is named as it is. -/
namespace BluetoothUuid.Record
open BluetoothUuid.Text (ofString signedDecimal)

/-- The value is an object whose number of bits is this integer. -/
inductive TellsBits : Json → Int → Prop
  | unsigned {members : List (Text × Json)} {value : UInt64}
      (found : members.lookup bitsKey = some (.number (.unsigned value))) :
      TellsBits (.object members) value.toNat
  | signed {members : List (Text × Json)} {value : Int64}
      (found : members.lookup bitsKey = some (.number (.signed value))) :
      TellsBits (.object members) value.toInt

variable {j : Json} {i : Int}

theorem tellsBits_iff : TellsBits j i ↔ bits? j = some i := by
  constructor
  · intro tells
    cases tells with
    | unsigned found | signed found =>
      rw [bits?, Json.member?, found]
      rfl
  · intro told
    obtain ⟨field, found, integer⟩ := Option.bind_eq_some_iff.mp told
    cases j with
    | object members =>
      cases field with
      | number n =>
        cases n with
        | unsigned value =>
          cases integer
          exact .unsigned found
        | signed value =>
          cases integer
          exact .signed found
        | other written => contradiction
      | _ => contradiction
    | _ => contradiction

/-- The integers that can be told are those that 64 bits hold with a sign or without. -/
theorem exists_tellsBits_iff :
    (∃ j, TellsBits j i) ↔ -0x8000000000000000 ≤ i ∧ i < 0x10000000000000000 := by
  constructor
  · rintro ⟨j, tells⟩
    cases tells with
    | @unsigned members value found =>
      have above := value.toNat_lt
      omega
    | @signed members value found =>
      have below := value.le_toInt
      have above := value.toInt_lt
      omega
  · rintro ⟨below, above⟩
    have alone (n : Json.Number) :
        [(bitsKey, Json.number n)].lookup bitsKey = some (.number n) := by
      rw [List.lookup_cons_self]
    by_cases negative : i < 0
    · have held : (Int64.ofInt i).toInt = i := Int64.toInt_ofInt_of_le (by omega) (by omega)
      have tells := TellsBits.signed (alone (.signed (Int64.ofInt i)))
      rw [held] at tells
      exact ⟨_, tells⟩
    · have small : i.toNat < UInt64.size := by
        simp only [UInt64.size]
        omega
      have held : ((UInt64.ofNat i.toNat).toNat : Int) = i := by
        rw [UInt64.toNat_ofNat_of_lt' small]
        exact Int.toNat_of_nonneg (Int.not_lt.mp negative)
      have tells := TellsBits.unsigned (alone (.unsigned (UInt64.ofNat i.toNat)))
      rw [held] at tells
      exact ⟨_, tells⟩

theorem exists_bits_iff :
    (∃ n : Int32, bits j = .ok n ∧ n.toInt = i) ↔ TellsBits j i ∧ (i = 16 ∨ i = 32 ∨ i = 128) := by
  simp only [bits_eq_ok_iff, kind_eq_ok_iff, tellsBits_iff]
  constructor
  · rintro ⟨_, ⟨k, told, rfl⟩, rfl⟩
    rw [toInt_word]
    exact ⟨told, by cases k <;> decide⟩
  · rintro ⟨told, rfl | rfl | rfl⟩
    · exact ⟨_, ⟨.bits16, told, rfl⟩, rfl⟩
    · exact ⟨_, ⟨.bits32, told, rfl⟩, rfl⟩
    · exact ⟨_, ⟨.bits128, told, rfl⟩, rfl⟩

/-- A number of bits is taken exactly if it is the one of a kind. Any other integer is refused by its
value, with the sign, and what is no integer is missed. -/
theorem bits_takes_or_names_number (j : Json) :
    (∀ i, (∃ n : Int32, bits j = .ok n ∧ n.toInt = i) ↔
      TellsBits j i ∧ (i = 16 ∨ i = 32 ∨ i = 128)) ∧
    (∀ i, TellsBits j i → i ≠ 16 ∧ i ≠ 32 ∧ i ≠ 128 →
      ∃ e, bits j = .error e ∧ e.ofCursor = false ∧
        e.message = ofString "UUID json: \"bits\" must be 16, 32 or 128, got " ++ signedDecimal i) ∧
    ((∀ i, ¬ TellsBits j i) →
      ∃ e, bits j = .error e ∧ e.ofCursor = false ∧
        e.message = ofString "UUID json: missing integer field \"bits\"") ∧
    ∀ i, (∃ other, TellsBits other i) ↔ -0x8000000000000000 ≤ i ∧ i < 0x10000000000000000 := by
  refine ⟨?_, ?_, ?_, ?_⟩
  · intro i
    exact exists_bits_iff
  · intro i tells other
    refine ⟨.wrongBits i, ?_, rfl, Error.message_wrongBits i⟩
    exact bits_eq_error_iff.mpr (kind_eq_error_iff.mpr (.inr ⟨i, tellsBits_iff.mp tells, other, rfl⟩))
  · intro untold
    have missing : bits? j = none := by
      cases told : bits? j with
      | none => rfl
      | some i => exact absurd (tellsBits_iff.mpr told) (untold i)
    refine ⟨.missingBits, ?_, rfl, by decide⟩
    exact bits_eq_error_iff.mpr (kind_eq_error_iff.mpr (.inl ⟨missing, rfl⟩))
  · intro i
    exact exists_tellsBits_iff

/-- The first of these numbers has the low 32 bits of 16, and the second one the low 8 bits. -/
theorem bits_takes_or_names_number_of_aliases :
    (∃ e, bits (.object [(bitsKey, .number (.unsigned 4294967312))]) = .error e ∧
      e.message = ofString "UUID json: \"bits\" must be 16, 32 or 128, got 4294967312") ∧
    (∃ e, bits (.object [(bitsKey, .number (.signed (-240)))]) = .error e ∧
      e.message = ofString "UUID json: \"bits\" must be 16, 32 or 128, got -240") ∧
    (∃ n : Int32, bits (.object [(bitsKey, .number (.signed 128))]) = .ok n ∧ n.toInt = 128) ∧
    (∀ i, ¬ TellsBits (.object [(bitsKey, .number (.other (ofString "16.0")))]) i) ∧
    ∃ e, bits (.object [(bitsKey, .number (.other (ofString "16.0")))]) = .error e ∧
      e.message = ofString "UUID json: missing integer field \"bits\"" := by
  obtain ⟨_, large, _⟩ :=
    bits_takes_or_names_number (.object [(bitsKey, .number (.unsigned 4294967312))])
  obtain ⟨_, negative, _⟩ :=
    bits_takes_or_names_number (.object [(bitsKey, .number (.signed (-240)))])
  obtain ⟨taken, _⟩ := bits_takes_or_names_number (.object [(bitsKey, .number (.signed 128))])
  obtain ⟨_, _, missing, _⟩ :=
    bits_takes_or_names_number (.object [(bitsKey, .number (.other (ofString "16.0")))])
  have untold : ∀ i, ¬ TellsBits (.object [(bitsKey, .number (.other (ofString "16.0")))]) i := by
    intro i tells
    have told := tellsBits_iff.mp tells
    contradiction
  obtain ⟨e, refused, _, named⟩ := large _ (.unsigned rfl) (by decide)
  obtain ⟨e', refused', _, named'⟩ := negative _ (.signed rfl) (by decide)
  obtain ⟨f, missed, _, message⟩ := missing untold
  refine ⟨⟨e, refused, named.trans ?_⟩, ⟨e', refused', named'.trans ?_⟩,
    (taken (128 : Int64).toInt).mpr ⟨.signed rfl, .inr (.inr rfl)⟩, untold, ⟨f, missed, message⟩⟩
  · decide +kernel
  · decide +kernel

end BluetoothUuid.Record
