import BluetoothUuid.Uuid.Record

/-! The number of bits of a record as a machine word. It is compared as the word of 64 bits that it came
as, with a sign or without, and narrowed to 32 bits only if it is that of a kind. The reader of all
kinds looks at it to choose a reader of one kind, and that one looks at it again. This is the same as
telling the kind from the number as it is. -/
namespace BluetoothUuid

namespace Record

/-- Narrows a number of bits, if it is that of a kind. Otherwise the number is reported as it was. -/
def checked {α : Type} [DecidableEq α] [∀ n, OfNat α n] (toInt : α → Int) (narrow : α → Int32)
    (value : α) : Except Error Int32 :=
  if value ≠ 16 ∧ value ≠ 32 ∧ value ≠ 128 then .error (.wrongBits (toInt value))
  else .ok (narrow value)

def bits (j : Json) : Except Error Int32 :=
  match j.member? bitsKey with
  | some (.number (.unsigned value)) =>
    checked (fun n : UInt64 => (n.toNat : Int)) (fun n => n.toUInt32.toInt32) value
  | some (.number (.signed value)) => checked Int64.toInt Int64.toInt32 value
  | _ => .error .missingBits

def expectBits (expected : Int32) (j : Json) : Except Error Unit := do
  let found ← bits j
  if found ≠ expected then .error (.otherBits expected.toInt found.toInt) else .ok ()

/-- The number of bits of a kind in 32 bits. -/
def word (k : Kind) : Int32 := Int32.ofNat k.bits

end Record

namespace Uuid

/-- Reads a record that has to have the number of bits of the kind. -/
def ofJsonWithBits (k : Kind) (j : Json) : Except Error (Uuid k) := do
  Record.expectBits (Record.word k) j
  Record.value j k

end Uuid

namespace SomeUuid

/-- Chooses the reader by the number of bits. What is neither 16 nor 32 is left to that of full UUIDs. -/
def ofJsonByBits (j : Json) : Except Error SomeUuid := do
  let bits ← Record.bits j
  if bits = 16 then return ⟨.bits16, ← Uuid.ofJsonWithBits .bits16 j⟩
  else if bits = 32 then return ⟨.bits32, ← Uuid.ofJsonWithBits .bits32 j⟩
  else return ⟨.bits128, ← Uuid.ofJsonWithBits .bits128 j⟩

end SomeUuid

namespace Record
variable {j : Json} {k : Kind}

theorem toInt_word (k : Kind) : (word k).toInt = k.bits := by cases k <;> rfl

theorem word_inj {j k : Kind} : word j = word k ↔ j = k := by
  rw [← Int32.toInt_inj, toInt_word, toInt_word, Kind.bits_inj]

/-- A word is compared like the integer that it is, and the numbers of the kinds are kept when it is
narrowed. -/
private theorem checked_eq {α : Type} [DecidableEq α] [∀ n, OfNat α n] {toInt : α → Int}
    {narrow : α → Int32} (inj : ∀ a b, toInt a = toInt b → a = b)
    (at16 : toInt 16 = 16 ∧ narrow 16 = 16) (at32 : toInt 32 = 32 ∧ narrow 32 = 32)
    (at128 : toInt 128 = 128 ∧ narrow 128 = 128) (value : α) :
    checked toInt narrow value =
      match Kind.ofBits? (toInt value) with
      | some k => .ok (word k)
      | none => .error (.wrongBits (toInt value)) := by
  by_cases other : value ≠ 16 ∧ value ≠ 32 ∧ value ≠ 128
  · have none : Kind.ofBits? (toInt value) = none := by
      obtain ⟨not16, not32, not128⟩ := other
      rw [Kind.ofBits?_eq_none_iff]
      refine ⟨?_, ?_, ?_⟩
      · exact fun same => not16 (inj _ _ (same.trans at16.1.symm))
      · exact fun same => not32 (inj _ _ (same.trans at32.1.symm))
      · exact fun same => not128 (inj _ _ (same.trans at128.1.symm))
    rw [checked, if_pos other, none]
  · rw [checked, if_neg other]
    by_cases is16 : value = 16
    · rw [is16, at16.1, at16.2]
      rfl
    by_cases is32 : value = 32
    · rw [is32, at32.1, at32.2]
      rfl
    by_cases is128 : value = 128
    · rw [is128, at128.1, at128.2]
      rfl
    exact absurd ⟨is16, is32, is128⟩ other

theorem bits_eq_map_kind (j : Json) : bits j = (kind j).map word := by
  have same {n : Json.Number} {i : Int} (found : j.member? bitsKey = some (.number n))
      (integer : n.toInt? = some i) :
      (kind j).map word =
        match Kind.ofBits? i with
        | some k => .ok (word k)
        | none => .error (.wrongBits i) := by
    have given : (j.member? bitsKey).bind Json.toInt? = some i := by
      rw [found]
      exact integer
    simp only [kind, given]
    cases Kind.ofBits? i <;> rfl
  have missing (none : (j.member? bitsKey).bind Json.toInt? = none) :
      (kind j).map word = .error .missingBits := by
    rw [kind, none]
    rfl
  rw [bits]
  cases found : j.member? bitsKey with
  | none => exact (missing (by rw [found]; rfl)).symm
  | some field =>
    cases field with
    | number n =>
      cases n with
      | unsigned value =>
        have inj : ∀ a b : UInt64, (a.toNat : Int) = b.toNat → a = b :=
          fun a b equal => UInt64.toNat_inj.mp (Int.ofNat_inj.mp equal)
        rw [same found rfl]
        exact checked_eq inj ⟨rfl, rfl⟩ ⟨rfl, rfl⟩ ⟨rfl, rfl⟩ value
      | signed value =>
        rw [same found rfl]
        exact checked_eq (fun _ _ => Int64.toInt_inj.mp) ⟨rfl, rfl⟩ ⟨rfl, rfl⟩ ⟨rfl, rfl⟩ value
      | other written => exact (missing (by rw [found]; rfl)).symm
    | _ => exact (missing (by rw [found]; rfl)).symm

theorem bits_eq_ok_iff {n : Int32} : bits j = .ok n ↔ ∃ k, kind j = .ok k ∧ word k = n := by
  rw [bits_eq_map_kind]
  cases kind j <;> simp [Except.map]

theorem bits_eq_error_iff {e : Error} : bits j = .error e ↔ kind j = .error e := by
  rw [bits_eq_map_kind]
  cases kind j <;> simp [Except.map]

theorem expectBits_eq_requireBits (k : Kind) (j : Json) :
    expectBits (word k) j = requireBits k.bits j := by
  rw [expectBits, requireBits, bits_eq_map_kind]
  cases kind j with
  | error e => rfl
  | ok found =>
    have words : word found ≠ word k ↔ ¬ (found.bits : Int) = k.bits := by
      rw [ne_eq, word_inj, Kind.bits_inj]
    by_cases same : (found.bits : Int) = k.bits
    · exact (if_neg fun differ => words.mp differ same).trans (if_pos same).symm
    · have cause : Error.otherBits (word k).toInt (word found).toInt =
          .otherBits k.bits found.bits := by
        rw [toInt_word, toInt_word]
      exact (if_pos (words.mpr same)).trans ((congrArg _ cause).trans (if_neg same).symm)

end Record

theorem Uuid.ofJsonWithBits_eq_ofJson (k : Kind) (j : Json) : ofJsonWithBits k j = ofJson k j := by
  rw [ofJsonWithBits, ofJson, Record.expectBits_eq_requireBits]

/-- The choice comes out as the kind that the record tells, also where nothing is compared any more. -/
theorem SomeUuid.ofJsonByBits_eq_ofJson (j : Json) : ofJsonByBits j = ofJson j := by
  rw [ofJsonByBits, ofJson, Record.bits_eq_map_kind]
  simp only [Uuid.ofJsonWithBits_eq_ofJson]
  cases Record.kind j with
  | error e => rfl
  | ok k => cases k <;> rfl

end BluetoothUuid
