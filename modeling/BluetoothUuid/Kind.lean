import BluetoothUuid.Error

/-! The three sizes of a Bluetooth UUID: two shortened forms and the full one. -/
namespace BluetoothUuid

inductive Kind where
  | bits16
  | bits32
  | bits128
  deriving DecidableEq, Repr

namespace Kind

/-- The number of bytes of the kind. -/
def size : Kind → Nat
  | bits16 => 2
  | bits32 => 4
  | bits128 => 16

def bits (k : Kind) : Nat := 8 * k.size

theorem size_pos (k : Kind) : 0 < k.size := by cases k <;> decide

theorem size_lt (k : Kind) : k.size < UInt64.size := by cases k <;> decide

/-- The kind whose UUIDs have that many bytes. -/
def ofLength : Nat → Except Error Kind
  | 2 => .ok bits16
  | 4 => .ok bits32
  | 16 => .ok bits128
  | length => .error (.noKindOfLength length)

/-- The kinds are tagged 0, 1 and 2, from the shortest on. -/
def tag : Kind → Int
  | bits16 => 0
  | bits32 => 1
  | bits128 => 2

def ofTag : Int → Except Error Kind
  | 0 => .ok bits16
  | 1 => .ok bits32
  | 2 => .ok bits128
  | _ => .error .noKindOfTag

/-- The number of bytes of the kind that has the tag. -/
def lengthOfTag : Int → Except Error Nat
  | 0 => .ok bits16.size
  | 1 => .ok bits32.size
  | 2 => .ok bits128.size
  | _ => .error .noKindOfTag

/-- The kind whose UUIDs have that many bits. -/
def ofBits? : Int → Option Kind
  | 16 => some bits16
  | 32 => some bits32
  | 128 => some bits128
  | _ => none

def label : Kind → Text
  | bits16 => Text.ofString "uuid16"
  | bits32 => Text.ofString "uuid32"
  | bits128 => Text.ofString "uuid128"

theorem size_inj {j k : Kind} : j.size = k.size ↔ j = k := by
  cases j <;> cases k <;> simp [size]

theorem exists_size_iff {n : Nat} : (∃ k : Kind, k.size = n) ↔ n = 2 ∨ n = 4 ∨ n = 16 := by
  constructor
  · rintro ⟨k, rfl⟩
    cases k <;> decide
  · rintro (rfl | rfl | rfl)
    · exact ⟨.bits16, rfl⟩
    · exact ⟨.bits32, rfl⟩
    · exact ⟨.bits128, rfl⟩

theorem bits_inj {j k : Kind} : (j.bits : Int) = k.bits ↔ j = k := by
  cases j <;> cases k <;> simp [bits, size]

theorem bits_div_four (k : Kind) : k.bits / 4 = 2 * k.size := by cases k <;> rfl

theorem ofLength_eq_ok_iff {n : Nat} {k : Kind} : ofLength n = .ok k ↔ n = k.size := by
  constructor
  · intro given
    unfold ofLength at given
    split at given <;> cases given <;> rfl
  · rintro rfl
    cases k <;> rfl

theorem ofLength_eq_error_iff {n : Nat} {e : Error} :
    ofLength n = .error e ↔ (n ≠ 2 ∧ n ≠ 4 ∧ n ≠ 16) ∧ e = .noKindOfLength n := by
  unfold ofLength
  constructor
  · intro failed
    split at failed <;> cases failed
    next not2 not4 not16 => exact ⟨⟨not2, not4, not16⟩, rfl⟩
  · rintro ⟨⟨not2, not4, not16⟩, rfl⟩
    split
    · exact absurd rfl not2
    · exact absurd rfl not4
    · exact absurd rfl not16
    · rfl

theorem ofTag_eq_ok_iff {n : Int} {k : Kind} :
    ofTag n = .ok k ↔ n = 0 ∧ k = bits16 ∨ n = 1 ∧ k = bits32 ∨ n = 2 ∧ k = bits128 := by
  constructor
  · intro given
    unfold ofTag at given
    split at given <;> cases given <;> simp
  · rintro (⟨rfl, rfl⟩ | ⟨rfl, rfl⟩ | ⟨rfl, rfl⟩) <;> rfl

theorem ofTag_eq_error_iff {n : Int} {e : Error} :
    ofTag n = .error e ↔ (n ≠ 0 ∧ n ≠ 1 ∧ n ≠ 2) ∧ e = .noKindOfTag := by
  unfold ofTag
  constructor
  · intro failed
    split at failed <;> cases failed
    next not0 not1 not2 => exact ⟨⟨not0, not1, not2⟩, rfl⟩
  · rintro ⟨⟨not0, not1, not2⟩, rfl⟩
    split
    · exact absurd rfl not0
    · exact absurd rfl not1
    · exact absurd rfl not2
    · rfl

/-- A kind is found by its tag, and so is its length. -/
theorem ofTag_tag (k : Kind) : ofTag k.tag = .ok k := by cases k <;> rfl

theorem lengthOfTag_tag (k : Kind) : lengthOfTag k.tag = .ok k.size := by cases k <;> rfl

theorem ofBits?_eq_some_iff {n : Int} {k : Kind} : ofBits? n = some k ↔ n = k.bits := by
  constructor
  · intro given
    unfold ofBits? at given
    split at given <;> cases given <;> rfl
  · rintro rfl
    cases k <;> rfl

theorem ofBits?_eq_none_iff {n : Int} : ofBits? n = none ↔ n ≠ 16 ∧ n ≠ 32 ∧ n ≠ 128 := by
  constructor
  · intro none
    refine ⟨?_, ?_, ?_⟩ <;> rintro rfl <;> contradiction
  · rintro ⟨not16, not32, not128⟩
    cases given : ofBits? n with
    | none => rfl
    | some k =>
      have bits := ofBits?_eq_some_iff.mp given
      cases k with
      | bits16 => exact absurd bits not16
      | bits32 => exact absurd bits not32
      | bits128 => exact absurd bits not128

end Kind
end BluetoothUuid
