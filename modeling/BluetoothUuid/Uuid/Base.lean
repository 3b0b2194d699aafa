import BluetoothUuid.Uuid

/-! Widening. A shortened UUID stands for the full one that is its number, moved up by 12 bytes,
plus the Base UUID. In bytes that is its number in four bytes, followed by the tail of the base. -/
namespace BluetoothUuid

namespace Uuid
variable {k : Kind}

/-- 00000000-0000-1000-8000-00805F9B34FB. -/
def base : Uuid .bits128 := ⟨0x00000000_0000_1000_8000_00805F9B34FB⟩

def widen32 (u : Uuid .bits16) : Uuid .bits32 := ⟨BitVec.ofNat _ u.value.toNat⟩

/-- The full UUID that a UUID stands for. -/
def toFull (u : Uuid k) : Uuid .bits128 :=
  match k with
  | .bits128 => u
  | _ => ⟨BitVec.ofNat _ (u.value.toNat * BigEndian.capacity 12 + base.value.toNat)⟩

@[simp] theorem toNat_value_widen32 (u : Uuid .bits16) :
    u.widen32.value.toNat = u.value.toNat := by
  have fits : u.value.toNat < BigEndian.capacity 4 := Nat.lt_trans u.toNat_value_lt (by decide)
  exact @BigEndian.toNat_ofNat_of_lt 4 _ fits

@[simp] theorem toFull_full (u : Uuid .bits128) : u.toFull = u := rfl

theorem toNat_value_toFull (u : Uuid k) (shortened : k ≠ .bits128) :
    u.toFull.value.toNat = u.value.toNat * BigEndian.capacity 12 + base.value.toNat := by
  have small := u.toNat_value_lt
  have tail : base.value.toNat < BigEndian.capacity 12 := by decide
  have fits : u.value.toNat * BigEndian.capacity 12 + base.value.toNat < BigEndian.capacity 16 := by
    have high : BigEndian.capacity 4 * BigEndian.capacity 12 = BigEndian.capacity 16 := rfl
    have low : u.value.toNat + 1 ≤ BigEndian.capacity 4 := by
      cases k with
      | bits16 => exact Nat.le_trans small (by decide)
      | bits32 => exact small
      | bits128 => exact absurd rfl shortened
    have top := Nat.mul_le_mul_right (BigEndian.capacity 12) low
    rw [Nat.add_mul] at top
    omega
  cases k with
  | bits16 | bits32 => exact @BigEndian.toNat_ofNat_of_lt 16 _ fits
  | bits128 => exact absurd rfl shortened

theorem bytes_toFull (u : Uuid k) (shortened : k ≠ .bits128) :
    u.toFull.bytes = BigEndian.bytes 4 u.value.toNat ++ base.bytes.drop 4 := by
  have tail : base.bytes.drop 4 = BigEndian.bytes 12 base.value.toNat := by decide
  rw [bytes, toNat_value_toFull u shortened, tail]
  exact BigEndian.bytes_append 4 12 _ _ (by decide)

/-- Widening in two steps comes to the same. -/
theorem toFull_widen32 (u : Uuid .bits16) : u.widen32.toFull = u.toFull := by
  rw [← bytes_inj, bytes_toFull u.widen32 nofun, bytes_toFull u nofun, toNat_value_widen32]

end Uuid

namespace SomeUuid

def toFull (u : SomeUuid) : Uuid .bits128 := u.uuid.toFull

/-- Two UUIDs are equivalent if they stand for the same full UUID, whatever their kinds. -/
def Equivalent (a b : SomeUuid) : Prop := a.toFull = b.toFull

instance (a b : SomeUuid) : Decidable (a.Equivalent b) :=
  inferInstanceAs (Decidable (a.toFull = b.toFull))

/-- Only a UUID of 16 bits has a form of 32 bits. -/
def widen32 : SomeUuid → Except Error SomeUuid
  | ⟨.bits16, u⟩ => .ok ⟨.bits32, u.widen32⟩
  | _ => .error .otherKind

/-- Only a shortened UUID is widened to 128 bits. -/
def widen128 : SomeUuid → Except Error SomeUuid
  | ⟨.bits128, _⟩ => .error .otherKind
  | ⟨_, u⟩ => .ok ⟨.bits128, u.toFull⟩

end SomeUuid
end BluetoothUuid
