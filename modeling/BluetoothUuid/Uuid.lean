import BluetoothUuid.BigEndian
import BluetoothUuid.Kind

/-! A UUID of each kind is a number of as many bits, and on the wire the bytes of that number,
most significant first. -/
namespace BluetoothUuid

structure Uuid (k : Kind) where
  value : BitVec k.bits
  deriving DecidableEq, Repr

/-- A UUID whose kind is known only when it is looked at. -/
structure SomeUuid where
  kind : Kind
  uuid : Uuid kind
  deriving DecidableEq, Repr

namespace Uuid
variable {k : Kind}

def zero (k : Kind) : Uuid k := ⟨0⟩

def isZero (u : Uuid k) : Bool := u.value == 0

/-- The wire form. -/
def bytes (u : Uuid k) : Bytes := BigEndian.bytes k.size u.value.toNat

/-- The UUID whose wire form is given, which must be as long as the kind asks. -/
def ofBytes (k : Kind) (bs : Bytes) : Uuid k := ⟨BitVec.ofNat k.bits (BigEndian.value bs)⟩

/-- The UUID at the front of a byte string. -/
def front (k : Kind) (bs : Bytes) : Except Error (Uuid k) :=
  if k.size ≤ bs.length then .ok (ofBytes k (bs.take k.size))
  else .error (.endOfInput k.size bs.length)

/-- The number of bytes that it takes to write the UUID. -/
def spaceNeeded (_ : Uuid k) : Nat := k.size

@[simp] theorem length_bytes (u : Uuid k) : u.bytes.length = k.size := BigEndian.length_bytes ..

theorem length_bytes_lt (u : Uuid k) : u.bytes.length < UInt64.size := by
  rw [length_bytes]
  exact k.size_lt

theorem isZero_iff {u : Uuid k} : u.isZero = true ↔ u = zero k := by
  rw [isZero, beq_iff_eq]
  constructor
  · intro nothing
    exact congrArg Uuid.mk nothing
  · rintro rfl
    rfl

theorem toNat_value_lt (u : Uuid k) : u.value.toNat < BigEndian.capacity k.size :=
  @BigEndian.toNat_lt_capacity k.size u.value

@[simp] theorem value_bytes (u : Uuid k) : BigEndian.value u.bytes = u.value.toNat :=
  BigEndian.value_bytes_of_lt u.toNat_value_lt

@[simp] theorem ofBytes_bytes (u : Uuid k) : ofBytes k u.bytes = u := by
  rw [ofBytes, value_bytes, BitVec.ofNat_toNat, BitVec.setWidth_eq]

@[simp] theorem bytes_inj {u v : Uuid k} : u.bytes = v.bytes ↔ u = v := by
  constructor
  · intro same
    rw [← ofBytes_bytes u, same, ofBytes_bytes]
  · exact congrArg bytes

theorem bytes_ofBytes {bs : Bytes} (h : bs.length = k.size) : (ofBytes k bs).bytes = bs := by
  have small := BigEndian.value_lt bs
  rw [h] at small
  have number : (BitVec.ofNat k.bits (BigEndian.value bs)).toNat = BigEndian.value bs :=
    BigEndian.toNat_ofNat_of_lt small
  rw [bytes, ofBytes, number, ← h, BigEndian.bytes_value]

/-- A wire form holds no more and no less than its UUID. -/
theorem front_bytes (u : Uuid k) : front k u.bytes = .ok u := by
  have length : u.bytes.length = k.size := u.length_bytes
  rw [front, if_pos (Nat.le_of_eq length.symm), List.take_of_length_le (Nat.le_of_eq length),
    ofBytes_bytes]

end Uuid

namespace SomeUuid

/-- A slot that nothing was put into holds this. -/
instance : Inhabited SomeUuid := ⟨⟨.bits16, Uuid.zero _⟩⟩

def bytes (u : SomeUuid) : Bytes := u.uuid.bytes

def spaceNeeded (u : SomeUuid) : Nat := u.uuid.spaceNeeded

/-- The UUID as one of a kind, if it is of that kind. -/
def as? (k : Kind) (u : SomeUuid) : Option (Uuid k) :=
  if h : u.kind = k then some (h ▸ u.uuid) else none

@[simp] theorem as?_mk (k : Kind) (u : Uuid k) : as? k ⟨k, u⟩ = some u := by simp [as?]

end SomeUuid
end BluetoothUuid
