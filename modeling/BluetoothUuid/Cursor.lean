import BluetoothUuid.Error

/-! A cursor over a block of bytes. What lies before its position has been passed, the rest is
ahead, and the two together are the block. Positions are 64-bit words: the bound on the length of
the block keeps their arithmetic from wrapping. -/
namespace BluetoothUuid

structure Cursor where
  bytes : Bytes
  position : UInt64
  length_lt : bytes.length < UInt64.size
  position_le : position.toNat ≤ bytes.length

/-- What a cursor is opened over: a block of bytes, or none and the length claimed for it. -/
inductive Block where
  | null (claimed : Nat)
  | of (bytes : Bytes) (length_lt : bytes.length < UInt64.size)

namespace Cursor

/-- The cursor before the first byte of a block. -/
def start (bytes : Bytes) (length_lt : bytes.length < UInt64.size) : Cursor where
  bytes
  position := 0
  length_lt
  position_le := Nat.zero_le _

/-- Opens a block. No block is as good as an empty one, if no length is claimed for it. -/
def open? (block : Block) : Option Cursor :=
  match block with
  | .null 0 => some (start [] (by decide))
  | .null (_ + 1) => none
  | .of bytes length_lt => some (start bytes length_lt)

variable (c : Cursor)

/-- The number of bytes from the position to the end of the block. -/
def left : UInt64 := UInt64.ofNat c.bytes.length - c.position

def atEnd : Bool := c.position == UInt64.ofNat c.bytes.length

/-- The bytes before the position. -/
def passed : Bytes := c.bytes.take c.position.toNat

/-- The bytes from the position on. -/
def ahead : Bytes := c.bytes.drop c.position.toNat

theorem toNat_left : c.left.toNat = c.bytes.length - c.position.toNat := by
  have fits := c.length_lt
  have inside := c.position_le
  rw [left, UInt64.toNat_sub_of_le, UInt64.toNat_ofNat_of_lt' fits]
  rwa [UInt64.le_iff_toNat_le, UInt64.toNat_ofNat_of_lt' fits]

theorem length_ahead : c.ahead.length = c.left.toNat := by
  rw [ahead, List.length_drop, toNat_left]

theorem length_passed : c.passed.length = c.position.toNat := by
  rw [passed, List.length_take, Nat.min_eq_left c.position_le]

theorem passed_append_ahead : c.passed ++ c.ahead = c.bytes := List.take_append_drop ..

theorem atEnd_iff : c.atEnd = true ↔ c.left.toNat = 0 := by
  have inside := c.position_le
  rw [atEnd, beq_iff_eq, ← UInt64.toNat_inj, UInt64.toNat_ofNat_of_lt' c.length_lt, toNat_left]
  omega

/-- A cursor is known by what it has passed and what is ahead of it. -/
theorem ext_views {c d : Cursor} (passed : c.passed = d.passed) (ahead : c.ahead = d.ahead) :
    c = d := by
  have bytes : c.bytes = d.bytes := by
    rw [← passed_append_ahead c, ← passed_append_ahead d, passed, ahead]
  have position : c.position = d.position := by
    rw [← UInt64.toNat_inj, ← length_passed, ← length_passed, passed]
  cases c
  cases d
  cases bytes
  cases position
  rfl

private theorem toNat_moved {count : Nat} (room : count ≤ c.left.toNat) :
    (c.position + UInt64.ofNat count).toNat = c.position.toNat + count := by
  have fits := c.length_lt
  have inside := c.position_le
  rw [toNat_left] at room
  have small : count < UInt64.size := by omega
  have whole : c.position.toNat + count < UInt64.size := by omega
  rw [UInt64.toNat_add, UInt64.toNat_ofNat_of_lt' small, Nat.mod_eq_of_lt whole]

/-- Moves over bytes that are left. -/
def advance (count : Nat) (room : count ≤ c.left.toNat) : Cursor where
  bytes := c.bytes
  position := c.position + UInt64.ofNat count
  length_lt := c.length_lt
  position_le := by
    have inside := c.position_le
    rw [toNat_moved c room]
    rw [toNat_left] at room
    omega

/-- Puts bytes in the place of those at the position, without moving. -/
def overwrite (bs : Bytes) (room : bs.length ≤ c.left.toNat) : Cursor where
  bytes := c.passed ++ bs ++ c.ahead.drop bs.length
  position := c.position
  length_lt := by
    have fits := c.length_lt
    have inside := c.position_le
    rw [toNat_left] at room
    simp only [List.length_append, length_passed, List.length_drop, length_ahead, toNat_left]
    omega
  position_le := by
    simp only [List.length_append, length_passed]
    omega

/-- A cursor over a copy of what has been passed, back at its start. -/
def reread : Cursor :=
  start c.passed (by
    have fits := c.length_lt
    have inside := c.position_le
    rw [length_passed]
    omega)

variable {c}

theorem toNat_position_advance {count : Nat} (room : count ≤ c.left.toNat) :
    (c.advance count room).position.toNat = c.position.toNat + count := toNat_moved c room

theorem passed_advance {count : Nat} (room : count ≤ c.left.toNat) :
    (c.advance count room).passed = c.passed ++ c.ahead.take count := by
  rw [passed, toNat_position_advance, advance, List.take_add, passed, ahead]

theorem ahead_advance {count : Nat} (room : count ≤ c.left.toNat) :
    (c.advance count room).ahead = c.ahead.drop count := by
  rw [ahead, toNat_position_advance, advance, ahead, List.drop_drop]

theorem passed_overwrite {bs : Bytes} (room : bs.length ≤ c.left.toNat) :
    (c.overwrite bs room).passed = c.passed := by
  rw [passed]
  simp only [overwrite, List.append_assoc]
  rw [← length_passed, List.take_left]

theorem ahead_overwrite {bs : Bytes} (room : bs.length ≤ c.left.toNat) :
    (c.overwrite bs room).ahead = bs ++ c.ahead.drop bs.length := by
  rw [ahead]
  simp only [overwrite, List.append_assoc]
  rw [← length_passed, List.drop_left]

theorem toNat_left_overwrite {bs : Bytes} (room : bs.length ≤ c.left.toNat) :
    (c.overwrite bs room).left.toNat = c.left.toNat := by
  rw [← length_ahead, ahead_overwrite, List.length_append, List.length_drop, length_ahead]
  omega

@[simp] theorem passed_start (bytes : Bytes) (length_lt : bytes.length < UInt64.size) :
    (start bytes length_lt).passed = [] := rfl

@[simp] theorem ahead_start (bytes : Bytes) (length_lt : bytes.length < UInt64.size) :
    (start bytes length_lt).ahead = bytes := rfl

end Cursor
end BluetoothUuid
