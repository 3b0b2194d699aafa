import BluetoothUuid.Cursor.Words
import BluetoothUuid.Uuid.Wire

/-! What is written and read at a cursor as one: words, slices, UUIDs and lists of UUIDs. A shape
tells what to read, and an item is what was read or is to be written. -/
namespace BluetoothUuid

inductive Shape where
  | u8
  | u16
  | u32
  | slice (count : Nat)
  | uuid (k : Kind)
  | uuids (k : Kind)
  deriving DecidableEq, Repr

inductive Item where
  | u8 (word : UInt8)
  | u16 (word : UInt16)
  | u32 (word : UInt32)
  | slice (bs : Bytes)
  | uuid (u : SomeUuid)
  | uuids (k : Kind) (us : List (Uuid k))
  deriving DecidableEq, Repr

/-- The fewest bytes that an item of the shape takes. Only a list may take more. -/
def Shape.least : Shape → Nat
  | u8 => 1
  | u16 => 2
  | u32 => 4
  | slice count => count
  | uuid k => k.size
  | uuids _ => 0

namespace Item

def shape : Item → Shape
  | u8 _ => .u8
  | u16 _ => .u16
  | u32 _ => .u32
  | slice bs => .slice bs.length
  | uuid u => .uuid u.kind
  | uuids k _ => .uuids k

/-- The number of bytes that the item takes. -/
def size : Item → Nat
  | u8 _ => 1
  | u16 _ => 2
  | u32 _ => 4
  | slice bs => bs.length
  | uuid u => u.kind.size
  | uuids _ us => Cursor.totalSize us

/-- The wire form. -/
def bytes : Item → Bytes
  | u8 word => BigEndian.bytes 1 word.toNat
  | u16 word => BigEndian.bytes 2 word.toNat
  | u32 word => BigEndian.bytes 4 word.toNat
  | slice bs => bs
  | uuid u => u.bytes
  | uuids _ us => us.flatMap Uuid.bytes

/-- The number of bytes that a list of items takes. -/
def totalSize : List Item → Nat
  | [] => 0
  | item :: rest => item.size + totalSize rest

/-- The items that a reader takes it for who knows a list only by its elements. -/
def parts : Item → List Item
  | uuids k us => us.map fun u => uuid ⟨k, u⟩
  | item => [item]

theorem size_eq_least {item : Item} (single : ∀ k, item.shape ≠ .uuids k) :
    item.size = item.shape.least := by
  cases item with
  | uuids k us => exact absurd rfl (single k)
  | _ => rfl

/-- The parts of a list are no lists. -/
theorem single_of_mem_parts {item part : Item} (member : part ∈ item.parts) :
    ∀ k, part.shape ≠ .uuids k := by
  cases item with
  | uuids k us =>
    obtain ⟨u, _, rfl⟩ := List.mem_map.mp member
    exact nofun
  | _ =>
    obtain rfl := List.mem_singleton.mp member
    exact nofun

theorem length_bytes (item : Item) : item.bytes.length = item.size := by
  cases item with
  | u8 | u16 | u32 => exact BigEndian.length_bytes ..
  | slice => rfl
  | uuid u => exact u.uuid.length_bytes
  | uuids k us => exact Cursor.length_flatMap_bytes us

theorem length_flatMap_bytes (items : List Item) :
    (items.flatMap bytes).length = totalSize items := by
  induction items with
  | nil => rfl
  | cons item rest ih => rw [List.flatMap_cons, List.length_append, length_bytes, ih, totalSize]

theorem flatMap_bytes_parts (item : Item) : item.parts.flatMap bytes = item.bytes := by
  cases item with
  | uuids k us => exact List.flatMap_map ..
  | _ => exact List.flatMap_singleton ..

end Item

namespace Cursor

def write : Item → Action Cursor Unit
  | .u8 word => writeUInt8 word
  | .u16 word => writeUInt16 word
  | .u32 word => writeUInt32 word
  | .slice bs => writeSlice bs
  | .uuid u => writeUuid u.uuid
  | .uuids _ us => writeUuids us

/-- Reads an item. A read that fails does not move, but for a list with a trailing part. -/
def read : Shape → Action Cursor Item
  | .u8 => .u8 <$> readUInt8
  | .u16 => .u16 <$> readUInt16
  | .u32 => .u32 <$> readUInt32
  | .slice count => .slice <$> readSlice count
  | .uuid k => (fun u => .uuid ⟨k, u⟩) <$> readUuid k
  | .uuids k => .uuids k <$> readUuids k

variable {c d : Cursor} {shape : Shape} {item : Item} {e : Error}

/-- Whatever is written, it is its wire form that is written, as a whole. -/
theorem write_eq_writeSlice (item : Item) : write item = writeSlice item.bytes := by
  cases item with
  | u8 | u16 | u32 => exact writeWord_eq_writeSlice ..
  | slice => rfl
  | uuid u => exact writeUuid_eq_writeSlice u.uuid
  | uuids k us => exact writeUuids_eq_writeSlice us

/-- An item is read only where its wire form lies ahead. -/
theorem reads_of_read (answered : (read shape).outcome c = (.ok item, d)) :
    item.shape = shape ∧ Reads c item.bytes d := by
  cases shape with
  | u8 =>
    obtain ⟨word, given, rfl⟩ := Action.outcome_map_eq_ok_iff.mp answered
    exact ⟨rfl, readUInt8_eq_ok_iff.mp given⟩
  | u16 =>
    obtain ⟨word, given, rfl⟩ := Action.outcome_map_eq_ok_iff.mp answered
    exact ⟨rfl, readUInt16_eq_ok_iff.mp given⟩
  | u32 =>
    obtain ⟨word, given, rfl⟩ := Action.outcome_map_eq_ok_iff.mp answered
    exact ⟨rfl, readUInt32_eq_ok_iff.mp given⟩
  | slice count =>
    obtain ⟨bs, given, rfl⟩ := Action.outcome_map_eq_ok_iff.mp answered
    obtain ⟨rfl, moved⟩ := readSlice_eq_ok_iff.mp given
    exact ⟨rfl, moved⟩
  | uuid k =>
    obtain ⟨u, given, rfl⟩ := Action.outcome_map_eq_ok_iff.mp answered
    exact ⟨rfl, readUuid_eq_ok_iff.mp given⟩
  | uuids k =>
    obtain ⟨us, given, rfl⟩ := Action.outcome_map_eq_ok_iff.mp answered
    exact ⟨rfl, (readUuids_eq_ok_iff.mp given).1⟩

/-- An item other than a list is read wherever its wire form lies ahead. -/
theorem read_of_reads (single : ∀ k, item.shape ≠ .uuids k) (moved : Reads c item.bytes d) :
    (read item.shape).outcome c = (.ok item, d) := by
  cases item with
  | u8 word => exact Action.outcome_map_eq_ok_iff.mpr ⟨word, readUInt8_eq_ok_iff.mpr moved, rfl⟩
  | u16 word => exact Action.outcome_map_eq_ok_iff.mpr ⟨word, readUInt16_eq_ok_iff.mpr moved, rfl⟩
  | u32 word => exact Action.outcome_map_eq_ok_iff.mpr ⟨word, readUInt32_eq_ok_iff.mpr moved, rfl⟩
  | slice bs =>
    exact Action.outcome_map_eq_ok_iff.mpr ⟨bs, readSlice_eq_ok_iff.mpr ⟨rfl, moved⟩, rfl⟩
  | uuid u =>
    exact Action.outcome_map_eq_ok_iff.mpr ⟨u.uuid, readUuid_eq_ok_iff.mpr moved, rfl⟩
  | uuids k us => exact absurd rfl (single k)

/-- A read of anything but a list fails exactly where there are too few bytes left for it, and does not
move then. -/
theorem read_eq_error_iff (single : ∀ k, shape ≠ .uuids k) :
    (read shape).outcome c = (.error e, d) ↔
      c.left.toNat < shape.least ∧ e = .endOfInput shape.least c.left.toNat ∧ d = c := by
  cases shape with
  | u8 | u16 | u32 =>
    simp only [read, readUInt8, readUInt16, readUInt32, Action.outcome_map_eq_error_iff]
    exact readWord_eq_error_iff
  | slice count =>
    rw [read, Action.outcome_map_eq_error_iff]
    exact readSlice_eq_error_iff
  | uuid k =>
    rw [read, Action.outcome_map_eq_error_iff]
    exact readUuid_eq_error_iff
  | uuids k => exact absurd rfl (single k)

theorem write_eq_error_iff :
    (write item).outcome c = (.error e, d) ↔
      c.left.toNat < item.size ∧ e = .bufferTooSmall item.size c.left.toNat ∧ d = c := by
  rw [write_eq_writeSlice, writeSlice_eq_error_iff, item.length_bytes]

/-- Where there are enough bytes left for an item other than a list, one is read, whatever they are. -/
theorem read_of_room (single : ∀ k, shape ≠ .uuids k) (room : shape.least ≤ c.left.toNat) :
    ∃ item d, (read shape).outcome c = (.ok item, d) ∧ item.shape = shape ∧ Reads c item.bytes d := by
  cases result : (read shape).outcome c with
  | mk answer d =>
    cases answer with
    | ok item => exact ⟨item, d, rfl, reads_of_read result⟩
    | error e => exact absurd room (Nat.not_le.mpr ((read_eq_error_iff single).mp result).1)

theorem write_of_room (room : item.size ≤ c.left.toNat) :
    ∃ d, (write item).outcome c = (.ok (), d) ∧ Writes c item.bytes d := by
  have fits : item.bytes.length ≤ c.left.toNat := by rwa [item.length_bytes]
  obtain ⟨d, done⟩ := writeSlice_of_room fits
  rw [write_eq_writeSlice]
  exact ⟨d, done, writeSlice_eq_ok_iff.mp done⟩

end Cursor
end BluetoothUuid
