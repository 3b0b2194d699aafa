import BluetoothUuid.Proofs.Cursor.Runs

/-! A block as a log of what was written to it. At its start stand the wire forms of the successful
writes, back to back, and behind the position it is as it was. -/
namespace BluetoothUuid.Cursor
open BluetoothUuid.Action (attempts succeeded)

/-- What a run of writes has made of a block, where these items are the ones that were written. -/
structure Log (block : Bytes) (written : List Item) (c : Cursor) : Prop where
  length_bytes : c.bytes.length = block.length
  position_add_left : c.position.toNat + c.left.toNat = block.length
  position : c.position.toNat = Item.totalSize written
  start_bytes : c.bytes.take c.position.toNat = written.flatMap Item.bytes
  untouched : ∀ i, c.position.toNat ≤ i → c.bytes[i]? = block[i]?

variable {block : Bytes} {fits : block.length < UInt64.size} {written : List Item} {item : Item}
  {c d : Cursor} {e : Error}

namespace Log

theorem of_writes (moved : Writes (start block fits) (written.flatMap Item.bytes) c) :
    Log block written c := by
  have passed : c.passed = written.flatMap Item.bytes := moved.passed
  have ahead : c.ahead = block.drop c.position.toNat := by
    rw [moved.ahead, ← passed, length_passed, ahead_start]
  have position : c.position.toNat = Item.totalSize written := by
    rw [← length_passed, passed, Item.length_flatMap_bytes]
  have whole : c.position.toNat + c.left.toNat = block.length := by
    have left := moved.toNat_left
    rw [← length_ahead, ahead_start, ← passed, length_passed] at left
    exact left.symm
  refine ⟨?_, whole, position, passed, ?_⟩
  · rw [← passed_append_ahead, List.length_append, length_passed, length_ahead, whole]
  · intro i behind
    rw [← passed_append_ahead c, List.getElem?_append_right (by rwa [length_passed]), length_passed,
      ahead, List.getElem?_drop, Nat.add_sub_cancel' behind]

end Log

/-- Every run of writes leaves a log of those that succeeded, and so does every step of a run, since
the steps up to it are a run. -/
theorem log_attempts_write (block : Bytes) (fits : block.length < UInt64.size) (items : List Item) :
    let ran := attempts write items (start block fits)
    Log block (succeeded ran.1) ran.2 := .of_writes (writes_attempts items (start block fits))

theorem log_attempts_write_with_failures :
    attempts write [.u16 0x1234, .u32 7, .u8 0xAB, .uuids .bits16 [⟨1⟩, ⟨2⟩]]
        (start [0xF0, 0xF1, 0xF2, 0xF3, 0xF4] (by decide)) =
      ([(.u16 0x1234, .ok ()), (.u32 7, .error (.bufferTooSmall 4 3)), (.u8 0xAB, .ok ()),
        (.uuids .bits16 [⟨1⟩, ⟨2⟩], .error (.bufferTooSmall 4 2))],
        ⟨[0x12, 0x34, 0xAB, 0xF3, 0xF4], 3, by decide, by decide⟩) ∧
    Log [0xF0, 0xF1, 0xF2, 0xF3, 0xF4] [.u16 0x1234, .u8 0xAB]
      ⟨[0x12, 0x34, 0xAB, 0xF3, 0xF4], 3, by decide, by decide⟩ := by
  have ran : attempts write [.u16 0x1234, .u32 7, .u8 0xAB, .uuids .bits16 [⟨1⟩, ⟨2⟩]]
      (start [0xF0, 0xF1, 0xF2, 0xF3, 0xF4] (by decide)) =
      ([(.u16 0x1234, .ok ()), (.u32 7, .error (.bufferTooSmall 4 3)), (.u8 0xAB, .ok ()),
        (.uuids .bits16 [⟨1⟩, ⟨2⟩], .error (.bufferTooSmall 4 2))],
        ⟨[0x12, 0x34, 0xAB, 0xF3, 0xF4], 3, by decide, by decide⟩) := by rfl
  have log := log_attempts_write [0xF0, 0xF1, 0xF2, 0xF3, 0xF4] (by decide)
    [.u16 0x1234, .u32 7, .u8 0xAB, .uuids .bits16 [⟨1⟩, ⟨2⟩]]
  simp only [ran] at log
  exact ⟨ran, log⟩

end BluetoothUuid.Cursor
