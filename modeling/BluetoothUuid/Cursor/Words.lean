import BluetoothUuid.BigEndian
import BluetoothUuid.Cursor.Slice

/-! Reading and writing words of 8, 16 and 32 bits at a cursor, most significant byte first. The
bytes are shifted together and apart, and make up the number that the word is. -/
namespace BluetoothUuid.Cursor

def readWord (width : Nat) : Action Cursor (BitVec (8 * width)) :=
  BigEndian.join (8 * width) <$> readSlice width

def writeWord (width : Nat) (word : BitVec (8 * width)) : Action Cursor Unit :=
  writeSlice (BigEndian.split width word)

def readUInt8 : Action Cursor UInt8 := UInt8.ofBitVec <$> readWord 1

def readUInt16 : Action Cursor UInt16 := UInt16.ofBitVec <$> readWord 2

def readUInt32 : Action Cursor UInt32 := UInt32.ofBitVec <$> readWord 4

def writeUInt8 (word : UInt8) : Action Cursor Unit := writeWord 1 word.toBitVec

def writeUInt16 (word : UInt16) : Action Cursor Unit := writeWord 2 word.toBitVec

def writeUInt32 (word : UInt32) : Action Cursor Unit := writeWord 4 word.toBitVec

variable {c d : Cursor} {width : Nat} {e : Error}

theorem readWord_eq_ok_iff {word : BitVec (8 * width)} :
    (readWord width).outcome c = (.ok word, d) ↔
      Reads c (BigEndian.bytes width word.toNat) d := by
  rw [readWord, Action.outcome_map_eq_ok_iff, ← BigEndian.split_eq_bytes]
  constructor
  · rintro ⟨bs, read, rfl⟩
    obtain ⟨length, moved⟩ := readSlice_eq_ok_iff.mp read
    rwa [BigEndian.split_join length]
  · intro moved
    exact ⟨_, readSlice_eq_ok_iff.mpr ⟨BigEndian.length_split .., moved⟩, BigEndian.join_split word⟩

theorem readWord_eq_error_iff :
    (readWord width).outcome c = (.error e, d) ↔
      c.left.toNat < width ∧ e = .endOfInput width c.left.toNat ∧ d = c := by
  rw [readWord, Action.outcome_map_eq_error_iff, readSlice_eq_error_iff]

theorem writeWord_eq_writeSlice (word : BitVec (8 * width)) :
    writeWord width word = writeSlice (BigEndian.bytes width word.toNat) := by
  rw [writeWord, BigEndian.split_eq_bytes]

/-- Words under another name are read like the words that they are. -/
private theorem map_readWord_eq_ok_iff {α : Type} {wrap : BitVec (8 * width) → α}
    {unwrap : α → BitVec (8 * width)} (unwrap_wrap : ∀ word, unwrap (wrap word) = word)
    (wrap_unwrap : ∀ a, wrap (unwrap a) = a) {a : α} :
    (wrap <$> readWord width).outcome c = (.ok a, d) ↔
      Reads c (BigEndian.bytes width (unwrap a).toNat) d := by
  rw [Action.outcome_map_eq_ok_iff]
  constructor
  · rintro ⟨word, read, rfl⟩
    rw [unwrap_wrap]
    exact readWord_eq_ok_iff.mp read
  · intro moved
    exact ⟨unwrap a, readWord_eq_ok_iff.mpr moved, wrap_unwrap a⟩

theorem readUInt8_eq_ok_iff {word : UInt8} :
    readUInt8.outcome c = (.ok word, d) ↔ Reads c (BigEndian.bytes 1 word.toNat) d :=
  map_readWord_eq_ok_iff (fun _ => rfl) (fun _ => rfl)

theorem readUInt16_eq_ok_iff {word : UInt16} :
    readUInt16.outcome c = (.ok word, d) ↔ Reads c (BigEndian.bytes 2 word.toNat) d :=
  map_readWord_eq_ok_iff (fun _ => rfl) (fun _ => rfl)

theorem readUInt32_eq_ok_iff {word : UInt32} :
    readUInt32.outcome c = (.ok word, d) ↔ Reads c (BigEndian.bytes 4 word.toNat) d :=
  map_readWord_eq_ok_iff (fun _ => rfl) (fun _ => rfl)

end BluetoothUuid.Cursor
