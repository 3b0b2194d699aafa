import BluetoothUuid.Uuid.Wire.Length

/-! Reading a UUID whose kind is told by a length, against the length that it was given. The tables of
kinds, sizes, readers and writers agree: what is read is as long as was asked for, is what the reader of
that kind gives, and is written as it was read. Any other length is refused before a byte is looked at. -/
namespace BluetoothUuid.Cursor
open BluetoothUuid.Text (ofString decimal)

variable {k : Kind} {n : Nat} {c d : Cursor} {u : Uuid k}

/-- From `c` to `d` a UUID of that length was read. The length is the one that is told for its kind, and
the space that it needs. Written again, wherever there is room, it gives the bytes that it was read
from. -/
structure ReadsLength (n : Nat) (c : Cursor) (u : SomeUuid) (d : Cursor) : Prop where
  kind : u.kind.size = n
  size : (Item.uuid u).size = n
  tagged : Kind.ofTag u.kind.tag = .ok u.kind
  length : Kind.lengthOfTag u.kind.tag = .ok n
  space : u.spaceNeeded = n
  bytes : d.bytes = c.bytes
  position : d.position.toNat = c.position.toNat + n
  typed : ∀ k : Kind, k.size = n → ∃ v : Uuid k, (readUuid k).outcome c = (.ok v, d) ∧ u = ⟨k, v⟩
  rewritten : ∀ w : Cursor, n ≤ w.left.toNat →
    ∃ w', (writeUuid u.uuid).outcome w = (.ok (), w') ∧ Writes w (c.ahead.take n) w'

theorem readsLength_of_readUuid (read : (readUuid k).outcome c = (.ok u, d)) :
    ReadsLength k.size c ⟨k, u⟩ d := by
  have moved := readUuid_eq_ok_iff.mp read
  refine ⟨rfl, rfl, k.ofTag_tag, k.lengthOfTag_tag, rfl, moved.bytes, ?_, ?_, ?_⟩
  · rw [moved.toNat_position, u.length_bytes]
  · intro other same
    obtain rfl := Kind.size_inj.mp same
    exact ⟨u, read, rfl⟩
  · intro w room
    rw [take_ahead_of_readUuid read]
    exact writeUuid_of_room u room

theorem readUuidOfLength_of_short (short : c.left.toNat < k.size) :
    (readUuidOfLength k.size).outcome c = (.error (.endOfInput k.size c.left.toNat), c) := by
  rw [readUuidOfLength_size, Action.outcome_map_eq_error_iff]
  exact readUuid_eq_error_iff.mpr ⟨short, rfl, rfl⟩

theorem readUuidOfLength_of_room (room : k.size ≤ c.left.toNat) :
    ∃ u d, (readUuidOfLength k.size).outcome c = (.ok u, d) ∧ ReadsLength k.size c u d := by
  obtain ⟨u, d, read⟩ := readUuid_of_room room
  refine ⟨⟨k, u⟩, d, ?_, readsLength_of_readUuid read⟩
  rw [readUuidOfLength_size]
  exact Action.outcome_map_eq_ok_iff.mpr ⟨u, read, rfl⟩

/-- A length that no kind has is named and refused, whatever is left. One that a kind has and that is
left is consumed, and if it is not left, nothing is. A session that decodes by length does the same. -/
theorem readUuidOfLength_consumes_length_or_nothing (n : Nat) (c : Cursor) :
    (n ≠ 2 ∧ n ≠ 4 ∧ n ≠ 16 →
      (readUuidOfLength n).outcome c = (.error (.noKindOfLength n), c) ∧
      (Error.noKindOfLength n).message =
        ofString "no UUID is " ++ decimal n ++ ofString " bytes long") ∧
    (n = 2 ∨ n = 4 ∨ n = 16 → c.left.toNat < n →
      (readUuidOfLength n).outcome c = (.error (.endOfInput n c.left.toNat), c)) ∧
    (n = 2 ∨ n = 4 ∨ n = 16 → n ≤ c.left.toNat →
      ∃ u d, (readUuidOfLength n).outcome c = (.ok u, d) ∧ ReadsLength n c u d) ∧
    ∀ slot, Session.perform (.decode (.length n) slot) = do
      let u ← Session.reading (readUuidOfLength n)
      Session.store slot u
      return .uuid u := by
  refine ⟨?_, ?_, ?_, Session.perform_decode_length n⟩
  · intro other
    rw [readUuidOfLength_of_other other]
    exact ⟨rfl, Error.message_noKindOfLength n⟩
  · intro known short
    obtain ⟨k, rfl⟩ := Kind.exists_size_iff.mpr known
    exact readUuidOfLength_of_short short
  · intro known room
    obtain ⟨k, rfl⟩ := Kind.exists_size_iff.mpr known
    exact readUuidOfLength_of_room room

/-- The first of these lengths is two in a word of 32 bits. -/
theorem readUuidOfLength_consumes_length_or_nothing_of_three_bytes :
    let c := start [0x18, 0x0D, 0x2A] (by decide)
    (readUuidOfLength 4294967298).outcome c = (.error (.noKindOfLength 4294967298), c) ∧
    (readUuidOfLength 4).outcome c = (.error (.endOfInput 4 3), c) ∧
    ∃ d, (readUuidOfLength 2).outcome c = (.ok ⟨.bits16, ⟨0x180D⟩⟩, d) ∧
      ReadsLength 2 c ⟨.bits16, ⟨0x180D⟩⟩ d := by
  intro c
  have left : c.left.toNat = 3 := c.toNat_left
  obtain ⟨refused, _⟩ := readUuidOfLength_consumes_length_or_nothing 4294967298 c
  obtain ⟨_, short, _⟩ := readUuidOfLength_consumes_length_or_nothing 4 c
  obtain ⟨_, _, whole, _⟩ := readUuidOfLength_consumes_length_or_nothing 2 c
  rw [left] at short whole
  obtain ⟨u, d, read, took⟩ := whole (by decide) (by decide)
  obtain ⟨v, front, rfl⟩ := took.typed .bits16 rfl
  have bytes : v.bytes = (⟨0x180D⟩ : Uuid .bits16).bytes := (take_ahead_of_readUuid front).symm
  obtain rfl := Uuid.bytes_inj.mp bytes
  exact ⟨(refused (by decide)).1, short (by decide) (by decide), d, read, took⟩

end BluetoothUuid.Cursor
