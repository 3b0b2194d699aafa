import BluetoothUuid.Proofs.Cursor.Runs

/-! Words at a cursor, against their halves and their bytes. Where a word fits, to read or write it at once
comes to the same as to read or write its parts in order, and its number is made up of theirs by
position. Where it does not fit, nothing is done, while the parts would go on as far as they fit. -/
namespace BluetoothUuid.Cursor
open BluetoothUuid.Action (attempts)

/-- From `c` to `d` the items are read one after the other, each with success. -/
def ReadsEach (items : List Item) (c d : Cursor) : Prop :=
  attempts read (items.map Item.shape) c = (items.map fun item => (item.shape, .ok item), d)

/-- From `c` to `d` the items are written one after the other, each with success. -/
def WritesEach (items : List Item) (c d : Cursor) : Prop :=
  attempts write items c = (items.map fun item => (item, .ok ()), d)

/-- The whole fails at `c` and changes nothing, while the part, if it fits, is done. -/
structure FailsWhole (whole part : Item) (c : Cursor) : Prop where
  read_fails : (read whole.shape).outcome c = (.error (.endOfInput whole.size c.left.toNat), c)
  write_fails : (write whole).outcome c = (.error (.bufferTooSmall whole.size c.left.toNat), c)
  part_read : part.size ≤ c.left.toNat →
    ∃ item d, (read part.shape).outcome c = (.ok item, d) ∧ d ≠ c
  part_written : part.size ≤ c.left.toNat → ∃ d, (write part).outcome c = (.ok (), d) ∧ d ≠ c

variable {c d : Cursor} {item whole part : Item} {items : List Item}

/-- Where the wire form of an item lies ahead, whatever has it, part by part, is read. -/
theorem readsEach_of_reads (moved : Reads c item.bytes d)
    (single : ∀ part ∈ items, ∀ k, part.shape ≠ .uuids k)
    (same : items.flatMap Item.bytes = item.bytes) : ReadsEach items c d :=
  attempts_read_of_reads single (same ▸ moved)

/-- What has the wire form of an item, part by part, is written like it. -/
theorem writesEach_of_writes (written : Writes c item.bytes d)
    (same : items.flatMap Item.bytes = item.bytes) : WritesEach items c d := by
  rw [← same] at written
  obtain ⟨last, done, other⟩ := attempts_write_of_room written.room
  rw [written.unique other]
  exact done

/-- A cursor that has moved is another one. -/
theorem ne_of_moved {n : Nat} (moved : d.position.toNat = c.position.toNat + n) (positive : 0 < n) :
    d ≠ c := by
  rintro rfl
  omega

theorem failsWhole_of_short (single : ∀ k, whole.shape ≠ .uuids k)
    (short : c.left.toNat < whole.size) (first : ∀ k, part.shape ≠ .uuids k)
    (positive : 0 < part.size) : FailsWhole whole part c where
  read_fails := by
    rw [Item.size_eq_least single] at short ⊢
    exact (read_eq_error_iff single).mpr ⟨short, rfl, rfl⟩
  write_fails := write_eq_error_iff.mpr ⟨short, rfl, rfl⟩
  part_read := by
    intro room
    have size := Item.size_eq_least first
    obtain ⟨other, d, read, same, moved⟩ := read_of_room first (size ▸ room)
    have length : other.bytes.length = part.size := by
      rw [other.length_bytes, Item.size_eq_least (same ▸ first), same, size]
    exact ⟨other, d, read, ne_of_moved moved.toNat_position (length ▸ positive)⟩
  part_written := by
    intro room
    obtain ⟨d, written, moved⟩ := write_of_room room
    have length : part.bytes.length = part.size := part.length_bytes
    exact ⟨d, written, ne_of_moved moved.toNat_position (length ▸ positive)⟩

section
variable {w : UInt32} {h l : UInt16} {b₀ b₁ b₂ b₃ : UInt8}

theorem flatMap_bytes_halves (same : w.toNat = 0x10000 * h.toNat + l.toNat) :
    [Item.u16 h, .u16 l].flatMap Item.bytes = (Item.u32 w).bytes := by
  have joined := BigEndian.bytes_append 2 2 h.toNat l.toNat l.toNat_lt
  rw [Item.bytes, same, Nat.mul_comm]
  simp only [List.flatMap_cons, List.flatMap_nil, List.append_nil]
  exact joined.symm

theorem flatMap_bytes_pair (same : h.toNat = 0x100 * b₀.toNat + b₁.toNat) :
    [Item.u8 b₀, .u8 b₁].flatMap Item.bytes = (Item.u16 h).bytes := by
  have joined := BigEndian.bytes_append 1 1 b₀.toNat b₁.toNat b₁.toNat_lt
  rw [Item.bytes, same, Nat.mul_comm]
  simp only [List.flatMap_cons, List.flatMap_nil, List.append_nil]
  exact joined.symm

/-- Two bytes each make up a half. -/
theorem flatMap_bytes_quadruple
    (same : w.toNat = 0x1000000 * b₀.toNat + 0x10000 * b₁.toNat + 0x100 * b₂.toNat + b₃.toNat) :
    [Item.u8 b₀, .u8 b₁, .u8 b₂, .u8 b₃].flatMap Item.bytes = (Item.u32 w).bytes := by
  have half (b c : UInt8) :
      (UInt16.ofNat (0x100 * b.toNat + c.toNat)).toNat = 0x100 * b.toNat + c.toNat := by
    have high := b.toNat_lt
    have low := c.toNat_lt
    rw [UInt16.toNat_ofNat']
    omega
  calc [Item.u8 b₀, .u8 b₁, .u8 b₂, .u8 b₃].flatMap Item.bytes
      = [Item.u8 b₀, .u8 b₁].flatMap Item.bytes ++ [Item.u8 b₂, .u8 b₃].flatMap Item.bytes := rfl
    _ = [Item.u16 (.ofNat (0x100 * b₀.toNat + b₁.toNat)),
          .u16 (.ofNat (0x100 * b₂.toNat + b₃.toNat))].flatMap Item.bytes := by
        rw [flatMap_bytes_pair (half b₀ b₁), flatMap_bytes_pair (half b₂ b₃)]
        simp only [List.flatMap_cons, List.flatMap_nil, List.append_nil]
    _ = (Item.u32 w).bytes := by
        apply flatMap_bytes_halves
        rw [same, half, half]
        omega

end

theorem toNat_eq_halves (w : UInt32) :
    w.toNat = 0x10000 * (UInt16.ofNat (w.toNat / 0x10000)).toNat +
      (UInt16.ofNat (w.toNat % 0x10000)).toNat := by
  have bound := w.toNat_lt
  simp only [UInt16.toNat_ofNat']
  omega

theorem toNat_eq_pair (w : UInt16) :
    w.toNat = 0x100 * (UInt8.ofNat (w.toNat / 0x100)).toNat + (UInt8.ofNat w.toNat).toNat := by
  have bound := w.toNat_lt
  simp only [UInt8.toNat_ofNat']
  omega

theorem toNat_eq_quadruple (w : UInt32) :
    w.toNat = 0x1000000 * (UInt8.ofNat (w.toNat / 0x1000000)).toNat +
      0x10000 * (UInt8.ofNat (w.toNat / 0x10000)).toNat +
      0x100 * (UInt8.ofNat (w.toNat / 0x100)).toNat + (UInt8.ofNat w.toNat).toNat := by
  have bound := w.toNat_lt
  simp only [UInt8.toNat_ofNat']
  omega

theorem exists_reads_u32 (room : 4 ≤ c.left.toNat) : ∃ w d, Reads c (Item.u32 w).bytes d := by
  have single : ∀ k, Shape.u32 ≠ .uuids k := nofun
  obtain ⟨item, d, _, shape, moved⟩ := read_of_room single room
  cases item with
  | u32 w => exact ⟨w, d, moved⟩
  | _ => contradiction

theorem exists_reads_u16 (room : 2 ≤ c.left.toNat) : ∃ w d, Reads c (Item.u16 w).bytes d := by
  have single : ∀ k, Shape.u16 ≠ .uuids k := nofun
  obtain ⟨item, d, _, shape, moved⟩ := read_of_room single room
  cases item with
  | u16 w => exact ⟨w, d, moved⟩
  | _ => contradiction

/-- A word that fits comes to the same as its parts, and its number is made up of theirs by position.
One that does not fit fails without an effect, although a first part may fit. -/
theorem words_agree_with_parts (c : Cursor) :
    (4 ≤ c.left.toNat →
      (∃ (w : UInt32) (h l : UInt16) (b₀ b₁ b₂ b₃ : UInt8) (d : Cursor),
        ReadsEach [.u32 w] c d ∧ ReadsEach [.u16 h, .u16 l] c d ∧
        ReadsEach [.u8 b₀, .u8 b₁, .u8 b₂, .u8 b₃] c d ∧
        w.toNat = 0x1000000 * b₀.toNat + 0x10000 * b₁.toNat + 0x100 * b₂.toNat + b₃.toNat ∧
        w.toNat = 0x10000 * h.toNat + l.toNat) ∧
      ∀ w : UInt32, ∃ d, WritesEach [.u32 w] c d ∧
        WritesEach [.u16 (.ofNat (w.toNat / 0x10000)), .u16 (.ofNat (w.toNat % 0x10000))] c d ∧
        WritesEach [.u8 (.ofNat (w.toNat / 0x1000000)), .u8 (.ofNat (w.toNat / 0x10000)),
          .u8 (.ofNat (w.toNat / 0x100)), .u8 (.ofNat w.toNat)] c d) ∧
    (2 ≤ c.left.toNat →
      (∃ (w : UInt16) (b₀ b₁ : UInt8) (d : Cursor),
        ReadsEach [.u16 w] c d ∧ ReadsEach [.u8 b₀, .u8 b₁] c d ∧
        w.toNat = 0x100 * b₀.toNat + b₁.toNat) ∧
      ∀ w : UInt16, ∃ d, WritesEach [.u16 w] c d ∧
        WritesEach [.u8 (.ofNat (w.toNat / 0x100)), .u8 (.ofNat w.toNat)] c d) ∧
    (c.left.toNat < 4 → ∀ w h b, FailsWhole (.u32 w) (.u16 h) c ∧ FailsWhole (.u32 w) (.u8 b) c) ∧
    (c.left.toNat < 2 → ∀ w b, FailsWhole (.u16 w) (.u8 b) c) := by
  refine ⟨?_, ?_, ?_, ?_⟩
  · intro room
    constructor
    · obtain ⟨w, d, moved⟩ := exists_reads_u32 room
      refine ⟨w, _, _, _, _, _, _, d, ?_, ?_, ?_, toNat_eq_quadruple w, toNat_eq_halves w⟩
      · exact readsEach_of_reads moved (by simp [Item.shape]) (List.flatMap_singleton ..)
      · exact readsEach_of_reads moved (by simp [Item.shape]) (flatMap_bytes_halves (toNat_eq_halves w))
      · exact readsEach_of_reads moved (by simp [Item.shape]) (flatMap_bytes_quadruple (toNat_eq_quadruple w))
    · intro w
      have whole : (Item.u32 w).size ≤ c.left.toNat := room
      obtain ⟨d, _, written⟩ := write_of_room whole
      refine ⟨d, ?_, ?_, ?_⟩
      · exact writesEach_of_writes written (List.flatMap_singleton ..)
      · exact writesEach_of_writes written (flatMap_bytes_halves (toNat_eq_halves w))
      · exact writesEach_of_writes written (flatMap_bytes_quadruple (toNat_eq_quadruple w))
  · intro room
    constructor
    · obtain ⟨w, d, moved⟩ := exists_reads_u16 room
      refine ⟨w, _, _, d, ?_, ?_, toNat_eq_pair w⟩
      · exact readsEach_of_reads moved (by simp [Item.shape]) (List.flatMap_singleton ..)
      · exact readsEach_of_reads moved (by simp [Item.shape]) (flatMap_bytes_pair (toNat_eq_pair w))
    · intro w
      have whole : (Item.u16 w).size ≤ c.left.toNat := room
      obtain ⟨d, _, written⟩ := write_of_room whole
      refine ⟨d, ?_, ?_⟩
      · exact writesEach_of_writes written (List.flatMap_singleton ..)
      · exact writesEach_of_writes written (flatMap_bytes_pair (toNat_eq_pair w))
  · intro short w h b
    have failing : c.left.toNat < (Item.u32 w).size := short
    exact ⟨failsWhole_of_short nofun failing nofun Nat.two_pos,
      failsWhole_of_short nofun failing nofun Nat.one_pos⟩
  · intro short w b
    have failing : c.left.toNat < (Item.u16 w).size := short
    exact failsWhole_of_short nofun failing nofun Nat.one_pos

/-- Of three bytes a half would still be read, but no word of two halves. -/
theorem words_agree_with_parts_of_five_and_of_three :
    let c := start [0xDE, 0xAD, 0xBE, 0xEF, 0x99] (by decide)
    let short := start [0xDE, 0xAD, 0xBE] (by decide)
    4 ≤ c.left.toNat ∧ short.left.toNat < 4 ∧
    (∃ (w : UInt32) (h l : UInt16) (d : Cursor),
      ReadsEach [.u32 w] c d ∧ ReadsEach [.u16 h, .u16 l] c d ∧
      w.toNat = 0x10000 * h.toNat + l.toNat) ∧
    (∃ d, WritesEach [.u32 0x01020304] c d ∧ WritesEach [.u16 0x0102, .u16 0x0304] c d ∧
      WritesEach [.u8 1, .u8 2, .u8 3, .u8 4] c d) ∧
    FailsWhole (.u32 7) (.u16 7) short ∧
    ∃ item d, (read .u16).outcome short = (.ok item, d) ∧ d ≠ short := by
  intro c short
  have room : c.left.toNat = 5 := c.toNat_left
  have rest : short.left.toNat = 3 := short.toNat_left
  have fits : 4 ≤ c.left.toNat := by omega
  have lacks : short.left.toNat < 4 := by omega
  obtain ⟨whole, _⟩ := words_agree_with_parts c
  obtain ⟨_, _, failing, _⟩ := words_agree_with_parts short
  obtain ⟨⟨w, h, l, _, _, _, _, d, word, halves, _, _, sum⟩, written⟩ := whole fits
  have fails := (failing lacks 7 7 7).1
  have half : (Item.u16 7).size ≤ short.left.toNat := by
    rw [rest]
    decide
  exact ⟨fits, lacks, ⟨w, h, l, d, word, halves, sum⟩, written 0x01020304, fails,
    fails.part_read half⟩

end BluetoothUuid.Cursor
