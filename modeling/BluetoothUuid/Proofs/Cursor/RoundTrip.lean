import BluetoothUuid.Proofs.Cursor.Runs

/-! Writing and reading are inverse over whole runs, whatever fails in between. What was written is
what is read back, and what was read is what writing it again puts into a fresh block. -/
namespace BluetoothUuid.Cursor
open BluetoothUuid.Action (attempts succeeded answers)

/-- Reading over what a run of writes wrote gives exactly the items whose writes succeeded, a list
element by element, and then there is nothing left. -/
theorem attempts_read_reread (block : Bytes) (fits : block.length < UInt64.size) (items : List Item) :
    let ran := attempts write items (start block fits)
    let parts := (succeeded ran.1).flatMap Item.parts
    ∃ last, attempts read (parts.map Item.shape) ran.2.reread =
        (parts.map fun part => (part.shape, .ok part), last) ∧
      last.atEnd = true := by
  intro ran parts
  have passed : ran.2.passed = parts.flatMap Item.bytes := by
    have written := (writes_attempts items (start block fits)).passed
    rw [passed_start, List.nil_append] at written
    simp only [parts, List.flatMap_assoc, Item.flatMap_bytes_parts]
    exact written
  have ahead : ran.2.reread.ahead = parts.flatMap Item.bytes ++ [] := by
    rw [List.append_nil, ← passed]
    exact ahead_start ..
  obtain ⟨last, moved, nothing⟩ := Reads.exists_of_ahead ahead
  refine ⟨last, attempts_read_of_reads ?_ moved, atEnd_iff_ahead.mpr nothing⟩
  intro part member
  obtain ⟨item, _, member⟩ := List.mem_flatMap.mp member
  exact Item.single_of_mem_parts member

theorem attempts_read_reread_with_failures :
    ∃ last, attempts read [.u16, .uuid .bits16, .uuid .bits16, .u8]
        (attempts write [.u16 0x1234, .slice (List.replicate 9 0),
          .uuids .bits16 [⟨0x180D⟩, ⟨0x2A37⟩], .u32 7, .u8 0xAB]
          (start (List.replicate 8 0xFF) (by decide))).2.reread =
        ([(.u16, .ok (.u16 0x1234)), (.uuid .bits16, .ok (.uuid ⟨.bits16, ⟨0x180D⟩⟩)),
          (.uuid .bits16, .ok (.uuid ⟨.bits16, ⟨0x2A37⟩⟩)), (.u8, .ok (.u8 0xAB))], last) ∧
      last.atEnd = true := by
  have back := attempts_read_reread (List.replicate 8 0xFF) (by decide)
    [.u16 0x1234, .slice (List.replicate 9 0), .uuids .bits16 [⟨0x180D⟩, ⟨0x2A37⟩], .u32 7,
      .u8 0xAB]
  have written : succeeded (attempts write [.u16 0x1234, .slice (List.replicate 9 0),
      .uuids .bits16 [⟨0x180D⟩, ⟨0x2A37⟩], .u32 7, .u8 0xAB]
      (start (List.replicate 8 0xFF) (by decide))).1 =
      [.u16 0x1234, .uuids .bits16 [⟨0x180D⟩, ⟨0x2A37⟩], .u8 0xAB] := by decide
  simp only [written] at back
  exact back

/-- Writing again what a run of reads gave, into a block that holds as much as was consumed, never
fails and gives exactly the consumed bytes, if no list that was read has a trailing part. And no bytes
are refused for what they are: a read of anything but a list fails exactly where there are too few. -/
theorem attempts_write_answers (input block : Bytes) (readable : input.length < UInt64.size)
    (writable : block.length < UInt64.size) (shapes : List Shape)
    (lists : ∀ k e, (.uuids k, .error e) ∉ (attempts read shapes (start input readable)).1)
    (room : (attempts read shapes (start input readable)).2.position.toNat ≤ block.length) :
    let ran := attempts read shapes (start input readable)
    (∃ last, attempts write (answers ran.1) (start block writable) =
        ((answers ran.1).map fun item => (item, .ok ()), last) ∧
      last.position = ran.2.position ∧
      last.bytes.take last.position.toNat = input.take ran.2.position.toNat) ∧
    ∀ shape, (∀ k, shape ≠ .uuids k) → ∀ (c d : Cursor) (e : Error),
      (read shape).outcome c = (.error e, d) ↔
        c.left.toNat < shape.least ∧ e = .endOfInput shape.least c.left.toNat ∧ d = c := by
  intro ran
  refine ⟨?_, fun shape single c d e => read_eq_error_iff single⟩
  have moved : Reads (start input readable) ((answers ran.1).flatMap Item.bytes) ran.2 :=
    reads_attempts lists
  have consumed := moved.passed
  rw [passed_start, List.nil_append] at consumed
  have fits : ((answers ran.1).flatMap Item.bytes).length ≤ (start block writable).left.toNat := by
    rw [← consumed, length_passed, ← length_ahead, ahead_start]
    exact room
  obtain ⟨last, done, written⟩ := attempts_write_of_room fits
  have produced := written.passed
  rw [passed_start, List.nil_append, ← consumed] at produced
  refine ⟨last, done, ?_, ?_⟩
  · rw [← UInt64.toNat_inj, ← length_passed, ← length_passed, produced]
  · exact produced.trans (congrArg _ moved.bytes)

/-- Of seven bytes neither a slice of nine nor a full UUID is read. -/
theorem attempts_write_answers_with_failures :
    attempts read [.u8, .u16, .slice 9, .uuid .bits16, .uuids .bits16]
        (start [0x7F, 0x12, 0x34, 0x18, 0x0D, 0x2A, 0x37] (by decide)) =
      ([(.u8, .ok (.u8 0x7F)), (.u16, .ok (.u16 0x1234)), (.slice 9, .error (.endOfInput 9 4)),
        (.uuid .bits16, .ok (.uuid ⟨.bits16, ⟨0x180D⟩⟩)),
        (.uuids .bits16, .ok (.uuids .bits16 [⟨0x2A37⟩]))],
        ⟨[0x7F, 0x12, 0x34, 0x18, 0x0D, 0x2A, 0x37], 7, by decide, by decide⟩) ∧
    (∃ last, attempts write [.u8 0x7F, .u16 0x1234, .uuid ⟨.bits16, ⟨0x180D⟩⟩,
          .uuids .bits16 [⟨0x2A37⟩]] (start (List.replicate 8 0xFF) (by decide)) =
        ([(.u8 0x7F, .ok ()), (.u16 0x1234, .ok ()), (.uuid ⟨.bits16, ⟨0x180D⟩⟩, .ok ()),
          (.uuids .bits16 [⟨0x2A37⟩], .ok ())], last) ∧
      last.position = 7 ∧
      last.bytes.take last.position.toNat = [0x7F, 0x12, 0x34, 0x18, 0x0D, 0x2A, 0x37]) ∧
    (read (.uuid .bits128)).outcome (start [0x7F, 0x12, 0x34, 0x18, 0x0D, 0x2A, 0x37] (by decide)) =
      (.error (.endOfInput 16 7), start [0x7F, 0x12, 0x34, 0x18, 0x0D, 0x2A, 0x37] (by decide)) := by
  have byte : (read .u8).outcome (start [0x7F, 0x12, 0x34, 0x18, 0x0D, 0x2A, 0x37] (by decide)) =
      (.ok (.u8 0x7F), ⟨[0x7F, 0x12, 0x34, 0x18, 0x0D, 0x2A, 0x37], 1, by decide, by decide⟩) := rfl
  have word : (read .u16).outcome
      ⟨[0x7F, 0x12, 0x34, 0x18, 0x0D, 0x2A, 0x37], 1, by decide, by decide⟩ =
      (.ok (.u16 0x1234), ⟨[0x7F, 0x12, 0x34, 0x18, 0x0D, 0x2A, 0x37], 3, by decide, by decide⟩) := rfl
  have slice : (read (.slice 9)).outcome
      ⟨[0x7F, 0x12, 0x34, 0x18, 0x0D, 0x2A, 0x37], 3, by decide, by decide⟩ =
      (.error (.endOfInput 9 4),
        ⟨[0x7F, 0x12, 0x34, 0x18, 0x0D, 0x2A, 0x37], 3, by decide, by decide⟩) := rfl
  have uuid : (read (.uuid .bits16)).outcome
      ⟨[0x7F, 0x12, 0x34, 0x18, 0x0D, 0x2A, 0x37], 3, by decide, by decide⟩ =
      (.ok (.uuid ⟨.bits16, ⟨0x180D⟩⟩),
        ⟨[0x7F, 0x12, 0x34, 0x18, 0x0D, 0x2A, 0x37], 5, by decide, by decide⟩) := rfl
  have list : (read (.uuids .bits16)).outcome
      ⟨[0x7F, 0x12, 0x34, 0x18, 0x0D, 0x2A, 0x37], 5, by decide, by decide⟩ =
      (.ok (.uuids .bits16 [⟨0x2A37⟩]),
        ⟨[0x7F, 0x12, 0x34, 0x18, 0x0D, 0x2A, 0x37], 7, by decide, by decide⟩) :=
    Action.outcome_map_eq_ok_iff.mpr ⟨_, readUuids_eq_ok_iff.mpr ⟨⟨rfl, rfl⟩, rfl⟩, rfl⟩
  have consumed : attempts read [.u8, .u16, .slice 9, .uuid .bits16, .uuids .bits16]
      (start [0x7F, 0x12, 0x34, 0x18, 0x0D, 0x2A, 0x37] (by decide)) =
      ([(.u8, .ok (.u8 0x7F)), (.u16, .ok (.u16 0x1234)), (.slice 9, .error (.endOfInput 9 4)),
        (.uuid .bits16, .ok (.uuid ⟨.bits16, ⟨0x180D⟩⟩)),
        (.uuids .bits16, .ok (.uuids .bits16 [⟨0x2A37⟩]))],
        ⟨[0x7F, 0x12, 0x34, 0x18, 0x0D, 0x2A, 0x37], 7, by decide, by decide⟩) := by
    simp only [attempts, byte, word, slice, uuid, list]
  obtain ⟨again, refused⟩ := attempts_write_answers [0x7F, 0x12, 0x34, 0x18, 0x0D, 0x2A, 0x37]
    (List.replicate 8 0xFF) (by decide) (by decide)
    [.u8, .u16, .slice 9, .uuid .bits16, .uuids .bits16] (by simp [consumed])
    (by rw [consumed]; decide)
  simp only [consumed] at again
  have single : ∀ k, Shape.uuid .bits128 ≠ .uuids k := by simp
  exact ⟨consumed, again, (refused (.uuid .bits128) single ..).mpr ⟨by decide, rfl, rfl⟩⟩

end BluetoothUuid.Cursor
