import BluetoothUuid.Uuid.Wire

/-! Lists of UUIDs at a cursor, against their UUIDs one by one. Reading a list takes all that is left
and fails exactly if a part of a UUID is over. Writing a list is writing each of its UUIDs where all
of them fit, and writing none where one by one would have stopped midway. -/
namespace BluetoothUuid.Cursor
variable {k : Kind} {c d : Cursor} {u : Uuid k} {us : List (Uuid k)} {e : Error}

/-- Back to back, each UUID stands at a multiple of the size. -/
theorem bytes_of_getElem? {i : Nat} (member : us[i]? = some u) :
    u.bytes = ((us.flatMap Uuid.bytes).drop (i * k.size)).take k.size := by
  induction us generalizing i with
  | nil => contradiction
  | cons v us ih =>
    have size : v.bytes.length = k.size := v.length_bytes
    cases i with
    | zero =>
      obtain rfl : v = u := Option.some.inj member
      rw [Nat.zero_mul, List.drop_zero, List.flatMap_cons, ← size, List.take_left]
    | succ i =>
      rw [List.flatMap_cons, Nat.succ_mul, Nat.add_comm, ← size, List.drop_length_add_append, size]
      exact ih member

/-- The whole UUIDs of a size and the part that is over, by division. -/
theorem div_and_mod_of_totalSize {left rest : Nat} (whole : left = totalSize us + rest)
    (part : rest < k.size) : left / k.size = us.length ∧ left % k.size = rest := by
  rw [Nat.div_mod_unique k.size_pos, whole, totalSize, Nat.mul_comm, Nat.add_comm]
  exact ⟨rfl, part⟩

/-- Reading a list goes on from `c` to `d` by one UUID. -/
def Round (k : Kind) (c d : Cursor) : Prop :=
  c.atEnd = false ∧ ∃ u : Uuid k, (readUuid k).outcome c = (.ok u, d)

/-- Each round consumes bytes, so that there is no endless sequence of them. -/
theorem wellFounded_round (k : Kind) : WellFounded fun d c => Round k c d := by
  refine Subrelation.wf ?_ (measure fun c : Cursor => c.left.toNat).wf
  rintro d c ⟨_, u, read⟩
  exact toNat_left_lt_of_readUuid read

/-- All that is left at `c` is these UUIDs, and `d` is behind them. Written again, wherever there is
room, they give the bytes that they were read from. -/
structure ReadsAll (c : Cursor) (us : List (Uuid k)) (d : Cursor) : Prop where
  atEnd : d.atEnd = true
  bytes : d.bytes = c.bytes
  length : us.length = c.left.toNat / k.size
  each : ∀ i u, us[i]? = some u → u.bytes = (c.ahead.drop (i * k.size)).take k.size
  rewritten : ∀ w : Cursor, c.left.toNat ≤ w.left.toNat →
    ∃ w', (writeUuids us).outcome w = (.ok (), w') ∧ Writes w c.ahead w'

theorem writeUuids_eq_ok_iff :
    (writeUuids us).outcome c = (.ok (), d) ↔ Writes c (us.flatMap Uuid.bytes) d := by
  rw [writeUuids_eq_writeSlice, writeSlice_eq_ok_iff]

theorem readsAll_of_readUuids (read : (readUuids k).outcome c = (.ok us, d)) : ReadsAll c us d := by
  obtain ⟨moved, empty⟩ := readUuids_eq_ok_iff.mp read
  have ahead : c.ahead = us.flatMap Uuid.bytes := by
    rw [moved.ahead, empty, List.append_nil]
  have left : c.left.toNat = totalSize us + 0 := by
    rw [← length_ahead, ahead, length_flatMap_bytes, Nat.add_zero]
  refine ⟨atEnd_iff_ahead.mpr empty, moved.bytes, ?_, ?_, ?_⟩
  · exact (div_and_mod_of_totalSize left k.size_pos).1.symm
  · intro i u member
    rw [ahead]
    exact bytes_of_getElem? member
  · intro w room
    rw [← length_ahead, ahead] at room
    obtain ⟨w', written⟩ := writeSlice_of_room room
    rw [ahead, writeUuids_eq_writeSlice]
    exact ⟨w', written, writeSlice_eq_ok_iff.mp written⟩

/-- What a list with a part of a UUID behind it leaves: the whole UUIDs are consumed. -/
theorem left_of_readUuids_error (failed : (readUuids k).outcome c = (.error e, d)) :
    c.left.toNat % k.size ≠ 0 ∧ e = .endOfInput k.size (c.left.toNat % k.size) ∧
      d.bytes = c.bytes ∧
      d.position.toNat = c.position.toNat + c.left.toNat / k.size * k.size := by
  obtain ⟨⟨us, moved⟩, more, part, cause⟩ := readUuids_eq_error_iff.mp failed
  have length := length_flatMap_bytes us
  have left := moved.toNat_left
  have position := moved.toNat_position
  rw [length] at left position
  obtain ⟨whole, rest⟩ := div_and_mod_of_totalSize left part
  rw [whole, rest]
  exact ⟨Nat.ne_of_gt more, cause, moved.bytes, position⟩

theorem exists_readUuids_of_dvd (whole : k.size ∣ c.left.toNat) :
    ∃ us d, (readUuids k).outcome c = (.ok us, d) := by
  cases result : (readUuids k).outcome c with
  | mk answer d =>
    cases answer with
    | ok us => exact ⟨us, d, rfl⟩
    | error e => exact absurd (Nat.mod_eq_zero_of_dvd whole) (left_of_readUuids_error result).1

theorem exists_error_of_not_dvd (part : ¬ k.size ∣ c.left.toNat) :
    ∃ e d, (readUuids k).outcome c = (.error e, d) := by
  cases result : (readUuids k).outcome c with
  | mk answer d =>
    cases answer with
    | ok us =>
      obtain ⟨moved, empty⟩ := readUuids_eq_ok_iff.mp result
      have left : c.left.toNat = totalSize us := by
        rw [← length_ahead, moved.ahead, empty, List.append_nil, length_flatMap_bytes]
      have multiple : k.size ∣ totalSize us := Nat.dvd_mul_left ..
      exact absurd (left ▸ multiple) part
    | error e => exact ⟨e, d, rfl⟩

/-- Reading a list comes to an end, by success exactly where a whole number of UUIDs is left, and
what a list wrote is read as that list. -/
theorem readUuids_takes_all_or_stops_at_part (k : Kind) :
    (WellFounded fun d c => Round k c d) ∧
    (∀ c : Cursor,
      (k.size ∣ c.left.toNat →
        ∃ us d, (readUuids k).outcome c = (.ok us, d) ∧ ReadsAll c us d) ∧
      (¬ k.size ∣ c.left.toNat →
        ∃ d, (readUuids k).outcome c =
            (.error (.endOfInput k.size (c.left.toNat % k.size)), d) ∧
          d.bytes = c.bytes ∧
          d.position.toNat = c.position.toNat + c.left.toNat / k.size * k.size)) ∧
    ∀ (us : List (Uuid k)) (w w' : Cursor), (writeUuids us).outcome w = (.ok (), w') →
      ∀ c : Cursor, c.ahead = w'.passed.drop w.position.toNat →
        ∃ d, (readUuids k).outcome c = (.ok us, d) := by
  refine ⟨wellFounded_round k, ?_, ?_⟩
  · intro c
    constructor
    · intro whole
      obtain ⟨us, d, read⟩ := exists_readUuids_of_dvd whole
      exact ⟨us, d, read, readsAll_of_readUuids read⟩
    · intro part
      obtain ⟨e, d, failed⟩ := exists_error_of_not_dvd part
      obtain ⟨_, rfl, bytes, position⟩ := left_of_readUuids_error failed
      exact ⟨d, failed, bytes, position⟩
  · intro us w w' done c ahead
    have written := writeUuids_eq_ok_iff.mp done
    rw [written.passed, ← length_passed, List.drop_left] at ahead
    obtain ⟨d, moved, empty⟩ := Reads.exists_of_ahead (ahead.trans (List.append_nil _).symm)
    exact ⟨d, readUuids_eq_ok_iff.mpr ⟨moved, empty⟩⟩

theorem readUuids_takes_all_or_stops_at_part_of_five :
    (∃ d, (readUuids .bits16).outcome (start [0x18, 0x0D, 0x2A, 0x37, 0x01] (by decide)) =
        (.error (.endOfInput 2 1), d) ∧ d.position.toNat = 4) ∧
    (∃ (us : List (Uuid .bits16)) (d : Cursor),
      (readUuids .bits16).outcome ⟨[0xFF, 0x18, 0x0D, 0x2A, 0x37], 1, by decide, by decide⟩ =
        (.ok us, d) ∧ us.length = 2 ∧ d.atEnd = true) ∧
    ∃ d, (readUuids .bits16).outcome (start [0x18, 0x0D, 0x2A, 0x37] (by decide)) =
      (.ok [⟨0x180D⟩, ⟨0x2A37⟩], d) := by
  obtain ⟨_, reads, back⟩ := readUuids_takes_all_or_stops_at_part .bits16
  refine ⟨?_, ?_, ?_⟩
  · obtain ⟨d, failed, _, position⟩ :=
      (reads (start [0x18, 0x0D, 0x2A, 0x37, 0x01] (by decide))).2 (by decide)
    exact ⟨d, failed, position⟩
  · obtain ⟨us, d, read, all⟩ :=
      (reads ⟨[0xFF, 0x18, 0x0D, 0x2A, 0x37], 1, by decide, by decide⟩).1 (by decide)
    exact ⟨us, d, read, all.length, all.atEnd⟩
  · exact back [⟨0x180D⟩, ⟨0x2A37⟩] ⟨[0xFF, 0xFE, 0xFD, 0xFC, 0xFB], 1, by decide, by decide⟩ _ rfl
      (start [0x18, 0x0D, 0x2A, 0x37] (by decide)) rfl

/-- Where not all of them fit, one by one the UUIDs are written as far as they fit, and the first
that does not finds less room than it needs. -/
theorem forM_writeUuid_of_short (short : c.left.toNat < totalSize us) :
    ∃ d, (forM us writeUuid).outcome c =
        (.error (.bufferTooSmall k.size (c.left.toNat % k.size)), d) ∧
      Writes c ((us.take (c.left.toNat / k.size)).flatMap Uuid.bytes) d := by
  induction us generalizing c with
  | nil =>
    rw [totalSize, List.length_nil, Nat.zero_mul] at short
    contradiction
  | cons u us ih =>
    simp only [List.forM_cons, Action.outcome_bind]
    by_cases one : k.size ≤ c.left.toNat
    · obtain ⟨middle, first, written⟩ := writeUuid_of_room u one
      have left : c.left.toNat = k.size + middle.left.toNat :=
        u.length_bytes ▸ written.toNat_left
      have whole : c.left.toNat / k.size = middle.left.toNat / k.size + 1 := by
        rw [left, Nat.add_div_left _ k.size_pos]
      have part : c.left.toNat % k.size = middle.left.toNat % k.size := by
        rw [left, Nat.add_mod_left]
      have shorter : middle.left.toNat < totalSize us := by
        rw [totalSize, List.length_cons, Nat.succ_mul] at short
        rw [totalSize]
        omega
      obtain ⟨d, failed, others⟩ := ih shorter
      rw [first, whole, part]
      exact ⟨d, failed, written.trans others⟩
    · have none := Nat.lt_of_not_le one
      rw [writeUuid_of_short u none, Nat.div_eq_of_lt none, Nat.mod_eq_of_lt none]
      exact ⟨c, rfl, .refl c⟩

theorem forM_writeUuid_eq_ok_iff :
    (forM us writeUuid).outcome c = (.ok (), d) ↔ Writes c (us.flatMap Uuid.bytes) d := by
  constructor
  · intro done
    by_cases room : totalSize us ≤ c.left.toNat
    · obtain ⟨d', done', written⟩ := forM_writeUuid_of_room room
      cases done.symm.trans done'
      exact written
    · obtain ⟨d', failed, _⟩ := forM_writeUuid_of_short (Nat.lt_of_not_le room)
      cases done.symm.trans failed
  · intro written
    obtain ⟨d', done, written'⟩ := forM_writeUuid_of_room (length_flatMap_bytes us ▸ written.room)
    rw [written.unique written']
    exact done

/-- Within the room for all of them, each UUID is reached and written. -/
theorem exists_write_of_getElem? {i : Nat} (room : totalSize us ≤ c.left.toNat)
    (member : us[i]? = some u) :
    ∃ before after, (forM (us.take i) writeUuid).outcome c = (.ok (), before) ∧
      (writeUuid u).outcome before = (.ok (), after) := by
  obtain ⟨inside, _⟩ := List.getElem?_eq_some_iff.mp member
  have length : (us.take i).length = i := List.length_take_of_le (Nat.le_of_lt inside)
  have upTo : totalSize (us.take i) + k.size ≤ totalSize us := by
    rw [totalSize, totalSize, length, ← Nat.succ_mul]
    exact Nat.mul_le_mul_right _ inside
  have roomUpTo : totalSize (us.take i) ≤ c.left.toNat := by omega
  obtain ⟨before, done, written⟩ := forM_writeUuid_of_room roomUpTo
  have left := written.toNat_left
  rw [length_flatMap_bytes] at left
  have roomForIt : k.size ≤ before.left.toNat := by omega
  obtain ⟨after, last, _⟩ := writeUuid_of_room u roomForIt
  exact ⟨before, after, done, last⟩

/-- A list is written as its UUIDs one by one would be, if all of them fit, and not at all if they
do not, where one by one the first of them would have been written. -/
theorem writeUuids_all_or_nothing (us : List (Uuid k)) (c : Cursor) :
    (us.length * k.size ≤ c.left.toNat →
      (∃ d, (writeUuids us).outcome c = (.ok (), d) ∧
        (forM us writeUuid).outcome c = (.ok (), d) ∧ Writes c (us.flatMap Uuid.bytes) d) ∧
      ∀ i u, us[i]? = some u → ∃ before after,
        (forM (us.take i) writeUuid).outcome c = (.ok (), before) ∧
        (writeUuid u).outcome before = (.ok (), after)) ∧
    (c.left.toNat < us.length * k.size →
      (writeUuids us).outcome c =
        (.error (.bufferTooSmall (us.length * k.size) c.left.toNat), c) ∧
      c.left.toNat / k.size < us.length ∧
      ∃ d, (forM us writeUuid).outcome c =
          (.error (.bufferTooSmall k.size (c.left.toNat % k.size)), d) ∧
        (forM (us.take (c.left.toNat / k.size)) writeUuid).outcome c = (.ok (), d) ∧
        Writes c ((us.take (c.left.toNat / k.size)).flatMap Uuid.bytes) d) ∧
    ((∃ d, (forM us writeUuid).outcome c = (.ok (), d)) ↔
      ∃ d, (writeUuids us).outcome c = (.ok (), d)) := by
  refine ⟨?_, ?_, ?_⟩
  · intro room
    obtain ⟨d, done, written⟩ := forM_writeUuid_of_room room
    exact ⟨⟨d, writeUuids_eq_ok_iff.mpr written, done, written⟩,
      fun i u member => exists_write_of_getElem? room member⟩
  · intro short
    obtain ⟨d, failed, written⟩ := forM_writeUuid_of_short short
    refine ⟨?_, Nat.div_lt_of_lt_mul (Nat.mul_comm .. ▸ short), d, failed, ?_, written⟩
    · rw [writeUuids_eq_writeSlice, writeSlice_eq_error_iff, length_flatMap_bytes]
      exact ⟨short, rfl, rfl⟩
    · exact forM_writeUuid_eq_ok_iff.mpr written
  · simp only [forM_writeUuid_eq_ok_iff, writeUuids_eq_ok_iff]

theorem writeUuids_all_or_nothing_of_five :
    ∃ c : Cursor, c = ⟨[0xF0, 0xF1, 0xF2, 0xF3, 0xF4, 0xF5], 1, by decide, by decide⟩ ∧
      (∃ d, (writeUuids ([⟨0x180D⟩, ⟨0x2A37⟩] : List (Uuid .bits16))).outcome c = (.ok (), d) ∧
        (forM ([⟨0x180D⟩, ⟨0x2A37⟩] : List (Uuid .bits16)) writeUuid).outcome c = (.ok (), d)) ∧
      (writeUuids ([⟨0x180D⟩, ⟨0x2A37⟩, ⟨1⟩] : List (Uuid .bits16))).outcome c =
        (.error (.bufferTooSmall 6 5), c) ∧
      ∃ d, (forM ([⟨0x180D⟩, ⟨0x2A37⟩, ⟨1⟩] : List (Uuid .bits16)) writeUuid).outcome c =
          (.error (.bufferTooSmall 2 1), d) ∧
        d.passed = [0xF0, 0x18, 0x0D, 0x2A, 0x37] := by
  have fits := writeUuids_all_or_nothing ([⟨0x180D⟩, ⟨0x2A37⟩] : List (Uuid .bits16))
    ⟨[0xF0, 0xF1, 0xF2, 0xF3, 0xF4, 0xF5], 1, by decide, by decide⟩
  have exceeds := writeUuids_all_or_nothing ([⟨0x180D⟩, ⟨0x2A37⟩, ⟨1⟩] : List (Uuid .bits16))
    ⟨[0xF0, 0xF1, 0xF2, 0xF3, 0xF4, 0xF5], 1, by decide, by decide⟩
  obtain ⟨⟨d, whole, each, _⟩, _⟩ := fits.1 (by decide)
  obtain ⟨failed, _, d', stopped, _, written⟩ := exceeds.2.1 (by decide)
  exact ⟨_, rfl, ⟨d, whole, each⟩, failed, d', stopped, written.passed⟩

end BluetoothUuid.Cursor
