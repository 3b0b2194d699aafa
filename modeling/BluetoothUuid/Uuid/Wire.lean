import BluetoothUuid.Cursor.Words
import BluetoothUuid.Uuid

/-! UUIDs and lists of them at a cursor. The shortened kinds are words, and a full UUID is a run of
bytes. A list is written whole or not at all, and is read to the end of the block. -/
namespace BluetoothUuid.Cursor
variable {k : Kind} {c d : Cursor} {u : Uuid k} {us : List (Uuid k)} {e : Error}

def writeUuid : {k : Kind} → Uuid k → Action Cursor Unit
  | .bits16, u => writeUInt16 (.ofBitVec u.value)
  | .bits32, u => writeUInt32 (.ofBitVec u.value)
  | .bits128, u => writeSlice u.bytes

def readUuid : (k : Kind) → Action Cursor (Uuid k)
  | .bits16 => (fun word => ⟨word.toBitVec⟩) <$> readUInt16
  | .bits32 => (fun word => ⟨word.toBitVec⟩) <$> readUInt32
  | .bits128 => Uuid.ofBytes .bits128 <$> readSlice Kind.bits128.size

theorem writeUuid_eq_writeSlice (u : Uuid k) : writeUuid u = writeSlice u.bytes := by
  cases k with
  | bits16 => exact writeWord_eq_writeSlice _
  | bits32 => exact writeWord_eq_writeSlice _
  | bits128 => rfl

theorem writeUuid_of_room (u : Uuid k) (room : k.size ≤ c.left.toNat) :
    ∃ d, (writeUuid u).outcome c = (.ok (), d) ∧ Writes c u.bytes d := by
  rw [← u.length_bytes] at room
  obtain ⟨d, written⟩ := writeSlice_of_room room
  rw [writeUuid_eq_writeSlice]
  exact ⟨d, written, writeSlice_eq_ok_iff.mp written⟩

theorem writeUuid_of_short (u : Uuid k) (short : c.left.toNat < k.size) :
    (writeUuid u).outcome c = (.error (.bufferTooSmall k.size c.left.toNat), c) := by
  rw [writeUuid_eq_writeSlice, writeSlice_eq_error_iff, u.length_bytes]
  exact ⟨short, rfl, rfl⟩

/-- A UUID is read exactly where its wire form lies ahead. -/
theorem readUuid_eq_ok_iff : (readUuid k).outcome c = (.ok u, d) ↔ Reads c u.bytes d := by
  cases k with
  | bits16 =>
    rw [readUuid, Action.outcome_map_eq_ok_iff]
    constructor
    · rintro ⟨word, read, rfl⟩
      exact readUInt16_eq_ok_iff.mp read
    · intro moved
      exact ⟨.ofBitVec u.value, readUInt16_eq_ok_iff.mpr moved, rfl⟩
  | bits32 =>
    rw [readUuid, Action.outcome_map_eq_ok_iff]
    constructor
    · rintro ⟨word, read, rfl⟩
      exact readUInt32_eq_ok_iff.mp read
    · intro moved
      exact ⟨.ofBitVec u.value, readUInt32_eq_ok_iff.mpr moved, rfl⟩
  | bits128 =>
    rw [readUuid, Action.outcome_map_eq_ok_iff]
    constructor
    · rintro ⟨bs, read, rfl⟩
      obtain ⟨length, moved⟩ := readSlice_eq_ok_iff.mp read
      rwa [Uuid.bytes_ofBytes length]
    · intro moved
      exact ⟨u.bytes, readSlice_eq_ok_iff.mpr ⟨u.length_bytes, moved⟩, u.ofBytes_bytes⟩

theorem readUuid_eq_error_iff :
    (readUuid k).outcome c = (.error e, d) ↔
      c.left.toNat < k.size ∧ e = .endOfInput k.size c.left.toNat ∧ d = c := by
  cases k with
  | bits16 | bits32 =>
    simp only [readUuid, readUInt16, readUInt32, Action.outcome_map_eq_error_iff]
    exact readWord_eq_error_iff
  | bits128 =>
    simp only [readUuid, Action.outcome_map_eq_error_iff]
    exact readSlice_eq_error_iff

theorem readUuid_of_room (room : k.size ≤ c.left.toNat) :
    ∃ u d, (readUuid k).outcome c = (.ok u, d) := by
  cases result : (readUuid k).outcome c with
  | mk answer d =>
    cases answer with
    | ok u => exact ⟨u, d, rfl⟩
    | error e => exact absurd room (Nat.not_le.mpr (readUuid_eq_error_iff.mp result).1)

/-- What is read is the front of what lay ahead. -/
theorem take_ahead_of_readUuid (read : (readUuid k).outcome c = (.ok u, d)) :
    c.ahead.take k.size = u.bytes := by
  rw [(readUuid_eq_ok_iff.mp read).ahead, List.take_left' u.length_bytes]

/-- The UUID at the front of a byte string is what a cursor at its start reads. -/
theorem front_eq_readUuid {bs : Bytes} (fits : bs.length < UInt64.size) :
    Uuid.front k bs = ((readUuid k).outcome (start bs fits)).1 := by
  have left : (start bs fits).left.toNat = bs.length := by rw [← length_ahead, ahead_start]
  rw [Uuid.front]
  split
  · next room =>
    rw [← left] at room
    obtain ⟨u, d, read⟩ := readUuid_of_room room
    have front : bs.take k.size = u.bytes := take_ahead_of_readUuid read
    rw [read, front, Uuid.ofBytes_bytes]
  · next short =>
    rw [← left] at short ⊢
    rw [readUuid_eq_error_iff.mpr ⟨Nat.lt_of_not_le short, rfl, rfl⟩]

theorem toNat_left_lt_of_readUuid (read : (readUuid k).outcome c = (.ok u, d)) :
    d.left.toNat < c.left.toNat := by
  have left := (readUuid_eq_ok_iff.mp read).toNat_left
  have size := k.size_pos
  rw [Uuid.length_bytes] at left
  omega

/-- The number of bytes that a list of UUIDs takes. -/
def totalSize (us : List (Uuid k)) : Nat := us.length * k.size

/-- Writes the UUIDs back to back if there is room for all of them. -/
def writeUuids (us : List (Uuid k)) : Action Cursor Unit := do
  let c ← get
  if totalSize us ≤ c.left.toNat then forM us writeUuid
  else throw (.bufferTooSmall (totalSize us) c.left.toNat)

/-- Reads UUIDs to the end of the block. Those before a trailing part stay consumed. -/
def readUuids (k : Kind) : Action Cursor (List (Uuid k)) := fun c =>
  if c.atEnd then (.ok [], c)
  else
    match read : (readUuid k).outcome c with
    | (.error e, d) => (.error e, d)
    | (.ok u, rest) =>
      have := toNat_left_lt_of_readUuid read
      let (us, last) := readUuids k rest
      (us.map (u :: ·), last)
termination_by c => c.left.toNat

theorem length_flatMap_bytes (us : List (Uuid k)) :
    (us.flatMap Uuid.bytes).length = totalSize us := by
  induction us with
  | nil => simp [totalSize]
  | cons u us ih =>
    rw [List.flatMap_cons, List.length_append, ih, Uuid.length_bytes, totalSize, totalSize,
      List.length_cons, Nat.add_mul, Nat.one_mul, Nat.add_comm]

/-- Where there is room for all of them, no UUID of the list fails to be written. -/
theorem forM_writeUuid_of_room (room : totalSize us ≤ c.left.toNat) :
    ∃ d, (forM us writeUuid).outcome c = (.ok (), d) ∧ Writes c (us.flatMap Uuid.bytes) d := by
  induction us generalizing c with
  | nil => exact ⟨c, rfl, .refl c⟩
  | cons u us ih =>
    rw [totalSize, List.length_cons, Nat.succ_mul] at room
    obtain ⟨middle, first, written⟩ := writeUuid_of_room u (Nat.le_of_add_left_le room)
    have left := written.toNat_left
    rw [u.length_bytes] at left
    have roomForOthers : totalSize us ≤ middle.left.toNat := by
      rw [totalSize]
      omega
    obtain ⟨d, rest, others⟩ := ih roomForOthers
    refine ⟨d, ?_, written.trans others⟩
    rw [List.forM_cons, Action.outcome_bind, first]
    exact rest

theorem writeUuids_eq_writeSlice (us : List (Uuid k)) :
    writeUuids us = writeSlice (us.flatMap Uuid.bytes) := by
  apply Action.ext
  intro c
  rw [writeUuids, Action.outcome_bind]
  by_cases room : totalSize us ≤ c.left.toNat
  · obtain ⟨d, each, written⟩ := forM_writeUuid_of_room room
    simp only [Action.outcome_get, if_pos room, each, writeSlice_eq_ok_iff.mpr written]
  · have failed : (writeSlice (us.flatMap Uuid.bytes)).outcome c =
        (.error (.bufferTooSmall (totalSize us) c.left.toNat), c) := by
      rw [writeSlice_eq_error_iff, length_flatMap_bytes]
      exact ⟨Nat.lt_of_not_le room, rfl, rfl⟩
    simp only [Action.outcome_get, if_neg room, Action.outcome_throw, failed]

theorem atEnd_iff_ahead : c.atEnd = true ↔ c.ahead = [] := by
  rw [atEnd_iff, ← length_ahead, List.length_eq_zero_iff]

private theorem readUuids_of_atEnd (done : c.atEnd = true) :
    (readUuids k).outcome c = (.ok [], c) := by
  change readUuids k c = _
  rw [readUuids, if_pos done]

private theorem readUuids_of_error (more : ¬ c.atEnd = true)
    (read : (readUuid k).outcome c = (.error e, d)) :
    (readUuids k).outcome c = (.error e, d) := by
  change readUuids k c = _
  rw [readUuids, if_neg more]
  split
  · next other =>
    cases read.symm.trans other
    rfl
  · next other => cases read.symm.trans other

private theorem readUuids_of_ok (more : ¬ c.atEnd = true)
    (read : (readUuid k).outcome c = (.ok u, d)) :
    (readUuids k).outcome c = ((u :: ·) <$> readUuids k).outcome d := by
  rw [Action.outcome_map]
  change readUuids k c = _
  rw [readUuids, if_neg more]
  split
  · next other => cases read.symm.trans other
  · next other =>
    cases read.symm.trans other
    rfl

private theorem size_le_left {bs : Bytes} (moved : Reads c (u.bytes ++ bs) d) :
    k.size ≤ c.left.toNat := by
  have room := moved.room
  rw [List.length_append, Uuid.length_bytes] at room
  omega

private theorem eq_of_reads_cons {v : Uuid k} {bs : Bytes} {rest : Cursor}
    (first : Reads c u.bytes rest) (whole : Reads c (v.bytes ++ bs) d) :
    v = u ∧ Reads rest bs d := by
  have both := first.ahead.symm.trans whole.ahead
  rw [List.append_assoc] at both
  have same : u.bytes = v.bytes :=
    List.append_inj_left both (by rw [Uuid.length_bytes, Uuid.length_bytes])
  constructor
  · exact Uuid.bytes_inj.mp same.symm
  · rw [← same] at whole
    exact whole.rest first

/-- A list is read exactly where its wire form is all that lies ahead. -/
theorem readUuids_eq_ok_iff :
    (readUuids k).outcome c = (.ok us, d) ↔
      Reads c (us.flatMap Uuid.bytes) d ∧ d.ahead = [] := by
  induction c using readUuids.induct k generalizing us with
  | case1 c done =>
    rw [readUuids_of_atEnd done]
    constructor
    · rintro ⟨⟩
      exact ⟨.refl _, atEnd_iff_ahead.mp done⟩
    · rintro ⟨moved, _⟩
      cases us with
      | nil => rw [moved.unique (.refl c)]
      | cons u us =>
        have room := size_le_left moved
        have size := k.size_pos
        have spent := c.atEnd_iff.mp done
        omega
  | case2 c more e last read =>
    have short := (readUuid_eq_error_iff.mp read).1
    rw [readUuids_of_error more read]
    constructor
    · rintro ⟨⟩
    · rintro ⟨moved, empty⟩
      cases us with
      | nil => exact absurd (atEnd_iff_ahead.mpr (moved.ahead.trans empty)) more
      | cons u us => exact absurd (size_le_left moved) (Nat.not_le.mpr short)
  | case3 c more u rest read _ _ _ _ ih =>
    have first := readUuid_eq_ok_iff.mp read
    rw [readUuids_of_ok more read, Action.outcome_map_eq_ok_iff]
    constructor
    · rintro ⟨others, answered, rfl⟩
      obtain ⟨moved, empty⟩ := ih.mp answered
      exact ⟨first.trans moved, empty⟩
    · rintro ⟨moved, empty⟩
      cases us with
      | nil => exact absurd (atEnd_iff_ahead.mpr (moved.ahead.trans empty)) more
      | cons v us =>
        obtain ⟨rfl, later⟩ := eq_of_reads_cons first moved
        exact ⟨us, ih.mpr ⟨later, empty⟩, rfl⟩

/-- A list fails to be read exactly if a part of a UUID trails, and that part is left. -/
theorem readUuids_eq_error_iff :
    (readUuids k).outcome c = (.error e, d) ↔
      (∃ us : List (Uuid k), Reads c (us.flatMap Uuid.bytes) d) ∧ 0 < d.left.toNat ∧
        d.left.toNat < k.size ∧ e = .endOfInput k.size d.left.toNat := by
  induction c using readUuids.induct k with
  | case1 c done =>
    have spent := c.atEnd_iff.mp done
    rw [readUuids_of_atEnd done]
    constructor
    · rintro ⟨⟩
    · rintro ⟨⟨us, moved⟩, more, _⟩
      have left := moved.toNat_left
      omega
  | case2 c more f last read =>
    obtain ⟨short, cause, rfl⟩ := readUuid_eq_error_iff.mp read
    rw [readUuids_of_error more read]
    constructor
    · rintro ⟨⟩
      rw [atEnd_iff] at more
      exact ⟨⟨[], .refl _⟩, Nat.pos_of_ne_zero more, short, cause⟩
    · rintro ⟨⟨us, moved⟩, _, _, cause'⟩
      cases us with
      | nil => rw [cause, cause', moved.unique (.refl _)]
      | cons u us => exact absurd (size_le_left moved) (Nat.not_le.mpr short)
  | case3 c more u rest read _ _ _ _ ih =>
    have first := readUuid_eq_ok_iff.mp read
    rw [readUuids_of_ok more read, Action.outcome_map_eq_error_iff, ih]
    constructor
    · rintro ⟨⟨us, moved⟩, left⟩
      exact ⟨⟨u :: us, first.trans moved⟩, left⟩
    · rintro ⟨⟨us, moved⟩, left⟩
      cases us with
      | nil =>
        have room := first.room
        rw [Uuid.length_bytes, moved.toNat_left, List.flatMap_nil, List.length_nil] at room
        omega
      | cons v us => exact ⟨⟨us, (eq_of_reads_cons first moved).2⟩, left⟩

end BluetoothUuid.Cursor
