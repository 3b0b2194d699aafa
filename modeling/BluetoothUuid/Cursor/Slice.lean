import BluetoothUuid.Action
import BluetoothUuid.Cursor

/-! Reading, skipping and writing a run of bytes. Each is all or nothing: the bytes that are left
are counted before anything is done. -/
namespace BluetoothUuid.Cursor

/-- The cursor `d` is `c` after the bytes were read from it. -/
structure Reads (c : Cursor) (bs : Bytes) (d : Cursor) : Prop where
  ahead : c.ahead = bs ++ d.ahead
  passed : d.passed = c.passed ++ bs

/-- The cursor `d` is `c` after the bytes were written to it. -/
structure Writes (c : Cursor) (bs : Bytes) (d : Cursor) : Prop where
  room : bs.length ≤ c.left.toNat
  passed : d.passed = c.passed ++ bs
  ahead : d.ahead = c.ahead.drop bs.length

def readSlice (count : Nat) : Action Cursor Bytes := fun c =>
  if room : count ≤ c.left.toNat then (.ok (c.ahead.take count), c.advance count room)
  else (.error (.endOfInput count c.left.toNat), c)

def skip (count : Nat) : Action Cursor Unit := fun c =>
  if room : count ≤ c.left.toNat then (.ok (), c.advance count room)
  else (.error (.endOfInput count c.left.toNat), c)

def writeSlice (bs : Bytes) : Action Cursor Unit := fun c =>
  if room : bs.length ≤ c.left.toNat then
    (.ok (), (c.overwrite bs room).advance bs.length (by rwa [toNat_left_overwrite]))
  else (.error (.bufferTooSmall bs.length c.left.toNat), c)

/-- Writes that many zero bytes, which are built only if they fit. -/
def writeZeros (count : Nat) : Action Cursor Unit := do
  let c ← get
  if count ≤ c.left.toNat then writeSlice (List.replicate count 0)
  else throw (.bufferTooSmall count c.left.toNat)

variable {b c d : Cursor} {count : Nat} {as bs : Bytes} {e : Error}

namespace Reads

theorem refl (c : Cursor) : Reads c [] c := ⟨rfl, (List.append_nil _).symm⟩

theorem trans (first : Reads b as c) (second : Reads c bs d) : Reads b (as ++ bs) d where
  ahead := by rw [first.ahead, second.ahead, List.append_assoc]
  passed := by rw [second.passed, first.passed, List.append_assoc]

theorem unique (one : Reads b bs c) (other : Reads b bs d) : c = d :=
  ext_views (one.passed.trans other.passed.symm)
    (List.append_cancel_left (one.ahead.symm.trans other.ahead))

/-- What is read after a first part is the rest. -/
theorem rest (whole : Reads b (as ++ bs) d) (first : Reads b as c) : Reads c bs d where
  ahead := by
    have both := first.ahead.symm.trans whole.ahead
    rw [List.append_assoc] at both
    exact List.append_cancel_left both
  passed := by rw [whole.passed, first.passed, List.append_assoc]

theorem exists_of_ahead (ahead : c.ahead = as ++ bs) : ∃ d, Reads c as d ∧ d.ahead = bs := by
  have room : as.length ≤ c.left.toNat := by
    rw [← length_ahead, ahead, List.length_append]
    omega
  have rest : (c.advance as.length room).ahead = bs := by
    rw [ahead_advance, ahead, List.drop_left]
  refine ⟨c.advance as.length room, ⟨by rw [rest, ahead], ?_⟩, rest⟩
  rw [passed_advance, ahead, List.take_left]

/-- What is read at once can be read in two steps. -/
theorem split (whole : Reads b (as ++ bs) d) : ∃ c, Reads b as c ∧ Reads c bs d := by
  obtain ⟨c, first, _⟩ := exists_of_ahead (whole.ahead.trans (List.append_assoc ..))
  exact ⟨c, first, whole.rest first⟩

theorem room (read : Reads c bs d) : bs.length ≤ c.left.toNat := by
  rw [← length_ahead, read.ahead, List.length_append]
  omega

theorem toNat_left (read : Reads c bs d) : c.left.toNat = bs.length + d.left.toNat := by
  rw [← length_ahead, ← length_ahead, read.ahead, List.length_append]

theorem toNat_position (read : Reads c bs d) :
    d.position.toNat = c.position.toNat + bs.length := by
  rw [← length_passed, ← length_passed, read.passed, List.length_append]

theorem bytes (read : Reads c bs d) : d.bytes = c.bytes := by
  rw [← passed_append_ahead c, ← passed_append_ahead d, read.passed, read.ahead, List.append_assoc]

end Reads

namespace Writes

theorem refl (c : Cursor) : Writes c [] c := ⟨Nat.zero_le _, (List.append_nil _).symm, rfl⟩

theorem toNat_left (written : Writes c bs d) : c.left.toNat = bs.length + d.left.toNat := by
  have room := written.room
  rw [← length_ahead d, written.ahead, List.length_drop, length_ahead]
  omega

theorem trans (first : Writes b as c) (second : Writes c bs d) : Writes b (as ++ bs) d where
  room := by
    have left := first.toNat_left
    have room := second.room
    rw [List.length_append]
    omega
  passed := by rw [second.passed, first.passed, List.append_assoc]
  ahead := by rw [second.ahead, first.ahead, List.drop_drop, List.length_append]

theorem unique (one : Writes b bs c) (other : Writes b bs d) : c = d :=
  ext_views (one.passed.trans other.passed.symm) (one.ahead.trans other.ahead.symm)

theorem toNat_position (written : Writes c bs d) :
    d.position.toNat = c.position.toNat + bs.length := by
  rw [← length_passed, ← length_passed, written.passed, List.length_append]

theorem length_bytes (written : Writes c bs d) : d.bytes.length = c.bytes.length := by
  have left := written.toNat_left
  rw [← passed_append_ahead c, ← passed_append_ahead d, List.length_append, List.length_append,
    length_ahead, length_ahead, left, written.passed, List.length_append, Nat.add_assoc]

end Writes

theorem readSlice_eq_ok_iff :
    (readSlice count).outcome c = (.ok bs, d) ↔ bs.length = count ∧ Reads c bs d := by
  by_cases room : count ≤ c.left.toNat
  · have taken : (readSlice count).outcome c = (.ok (c.ahead.take count), c.advance count room) :=
      dif_pos room
    have read : Reads c (c.ahead.take count) (c.advance count room) :=
      ⟨by rw [ahead_advance, List.take_append_drop], passed_advance room⟩
    have length : (c.ahead.take count).length = count := by
      rw [List.length_take, length_ahead, Nat.min_eq_left room]
    rw [taken]
    constructor
    · rintro ⟨⟩
      exact ⟨length, read⟩
    · rintro ⟨rfl, other⟩
      have same : c.ahead.take bs.length = bs := by rw [other.ahead, List.take_left]
      have still : c.advance bs.length room = d := by
        apply ext_views
        · rw [read.passed, other.passed, same]
        · rw [ahead_advance, other.ahead, List.drop_left]
      rw [same, still]
  · have failed : (readSlice count).outcome c = (.error (.endOfInput count c.left.toNat), c) :=
      dif_neg room
    rw [failed]
    constructor
    · rintro ⟨⟩
    · rintro ⟨rfl, read⟩
      exact absurd read.room room

theorem readSlice_eq_error_iff :
    (readSlice count).outcome c = (.error e, d) ↔
      c.left.toNat < count ∧ e = .endOfInput count c.left.toNat ∧ d = c := by
  by_cases room : count ≤ c.left.toNat
  · have taken : (readSlice count).outcome c = (.ok (c.ahead.take count), c.advance count room) :=
      dif_pos room
    simp [taken, Nat.not_lt.mpr room]
  · have failed : (readSlice count).outcome c = (.error (.endOfInput count c.left.toNat), c) :=
      dif_neg room
    simp [failed, Nat.lt_of_not_le room, eq_comm]

theorem skip_eq_map_readSlice (count : Nat) : skip count = (fun _ => ()) <$> readSlice count := by
  apply Action.ext
  intro c
  rw [Action.outcome_map]
  by_cases room : count ≤ c.left.toNat <;>
    simp [Action.outcome, ExceptT.run, StateT.run, skip, readSlice, room, Except.map]

private theorem writes_overwrite (room : bs.length ≤ c.left.toNat)
    (still : bs.length ≤ (c.overwrite bs room).left.toNat) :
    Writes c bs ((c.overwrite bs room).advance bs.length still) where
  room := room
  passed := by rw [passed_advance, passed_overwrite, ahead_overwrite, List.take_left]
  ahead := by rw [ahead_advance, ahead_overwrite, List.drop_left]

theorem writeSlice_eq_ok_iff : (writeSlice bs).outcome c = (.ok (), d) ↔ Writes c bs d := by
  by_cases room : bs.length ≤ c.left.toNat
  · have placed : (writeSlice bs).outcome c = _ := dif_pos room
    rw [placed]
    constructor
    · rintro ⟨⟩
      exact writes_overwrite room _
    · intro written
      rw [(writes_overwrite room _).unique written]
  · have failed : (writeSlice bs).outcome c = _ := dif_neg room
    rw [failed]
    constructor
    · rintro ⟨⟩
    · intro written
      exact absurd written.room room

theorem writeSlice_eq_error_iff :
    (writeSlice bs).outcome c = (.error e, d) ↔
      c.left.toNat < bs.length ∧ e = .bufferTooSmall bs.length c.left.toNat ∧ d = c := by
  by_cases room : bs.length ≤ c.left.toNat
  · have placed : (writeSlice bs).outcome c = _ := dif_pos room
    simp [placed, Nat.not_lt.mpr room]
  · have failed : (writeSlice bs).outcome c = _ := dif_neg room
    simp [failed, Nat.lt_of_not_le room, eq_comm]

theorem writeSlice_of_room (room : bs.length ≤ c.left.toNat) :
    ∃ d, (writeSlice bs).outcome c = (.ok (), d) := ⟨_, dif_pos room⟩

theorem writeZeros_eq_writeSlice (count : Nat) :
    writeZeros count = writeSlice (List.replicate count 0) := by
  apply Action.ext
  intro c
  rw [writeZeros, Action.outcome_bind]
  by_cases room : count ≤ c.left.toNat
  · simp [room]
  · simp [room, Nat.lt_of_not_le room, eq_comm, writeSlice_eq_error_iff]

end BluetoothUuid.Cursor
