import BluetoothUuid.Proofs.Cursor.Runs

/-! How much a cursor grants. Whatever was read, skipped and written before, with or without success,
it moves by a count exactly if that many bytes lie between its position and the end of the block it
was opened over. The count may be any number, also one that would carry the position round. -/
namespace BluetoothUuid

/-- The number of bytes that a block is said to have. -/
def Block.length : Block → Nat
  | .null claimed => claimed
  | .of bytes _ => bytes.length

namespace Cursor
open BluetoothUuid.Action (attempts)

/-- What is done at a cursor. -/
inductive Move where
  | read (shape : Shape)
  | skip (count : Nat)
  | write (item : Item)
  | writeZeros (count : Nat)

def move : Move → Action Cursor Unit
  | .read shape => (fun _ => ()) <$> read shape
  | .skip count => skip count
  | .write item => write item
  | .writeZeros count => writeZeros count

/-- The operation, which takes `count` bytes of a block of that length, is done exactly if the sum
of position and count is within the length. If not, the cause tells what was asked for and what
there is, which is less, and nothing has changed. -/
structure Grants {α : Type} (length count : Nat) (cause : Nat → Nat → Error)
    (act : Action Cursor α) (c : Cursor) : Prop where
  granted_iff : (∃ a d, act.outcome c = (.ok a, d)) ↔ c.position.toNat + count ≤ length
  moved : ∀ a d, act.outcome c = (.ok a, d) → d.position.toNat = c.position.toNat + count
  refused : ∀ e d, act.outcome c = (.error e, d) →
    e = cause count (length - c.position.toNat) ∧ length - c.position.toNat < count ∧ d = c

variable {block : Block} {c d : Cursor} {bs : Bytes} {count : Nat}

theorem length_bytes_readSlice (count : Nat) (c : Cursor) :
    ((readSlice count).outcome c).2.bytes.length = c.bytes.length := by
  cases result : (readSlice count).outcome c with
  | mk answer d =>
    cases answer with
    | ok bs => rw [(readSlice_eq_ok_iff.mp result).2.bytes]
    | error e => rw [(readSlice_eq_error_iff.mp result).2.2]

theorem length_bytes_read (shape : Shape) (c : Cursor) :
    ((read shape).outcome c).2.bytes.length = c.bytes.length := by
  cases result : (read shape).outcome c with
  | mk answer d =>
    cases answer with
    | ok item => rw [(reads_of_read result).2.bytes]
    | error e =>
      by_cases list : ∃ k, shape = .uuids k
      · -- The UUIDs before a trailing part have been read.
        obtain ⟨k, rfl⟩ := list
        have stopped := Action.outcome_map_eq_error_iff.mp result
        obtain ⟨⟨us, moved⟩, _⟩ := readUuids_eq_error_iff.mp stopped
        rw [moved.bytes]
      · rw [atomic_read (fun k same => list ⟨k, same⟩) c d e result]

theorem length_bytes_writeSlice (bs : Bytes) (c : Cursor) :
    ((writeSlice bs).outcome c).2.bytes.length = c.bytes.length := by
  cases result : (writeSlice bs).outcome c with
  | mk answer d =>
    cases answer with
    | ok done => exact (writeSlice_eq_ok_iff.mp result).length_bytes
    | error e => rw [(writeSlice_eq_error_iff.mp result).2.2]

/-- A move may change what is in the block, but not how long it is. -/
theorem length_bytes_move (m : Move) (c : Cursor) :
    ((move m).outcome c).2.bytes.length = c.bytes.length := by
  cases m with
  | read shape =>
    rw [move, Action.outcome_map]
    exact length_bytes_read shape c
  | skip count =>
    rw [move, skip_eq_map_readSlice, Action.outcome_map]
    exact length_bytes_readSlice count c
  | write item =>
    rw [move, write_eq_writeSlice]
    exact length_bytes_writeSlice item.bytes c
  | writeZeros count =>
    rw [move, writeZeros_eq_writeSlice]
    exact length_bytes_writeSlice _ c

theorem length_bytes_attempts (moves : List Move) (c : Cursor) :
    (attempts move moves c).2.bytes.length = c.bytes.length := by
  induction moves generalizing c with
  | nil => rfl
  | cons m rest ih => exact (ih _).trans (length_bytes_move m c)

theorem length_bytes_of_open? (opened : open? block = some c) : c.bytes.length = block.length := by
  cases block with
  | null claimed =>
    cases claimed with
    | zero =>
      cases opened
      rfl
    | succ claimed => contradiction
  | of bytes length_lt =>
    cases opened
    rfl

/-- The room that is left is counted in words of 64 bits, and comes out as if it were not. -/
theorem le_left_iff : count ≤ c.left.toNat ↔ c.position.toNat + count ≤ c.bytes.length := by
  have inside := c.position_le
  rw [toNat_left]
  omega

theorem grants_readSlice (count : Nat) (c : Cursor) :
    Grants c.bytes.length count .endOfInput (readSlice count) c where
  granted_iff := by
    rw [← le_left_iff]
    constructor
    · rintro ⟨bs, d, read⟩
      obtain ⟨rfl, moved⟩ := readSlice_eq_ok_iff.mp read
      exact moved.room
    · intro room
      exact ⟨_, _, dif_pos room⟩
  moved := by
    intro bs d read
    obtain ⟨rfl, moved⟩ := readSlice_eq_ok_iff.mp read
    exact moved.toNat_position
  refused := by
    intro e d failed
    rw [← toNat_left]
    obtain ⟨short, cause, same⟩ := readSlice_eq_error_iff.mp failed
    exact ⟨cause, short, same⟩

theorem Grants.map {α β : Type} {length : Nat} {cause : Nat → Nat → Error} {act : Action Cursor α}
    (grants : Grants length count cause act c) (f : α → β) :
    Grants length count cause (f <$> act) c where
  granted_iff := by
    rw [← grants.granted_iff]
    constructor
    · rintro ⟨b, d, done⟩
      obtain ⟨a, done, _⟩ := Action.outcome_map_eq_ok_iff.mp done
      exact ⟨a, d, done⟩
    · rintro ⟨a, d, done⟩
      exact ⟨f a, d, Action.outcome_map_eq_ok_iff.mpr ⟨a, done, rfl⟩⟩
  moved := by
    intro b d done
    obtain ⟨a, done, _⟩ := Action.outcome_map_eq_ok_iff.mp done
    exact grants.moved a d done
  refused := by
    intro e d failed
    exact grants.refused e d (Action.outcome_map_eq_error_iff.mp failed)

theorem grants_skip (count : Nat) (c : Cursor) :
    Grants c.bytes.length count .endOfInput (skip count) c := by
  rw [skip_eq_map_readSlice]
  exact (grants_readSlice count c).map _

theorem grants_writeSlice (bs : Bytes) (c : Cursor) :
    Grants c.bytes.length bs.length .bufferTooSmall (writeSlice bs) c where
  granted_iff := by
    rw [← le_left_iff]
    constructor
    · rintro ⟨done, d, written⟩
      exact (writeSlice_eq_ok_iff.mp written).room
    · intro room
      obtain ⟨d, written⟩ := writeSlice_of_room room
      exact ⟨(), d, written⟩
  moved := by
    intro done d written
    exact (writeSlice_eq_ok_iff.mp written).toNat_position
  refused := by
    intro e d failed
    rw [← toNat_left]
    obtain ⟨short, cause, same⟩ := writeSlice_eq_error_iff.mp failed
    exact ⟨cause, short, same⟩

theorem grants_writeZeros (count : Nat) (c : Cursor) :
    Grants c.bytes.length count .bufferTooSmall (writeZeros count) c := by
  have zeros := grants_writeSlice (List.replicate count 0) c
  rwa [List.length_replicate, ← writeZeros_eq_writeSlice] at zeros

/-- After every run of moves the position is within the block, what is left is the rest of it, and
each count is granted or refused by that alone. -/
theorem bounds_after_attempts (opened : open? block = some c) (moves : List Move) :
    let d := (attempts move moves c).2
    d.position.toNat ≤ block.length ∧
    d.left.toNat = block.length - d.position.toNat ∧
    (d.atEnd = true ↔ d.left.toNat = 0) ∧
    ∀ count, Grants block.length count .endOfInput (readSlice count) d ∧
      Grants block.length count .endOfInput (skip count) d ∧
      Grants block.length count .bufferTooSmall (writeZeros count) d ∧
      ∀ bs : Bytes, bs.length = count →
        Grants block.length count .bufferTooSmall (writeSlice bs) d := by
  intro d
  have length : d.bytes.length = block.length :=
    (length_bytes_attempts moves c).trans (length_bytes_of_open? opened)
  rw [← length]
  refine ⟨d.position_le, d.toNat_left, d.atEnd_iff, ?_⟩
  intro count
  refine ⟨grants_readSlice count d, grants_skip count d, grants_writeZeros count d, ?_⟩
  rintro bs rfl
  exact grants_writeSlice bs d

/-- A count so large that position and count together are no word of 64 bits any more. -/
theorem bounds_after_attempts_count_round :
    ∃ c d : Cursor, open? (.of [1, 2, 3, 4, 5] (by decide)) = some c ∧
      (attempts move [.read .u16, .skip 9, .write (.u8 7), .read .u32] c).2 = d ∧
      UInt64.size ≤ d.position.toNat + (UInt64.size - 1) ∧
      (¬ ∃ bs e, (readSlice (UInt64.size - 1)).outcome d = (.ok bs, e)) ∧
      ∃ done e, (skip 2).outcome d = (.ok done, e) := by
  have opened : open? (.of [1, 2, 3, 4, 5] (by decide)) =
      some (start [1, 2, 3, 4, 5] (by decide)) := rfl
  obtain ⟨_, _, _, counts⟩ :=
    bounds_after_attempts opened [.read .u16, .skip 9, .write (.u8 7), .read .u32]
  refine ⟨_, _, opened, rfl, by decide, ?_, ?_⟩
  · rw [(counts (UInt64.size - 1)).1.granted_iff]
    decide
  · rw [(counts 2).2.1.granted_iff]
    decide

end Cursor
end BluetoothUuid
