import BluetoothUuid.Session

/-! A UUID at a cursor whose kind is told by the length of its wire form. The length is looked at first,
so that one which no kind has is refused whatever lies ahead, and then a UUID of that kind is read. -/
namespace BluetoothUuid

namespace Cursor
variable {n : Nat}

/-- Reads a UUID of the kind that has the length. -/
def readUuidOfLength (n : Nat) : Action Cursor SomeUuid := do
  let k ← Kind.ofLength n
  let u ← readUuid k
  return ⟨k, u⟩

theorem readUuidOfLength_size (k : Kind) :
    readUuidOfLength k.size = SomeUuid.mk k <$> readUuid k := by
  have kind : Kind.ofLength k.size = .ok k := Kind.ofLength_eq_ok_iff.mpr rfl
  apply Action.ext
  intro c
  rw [readUuidOfLength, kind, Action.outcome_bind, Action.outcome_lift]
  exact congrArg (Action.outcome · c) (map_eq_pure_bind _ _).symm

theorem readUuidOfLength_of_other (other : n ≠ 2 ∧ n ≠ 4 ∧ n ≠ 16) :
    readUuidOfLength n = throw (.noKindOfLength n) := by
  have kind : Kind.ofLength n = .error (.noKindOfLength n) :=
    Kind.ofLength_eq_error_iff.mpr ⟨other, rfl⟩
  apply Action.ext
  intro c
  rw [readUuidOfLength, kind, Action.outcome_bind, Action.outcome_lift, Action.outcome_throw]

end Cursor

namespace Session

/-- A session that decodes by length looks at the length before it turns to its reader. That is no
other than reading by length there. -/
theorem perform_decode_length (n : Nat) (slot : Option String) :
    perform (.decode (.length n) slot) = do
      let u ← reading (Cursor.readUuidOfLength n)
      store slot u
      return .uuid u := by
  rw [perform, KindChoice.resolve]
  cases told : Kind.ofLength n with
  | error e =>
    obtain ⟨other, rfl⟩ := Kind.ofLength_eq_error_iff.mp told
    rw [Cursor.readUuidOfLength_of_other other]
    rfl
  | ok k =>
    obtain rfl := Kind.ofLength_eq_ok_iff.mp told
    have read : reading (SomeUuid.mk k <$> Cursor.readUuid k) =
        SomeUuid.mk k <$> reading (Cursor.readUuid k) := by
      apply Action.ext
      intro s
      simp only [reading, Action.outcome_onPart, Action.outcome_map]
    rw [Cursor.readUuidOfLength_size, read, bind_map_left]
    rfl

end Session
end BluetoothUuid
