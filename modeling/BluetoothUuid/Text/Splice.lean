import BluetoothUuid.Text

/-! Overwriting a part of a byte string. As many bytes as are put in are taken out, so that what stands
before and behind them stays where it was. -/
namespace BluetoothUuid.Text

/-- The byte string with `patch` in the place of its bytes from the offset on. -/
def splice (offset : Nat) (patch t : Text) : Text :=
  t.take offset ++ patch ++ t.drop (offset + patch.length)

variable {offset : Nat} {patch s : Text}

theorem length_splice (inside : offset + patch.length ≤ s.length) :
    (splice offset patch s).length = s.length := by
  simp only [splice, List.length_append, List.length_take, List.length_drop]
  omega

/-- A part of the beginning is overwritten there, whatever comes behind it. -/
theorem splice_append (inside : offset + patch.length ≤ s.length) (t : Text) :
    splice offset patch (s ++ t) = splice offset patch s ++ t := by
  have before : offset ≤ s.length := Nat.le_of_add_right_le inside
  simp only [splice, List.take_append_of_le_length before, List.drop_append_of_le_length inside,
    List.append_assoc]

end BluetoothUuid.Text
