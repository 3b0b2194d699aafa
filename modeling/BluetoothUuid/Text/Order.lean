import BluetoothUuid.BigEndian
import BluetoothUuid.Hex

/-! The order of byte strings. The first byte in which two differ decides, and a string comes after
its own beginnings. Big-endian numbers of one width are in the order of their bytes, and bytes are in
the order of the hex text that they are written as. -/
namespace BluetoothUuid

namespace Text
variable {s t u v : Text}

/-- What comes first byte by byte comes first in the lexicographic order. -/
theorem compare_eq_lt_iff : compare s t = .lt ↔ s < t := by
  induction s generalizing t with
  | nil => cases t <;> simp
  | cons c s ih =>
    cases t with
    | nil => simp
    | cons d t =>
      simp only [List.compare_cons_cons, Ordering.then_eq_lt, Std.compare_eq_lt,
        Std.LawfulEqCmp.compare_eq_iff_eq, ih, List.cons_lt_cons_iff]

theorem compare_append (length : s.length = t.length) :
    compare (s ++ u) (t ++ v) = (compare s t).then (compare u v) := by
  induction s generalizing t with
  | nil =>
    cases t with
    | nil => simp
    | cons d t => contradiction
  | cons c s ih =>
    cases t with
    | nil => contradiction
    | cons d t =>
      have tails := ih (Nat.succ.inj length)
      simp only [List.cons_append, List.compare_cons_cons, tails, Ordering.then_assoc]

/-- The first bytes decide, and where these are equal the others. -/
theorem compare_split (n : Nat) (length : s.length = t.length) :
    compare s t = (compare (s.take n) (t.take n)).then (compare (s.drop n) (t.drop n)) := by
  have heads : (s.take n).length = (t.take n).length := by
    simp only [List.length_take, length]
  simpa only [List.take_append_drop] using
    compare_append (u := s.drop n) (v := t.drop n) heads

end Text

namespace BigEndian
variable {as bs : Bytes}

/-- The high places decide, and where these are equal the low places. -/
theorem compare_mul_add {capacity high other low rest : Nat} (small : low < capacity)
    (small_rest : rest < capacity) :
    compare (high * capacity + low) (other * capacity + rest) =
      (compare high other).then (compare low rest) := by
  cases places : compare high other with
  | lt =>
    have above := Nat.mul_le_mul_right capacity (Nat.compare_eq_lt.mp places)
    rw [Nat.succ_mul] at above
    exact Nat.compare_eq_lt.mpr (by omega)
  | eq =>
    rw [Nat.compare_eq_eq.mp places, Ordering.eq_then]
    cases ones : compare low rest with
    | lt => exact Nat.compare_eq_lt.mpr (Nat.add_lt_add_left (Nat.compare_eq_lt.mp ones) _)
    | eq => rw [Nat.compare_eq_eq.mp ones, Nat.compare_eq_eq]
    | gt => exact Nat.compare_eq_gt.mpr (Nat.add_lt_add_left (Nat.compare_eq_gt.mp ones) _)
  | gt =>
    have above := Nat.mul_le_mul_right capacity (Nat.compare_eq_gt.mp places)
    rw [Nat.succ_mul] at above
    exact Nat.compare_eq_gt.mpr (by omega)

theorem compare_toNat (a b : UInt8) : compare a.toNat b.toNat = compare a b := by
  simp only [compare, compareOfLessAndEq, UInt8.lt_iff_toNat_lt, ← UInt8.toNat_inj]

/-- Numbers of one width are in the order of their bytes. -/
theorem compare_value (length : as.length = bs.length) :
    compare (value as) (value bs) = compare as bs := by
  induction as generalizing bs with
  | nil =>
    cases bs with
    | nil => rfl
    | cons b bs => contradiction
  | cons a as ih =>
    cases bs with
    | nil => contradiction
    | cons b bs =>
      have tails : as.length = bs.length := Nat.succ.inj length
      have small : value as < capacity bs.length := tails ▸ value_lt as
      simp only [value, tails, compare_mul_add small (value_lt bs), compare_toNat, ih tails,
        List.compare_cons_cons]

end BigEndian

namespace Hex

theorem compare_digit (letters : LetterCase) (m n : Fin 16) :
    compare (digit letters m) (digit letters n) = compare m n := by
  revert m n
  cases letters <;> decide

theorem compare_halves (a b : UInt8) :
    (compare (highHalf a) (highHalf b)).then (compare (lowHalf a) (lowHalf b)) = compare a b := by
  have low (c : UInt8) : c.toNat % 16 < 16 := Nat.mod_lt _ (by decide)
  calc (compare (highHalf a) (highHalf b)).then (compare (lowHalf a) (lowHalf b))
      = (compare (a.toNat / 16) (b.toNat / 16)).then (compare (a.toNat % 16) (b.toNat % 16)) := rfl
    _ = compare (a.toNat / 16 * 16 + a.toNat % 16) (b.toNat / 16 * 16 + b.toNat % 16) :=
        (BigEndian.compare_mul_add (low a) (low b)).symm
    _ = compare a b := by rw [Nat.div_add_mod', Nat.div_add_mod', BigEndian.compare_toNat]

/-- Hex text of either case is in the order of the bytes that it gives. -/
theorem compare_encode (letters : LetterCase) (as bs : Bytes) :
    compare (encode letters as) (encode letters bs) = compare as bs := by
  induction as generalizing bs with
  | nil => cases bs <;> simp
  | cons a as ih =>
    cases bs with
    | nil => simp
    | cons b bs =>
      simp only [encode_cons, List.compare_cons_cons, compare_digit, ih, ← compare_halves a b,
        Ordering.then_assoc]

end Hex
end BluetoothUuid
