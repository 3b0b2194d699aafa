import BluetoothUuid.Text.Splice
import BluetoothUuid.Uuid.Base.InPlace
import BluetoothUuid.Uuid.Text.Layout

/-! Widening puts a shortened UUID into the Base UUID. In the wire form its bytes come to stand before
the tail of the base, and in the text, whatever the format, its digits do so. The first group of digits
has all of them, so that no hyphen is in the way. -/
namespace BluetoothUuid
open BluetoothUuid.Text (splice splice_append length_splice)

theorem Hex.encode_splice (letters : LetterCase) (n : Nat) (bs block : Bytes) :
    encode letters (splice n bs block) =
      splice (2 * n) (encode letters bs) (encode letters block) := by
  have behind : 2 * n + (encode letters bs).length = 2 * (n + bs.length) := by
    rw [length_encode, Nat.mul_add]
  simp only [splice, behind, take_encode, drop_encode]
  simp only [encode, List.flatMap_append]

namespace Uuid
variable {k : Kind} {n offset : Nat} {ns : List Nat} {patch digits rest : Text}

theorem hyphenate_append (group : digits.length = n) :
    hyphenate (n :: ns) (digits ++ rest) = digits ++ hyphen :: hyphenate ns rest := by
  rw [hyphenate, List.take_left' group, List.drop_left' group]

/-- What is overwritten within the first group stays there when hyphens are put in. -/
theorem hyphenate_splice (inside : offset + patch.length ≤ n) (enough : n ≤ digits.length) :
    hyphenate (n :: ns) (splice offset patch digits) =
      splice offset patch (hyphenate (n :: ns) digits) := by
  have group : (digits.take n).length = n := List.length_take_of_le enough
  have within : offset + patch.length ≤ (digits.take n).length := group.symm ▸ inside
  have spliced : (splice offset patch (digits.take n)).length = n :=
    (length_splice within).trans group
  calc hyphenate (n :: ns) (splice offset patch digits)
      = hyphenate (n :: ns) (splice offset patch (digits.take n ++ digits.drop n)) := by
        rw [List.take_append_drop]
    _ = splice offset patch (digits.take n) ++ hyphen :: hyphenate ns (digits.drop n) := by
        rw [splice_append within, hyphenate_append spliced]
    _ = splice offset patch (hyphenate (n :: ns) digits) := by
        rw [hyphenate, splice_append within]

/-- Bytes among the first four are digits in the first group. -/
theorem text_splice {bs : Bytes} {u v : Uuid .bits128} (inside : n + bs.length ≤ 4)
    (spliced : u.bytes = splice n bs v.bytes) (f : Format) :
    u.text f = splice (2 * n) (Hex.encode f.letters bs) (v.text f) := by
  have digits : Hex.encode f.letters u.bytes =
      splice (2 * n) (Hex.encode f.letters bs) (Hex.encode f.letters v.bytes) := by
    rw [spliced, Hex.encode_splice]
  have group : 2 * n + (Hex.encode f.letters bs).length ≤ 8 := by
    rw [Hex.length_encode]
    omega
  have enough : 8 ≤ (Hex.encode f.letters v.bytes).length := by
    rw [Hex.length_encode, length_bytes]
    decide
  rw [text, text, digits]
  split
  · exact hyphenate_splice group enough
  · rfl

theorem bytes_toFull_of_bits32 (v : Uuid .bits32) :
    v.toFull.bytes = splice 0 v.bytes base.bytes := by
  rw [bytes_toFull v (by decide), splice, v.length_bytes]
  rfl

theorem bytes_toFull_of_bits16 (w : Uuid .bits16) :
    w.toFull.bytes = splice 2 w.bytes base.bytes := by
  have padded : BigEndian.bytes 4 w.value.toNat = base.bytes.take 2 ++ w.bytes := by
    have zeros := BigEndian.bytes_append 2 2 0 w.value.toNat w.toNat_value_lt
    rw [Nat.zero_mul, Nat.zero_add] at zeros
    exact zeros
  rw [bytes_toFull w (by decide), padded, splice, w.length_bytes]
  rfl

/-- The digits of a shortened UUID come to stand where its bytes do. -/
theorem text_toFull {u : Uuid k} (shortened : k ≠ .bits128) (inside : n + k.size ≤ 4)
    (spliced : u.toFull.bytes = splice n u.bytes base.bytes) (f : Format) :
    u.toFull.text f = splice (2 * n) (u.text f) (base.text f) := by
  rw [← u.length_bytes] at inside
  rw [text_splice inside spliced f, text_of_shortened (v := u) shortened]

/-- Something of the base is left in every full form, and it is not zero. -/
theorem isZero_toFull (u : Uuid k) (shortened : k ≠ .bits128) : u.toFull.isZero = false := by
  have tail : 0 < base.value.toNat := by decide
  have positive : 0 < u.toFull.value.toNat := by
    rw [toNat_value_toFull u shortened]
    exact Nat.add_pos_right _ tail
  rw [Bool.eq_false_iff, ne_eq, isZero_iff]
  intro nothing
  rw [nothing] at positive
  contradiction

/-- The full form of a shortened UUID is the Base UUID with the bytes of the shortened one, and its
text is that of the base with the digits of the shortened one. It is never zero. Writing the bytes and
the digits in place gives it without fail. -/
theorem toFull_splices_base :
    (∀ v : Uuid .bits32,
      v.widenInPlace = .ok v.toFull ∧
      v.toFull.bytes.take 4 = v.bytes ∧
      v.toFull.bytes.drop 4 = base.bytes.drop 4 ∧
      (∀ f, v.toFull.text f = splice 0 (v.text f) (base.text f) ∧ (v.text f).length = 8) ∧
      v.toFull.isZero = false) ∧
    (∀ w : Uuid .bits16,
      w.toFull = w.widen32.toFull ∧
      w.widen32.widenInPlace = .ok w.toFull ∧
      w.toFull.bytes = 0 :: 0 :: w.bytes ++ base.bytes.drop 4 ∧
      (∀ f, w.toFull.text f = splice 4 (w.text f) (base.text f) ∧ (w.text f).length = 4) ∧
      w.toFull.isZero = false) ∧
    ∀ (k : Kind) (u : Uuid k) (f : Format) (block : Bytes) (fits : block.length < UInt64.size),
      k ≠ .bits128 → block.length = k.size → textInPlace f block fits u = .ok (u.text f) := by
  refine ⟨?_, ?_, ?_⟩
  · intro v
    have bytes := bytes_toFull_of_bits32 v
    have length : v.bytes.length = 4 := v.length_bytes
    refine ⟨widenInPlace_eq_ok v, ?_, ?_, ?_, isZero_toFull v (by decide)⟩
    · rw [bytes, splice, List.take_zero, List.nil_append, List.take_left' length]
    · rw [bytes, splice, List.take_zero, List.nil_append, List.drop_left' length, length]
    · intro f
      exact ⟨text_toFull (n := 0) (by decide) (by decide) bytes f, length_text f v⟩
  · intro w
    have bytes := bytes_toFull_of_bits16 w
    refine ⟨(toFull_widen32 w).symm, ?_, ?_, ?_, isZero_toFull w (by decide)⟩
    · rw [← toFull_widen32 w]
      exact widenInPlace_eq_ok w.widen32
    · rw [bytes, splice, w.length_bytes]
      rfl
    · intro f
      exact ⟨text_toFull (n := 2) (by decide) (by decide) bytes f, length_text f w⟩
  · intro k u f block fits shortened length
    exact textInPlace_eq_ok shortened length fits

/-- The service of a heart rate monitor. What stood in the block before does not show. -/
theorem toFull_splices_base_heart_rate :
    (⟨0x180D⟩ : Uuid .bits16).toFull.text .canonical =
      Text.ofString "0000180D-0000-1000-8000-00805F9B34FB" ∧
    textInPlace .lower [0xEE, 0xEE] (by decide) (⟨0x180D⟩ : Uuid .bits16) =
      .ok (Text.ofString "180d") := by
  obtain ⟨_, short, inPlace⟩ := toFull_splices_base
  obtain ⟨_, _, _, texts, _⟩ := short ⟨0x180D⟩
  have digits : (⟨0x180D⟩ : Uuid .bits16).text .lower = Text.ofString "180d" := by decide +kernel
  constructor
  · exact (texts .canonical).1.trans (by decide +kernel)
  · rw [← digits]
    exact inPlace .bits16 ⟨0x180D⟩ .lower [0xEE, 0xEE] (by decide) (by decide) rfl

end Uuid
end BluetoothUuid
