import BluetoothUuid.Text.Order
import BluetoothUuid.Uuid.Base
import BluetoothUuid.Uuid.Order
import BluetoothUuid.Uuid.Text.Parse

/-! UUIDs of one kind have one order. Their numbers, their wire forms and their texts in any format
all give it, although full UUIDs are compared field by field, and widening keeps it. -/
namespace BluetoothUuid.Uuid
open BluetoothUuid.Text (compare_append compare_split compare_eq_lt_iff)

variable {k : Kind} {a b c : Uuid k} {digits others : Text}

theorem compare_value_bytes (a b : Uuid k) :
    Ord.compare a.value.toNat b.value.toNat = Ord.compare a.bytes b.bytes := by
  have length : a.bytes.length = b.bytes.length := by simp only [length_bytes]
  simpa only [value_bytes] using BigEndian.compare_value length

/-- The fields lie in the wire form in the order in which they are compared. -/
theorem compare_fields (a b : Uuid .bits128) :
    a.fields.compare b.fields = Ord.compare a.bytes b.bytes := by
  have whole : a.bytes.length = b.bytes.length := by simp only [length_bytes]
  have rest (n : Nat) : (a.bytes.drop n).length = (b.bytes.drop n).length := by
    simp only [List.length_drop, whole]
  have number (n m : Nat) :
      Ord.compare (BigEndian.value ((a.bytes.drop n).take m))
        (BigEndian.value ((b.bytes.drop n).take m)) =
      Ord.compare ((a.bytes.drop n).take m) ((b.bytes.drop n).take m) := by
    apply BigEndian.compare_value
    simp only [List.length_take, rest n]
  have first := number 0 4
  simp only [List.drop_zero] at first
  simp only [Fields.compare, fields, first, number, compare_split 4 whole, compare_split 2 (rest 4),
    compare_split 2 (rest 6), compare_split 2 (rest 8), List.drop_drop, Nat.reduceAdd]

theorem compare_bytes (a b : Uuid k) : Ord.compare a.bytes b.bytes = compare a b := by
  cases k with
  | bits16 | bits32 => exact (compare_value_bytes a b).symm
  | bits128 => exact (compare_fields a b).symm

theorem compare_value (a b : Uuid k) : Ord.compare a.value.toNat b.value.toNat = compare a b :=
  (compare_value_bytes a b).trans (compare_bytes a b)

/-- Hyphens stand in the same places, so that they decide nothing. -/
theorem compare_hyphenate (ns : List Nat) (length : digits.length = others.length) :
    Ord.compare (hyphenate ns digits) (hyphenate ns others) = Ord.compare digits others := by
  induction ns generalizing digits others with
  | nil => rfl
  | cons n ns ih =>
    have group : (digits.take n).length = (others.take n).length := by
      simp only [List.length_take, length]
    have later : (digits.drop n).length = (others.drop n).length := by
      simp only [List.length_drop, length]
    simp only [hyphenate, compare_append group, List.compare_cons_cons, ih later,
      compare_split n length, Std.ReflCmp.compare_self, Ordering.eq_then]

theorem compare_text (f : Format) (a b : Uuid k) :
    Ord.compare (a.text f) (b.text f) = compare a b := by
  have length : (Hex.encode f.letters a.bytes).length = (Hex.encode f.letters b.bytes).length := by
    simp only [Hex.length_encode, length_bytes]
  rw [text, text]
  split
  · rw [compare_hyphenate groups length, Hex.compare_encode, compare_bytes]
  · rw [Hex.compare_encode, compare_bytes]

theorem compare_eq_eq_iff : compare a b = .eq ↔ a = b := by
  cases a
  cases b
  rw [← compare_value, Nat.compare_eq_eq, BitVec.toNat_inj, mk.injEq]

theorem lt_iff_compare : a < b ↔ compare a b = .lt := Iff.rfl

theorem lt_iff_toNat_lt : a < b ↔ a.value.toNat < b.value.toNat := by
  rw [lt_iff_compare, ← compare_value, Nat.compare_eq_lt]

theorem lt_iff_bytes_lt : a < b ↔ a.bytes < b.bytes := by
  rw [lt_iff_compare, ← compare_bytes, compare_eq_lt_iff]

theorem lt_iff_text_lt (f : Format) : a < b ↔ a.text f < b.text f := by
  rw [lt_iff_compare, ← compare_text f, compare_eq_lt_iff]

theorem lt_irrefl (a : Uuid k) : ¬ a < a := by
  rw [lt_iff_toNat_lt]
  exact Nat.lt_irrefl _

theorem lt_trans (first : a < b) (second : b < c) : a < c := by
  rw [lt_iff_toNat_lt] at *
  exact Nat.lt_trans first second

theorem compare_eq_gt_iff : compare a b = .gt ↔ b < a := by
  rw [← compare_value, Nat.compare_eq_gt, lt_iff_toNat_lt]

theorem eq_of_not_lt (notLess : ¬ a < b) (notGreater : ¬ b < a) : a = b := by
  cases order : compare a b with
  | lt => exact absurd order notLess
  | eq => exact compare_eq_eq_iff.mp order
  | gt => exact absurd (compare_eq_gt_iff.mp order) notGreater

theorem toFull_lt_toFull_iff (shortened : k ≠ .bits128) : a.toFull < b.toFull ↔ a < b := by
  simp only [lt_iff_toNat_lt, toNat_value_toFull _ shortened, Nat.add_lt_add_iff_right,
    Nat.mul_lt_mul_right (BigEndian.capacity_pos 12)]

theorem widen32_lt_widen32_iff {a b : Uuid .bits16} : a.widen32 < b.widen32 ↔ a < b := by
  simp only [lt_iff_toNat_lt, toNat_value_widen32]

/-- The UUIDs of a kind are in one strict linear order, which is the lexicographic one of their wire
forms and of their texts, whatever the format. A shortened UUID is widened into the same place. -/
theorem lt_in_all_forms :
    (∀ (k : Kind) (a b : Uuid k),
      ((a < b ∨ a = b ∨ b < a) ∧ ¬ (a < b ∧ a = b) ∧ ¬ (a < b ∧ b < a) ∧ ¬ (a = b ∧ b < a)) ∧
      (compare a b = .eq ↔ a = b) ∧
      (∀ c : Uuid k, a < b → b < c → a < c) ∧
      (a < b ↔ a.bytes < b.bytes) ∧
      ∀ f : Format, a < b ↔ a.text f < b.text f) ∧
    (∀ a b : Uuid .bits16, (a < b ↔ a.widen32 < b.widen32) ∧ (a < b ↔ a.toFull < b.toFull)) ∧
    ∀ a b : Uuid .bits32, a < b ↔ a.toFull < b.toFull := by
  refine ⟨?_, ?_, ?_⟩
  · intro k a b
    refine ⟨?_, compare_eq_eq_iff, ?_, lt_iff_bytes_lt, lt_iff_text_lt⟩
    · have same : a = b ↔ a.value.toNat = b.value.toNat := by
        rw [← compare_eq_eq_iff, ← compare_value, Nat.compare_eq_eq]
      simp only [lt_iff_toNat_lt, same]
      omega
    · intro c
      simp only [lt_iff_toNat_lt]
      exact Nat.lt_trans
  · intro a b
    exact ⟨widen32_lt_widen32_iff.symm, (toFull_lt_toFull_iff (by decide)).symm⟩
  · intro a b
    exact (toFull_lt_toFull_iff (by decide)).symm

/-- A number that begins with a high bit is the larger one, and an earlier field outweighs all that
come after it. -/
theorem lt_in_all_forms_high_bits :
    (⟨0x00000000_0000_1000_7FFF_FFFFFFFFFFFF⟩ : Uuid .bits128) < base ∧
    base < ⟨0x80000000_0000_0000_0000_000000000000⟩ ∧
    (⟨0x00000000_0000_1000_7FFF_FFFFFFFFFFFF⟩ : Uuid .bits128) <
      ⟨0x80000000_0000_0000_0000_000000000000⟩ ∧
    base.text .lower < (⟨0x80000000_0000_0000_0000_000000000000⟩ : Uuid .bits128).text .lower := by
  have below : (⟨0x00000000_0000_1000_7FFF_FFFFFFFFFFFF⟩ : Uuid .bits128) < base := by decide
  have above : base < ⟨0x80000000_0000_0000_0000_000000000000⟩ := by decide
  obtain ⟨_, _, transitive, _⟩ := lt_in_all_forms.1 .bits128 _ _
  obtain ⟨_, _, _, _, texts⟩ := lt_in_all_forms.1 .bits128 base _
  exact ⟨below, above, transitive _ below above, (texts .lower).mp above⟩

end BluetoothUuid.Uuid
