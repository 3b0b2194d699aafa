import BluetoothUuid.Hex.Separated
import BluetoothUuid.Uuid.Text.Parse

/-! Which byte stands where in the text of a UUID. Hyphens stand between the groups and nowhere else,
all other bytes are digits of the asked case, and the digits are those of the wire form. -/
namespace BluetoothUuid

namespace Uuid
variable {k : Kind} {letters : LetterCase} {ns : List Nat} {i : Nat} {c : UInt8} {digits : Text}

/-- Where the hyphens stand: each behind its group. -/
def offsets : List Nat → List Nat
  | [] => []
  | n :: ns => n :: (offsets ns).map (n + · + 1)

/-- In digits with hyphens put in, the hyphens are the ones that were put in. -/
theorem getElem?_hyphenate_iff (bare : hyphen ∉ digits)
    (enough : ns.foldr (· + ·) 0 ≤ digits.length) :
    (hyphenate ns digits)[i]? = some hyphen ↔ i ∈ offsets ns := by
  induction ns generalizing digits i with
  | nil => simpa [hyphenate, offsets] using fun found => bare (List.mem_of_getElem? found)
  | cons n ns ih =>
    rw [List.foldr_cons] at enough
    have group : (digits.take n).length = n := by
      rw [List.length_take]
      omega
    have later : ns.foldr (· + ·) 0 ≤ (digits.drop n).length := by
      rw [List.length_drop]
      omega
    rw [hyphenate, offsets, List.mem_cons, List.mem_map]
    rcases Nat.lt_trichotomy i n with before | rfl | behind
    · have absent : (digits.take n)[i]? ≠ some hyphen :=
        fun found => bare (List.mem_of_mem_take (List.mem_of_getElem? found))
      rw [List.getElem?_append_left (by omega)]
      constructor
      · intro found
        exact absurd found absent
      · rintro (rfl | ⟨j, _, rfl⟩) <;> omega
    · simp [group]
    · obtain ⟨j, rfl⟩ := Nat.exists_eq_add_of_lt behind
      have inside : (digits.take n ++ hyphen :: hyphenate ns (digits.drop n))[n + j + 1]? =
          (hyphenate ns (digits.drop n))[j]? := by
        rw [List.getElem?_append_right (by omega), group,
          show n + j + 1 - n = j + 1 by omega, List.getElem?_cons_succ]
      rw [inside, ih (fun member => bare (List.mem_of_mem_drop member)) later]
      constructor
      · intro member
        exact .inr ⟨j, member, rfl⟩
      · rintro (same | ⟨other, member, same⟩)
        · omega
        · obtain rfl : other = j := by omega
          exact member

theorem filter_of_bare (bare : hyphen ∉ digits) : digits.filter (· != hyphen) = digits := by
  rw [List.filter_eq_self]
  rintro c member
  rw [bne_iff_ne]
  rintro rfl
  exact bare member

/-- Taking all hyphens out leaves the digits. -/
theorem filter_hyphenate (bare : hyphen ∉ digits) :
    (hyphenate ns digits).filter (· != hyphen) = digits := by
  induction ns generalizing digits with
  | nil => exact filter_of_bare bare
  | cons n ns ih =>
    have group := filter_of_bare fun member => bare (List.mem_of_mem_take (i := n) member)
    have later := ih fun member => bare (List.mem_of_mem_drop (i := n) member)
    rw [hyphenate, List.filter_append, group, List.filter_cons_of_neg (by simp), later,
      List.take_append_drop]

/-- Groups of whole pairs stay readable when they are separated. -/
theorem separated_hyphenate (letters : LetterCase) (pairs : List Nat) (bs : Bytes) :
    Hex.Separated (hyphenate (pairs.map (2 * ·)) (Hex.encode letters bs)) bs := by
  induction pairs generalizing bs with
  | nil => exact Hex.separated_encode letters bs
  | cons n pairs ih =>
    have skipped : Hex.isSeparator hyphen = true := by decide
    have group := Hex.separated_encode letters (bs.take n)
    have whole := group.append (.separator skipped (ih (bs.drop n)))
    simpa only [List.map_cons, hyphenate, Hex.take_encode, Hex.drop_encode,
      List.take_append_drop] using whole

theorem separated_text (f : Format) (u : Uuid k) : Hex.Separated (u.text f) u.bytes := by
  rw [text]
  split
  · exact separated_hyphenate f.letters [4, 2, 2, 2] u.bytes
  · exact Hex.separated_encode f.letters u.bytes

/-- Whatever the format, the text is hex text of the wire form. -/
theorem decode_text (f : Format) (u : Uuid k) : Hex.decode (u.text f) = .ok u.bytes :=
  Hex.decode_of_separated (separated_text f u)

theorem hyphen_not_mem_encode {bs : Bytes} : hyphen ∉ Hex.encode letters bs := by
  intro member
  have digit := Hex.mem_digits_of_mem_encode member
  revert digit
  cases letters <;> decide

/-- The number of bytes of the text, by kind and whether it may have hyphens. -/
def textLength : Kind → Bool → Nat
  | .bits16, _ => 4
  | .bits32, _ => 8
  | .bits128, false => 32
  | .bits128, true => 36

theorem length_text (f : Format) (u : Uuid k) :
    (u.text f).length = textLength k f.hyphens := by
  have digits : (Hex.encode f.letters u.bytes).length = 2 * k.size := by
    rw [Hex.length_encode, length_bytes]
  obtain ⟨letters, hyphens⟩ := f
  cases k with
  | bits16 | bits32 => exact digits
  | bits128 =>
    cases hyphens with
    | false => exact digits
    | true => exact length_text_full letters u

/-- In a full UUID with hyphens these are behind the digits of its fields. Nothing else but digits
of the asked case is in a text. -/
theorem getElem?_text {f : Format} {u : Uuid k} (found : (u.text f)[i]? = some c) :
    if k = .bits128 ∧ f.hyphens ∧ i ∈ [8, 13, 18, 23] then c = hyphen
    else c ∈ f.letters.digits := by
  have member := List.mem_of_getElem? found
  by_cases hyphenated : k = .bits128 ∧ f.hyphens
  · obtain ⟨rfl, hyphens⟩ := hyphenated
    have enough := groups_le_length_encode f.letters u
    rw [text, if_pos ⟨rfl, hyphens⟩] at found member
    have places : c = hyphen ↔ i ∈ offsets groups := by
      rw [← getElem?_hyphenate_iff hyphen_not_mem_encode enough, found, Option.some.injEq]
    split
    · next place => exact places.mpr place.2.2
    · next other =>
      have plain : c ≠ hyphen := fun same => other ⟨rfl, hyphens, places.mp same⟩
      exact Hex.mem_digits_of_mem_encode ((mem_hyphenate member).resolve_right plain)
  · rw [text, if_neg hyphenated] at member
    rw [if_neg fun place => hyphenated ⟨place.1, place.2.1⟩]
    exact Hex.mem_digits_of_mem_encode member

theorem text_compact (letters : LetterCase) (u : Uuid k) :
    u.text (.compact letters) = Hex.encode letters u.bytes := by
  simp [text, Format.compact]

/-- The hyphens are all that the formats with and without them differ in. -/
theorem filter_text (letters : LetterCase) (u : Uuid k) :
    (u.text ⟨letters, true⟩).filter (· != hyphen) = u.text (.compact letters) := by
  rw [text_compact, text]
  split
  · exact filter_hyphenate hyphen_not_mem_encode
  · exact filter_of_bare hyphen_not_mem_encode

theorem inCase_text (letters other : LetterCase) (hyphens : Bool) (u : Uuid k) :
    Text.inCase letters (u.text ⟨other, hyphens⟩) = u.text ⟨letters, hyphens⟩ := by
  rw [text, text]
  split
  · rw [inCase_hyphenate, Hex.inCase_encode]
  · exact Hex.inCase_encode letters other u.bytes

end Uuid
end BluetoothUuid
