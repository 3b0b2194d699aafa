import BluetoothUuid.Hex.Digits
import BluetoothUuid.Uuid.Text

/-! Full UUIDs are read from exactly the texts that they are written as, with letters of either case
and with blanks around them. -/
namespace BluetoothUuid.Uuid
open BluetoothUuid.Text (inCase trim blanks)

variable {k : Kind} {letters : LetterCase} {c : UInt8} {ns : List Nat} {t digits : Text}
  {u : Uuid .bits128} {e : Error}

theorem apply_eq_hyphen_iff : letters.apply c = hyphen ↔ c = hyphen := by
  revert c
  apply Text.forall_byte
  cases letters <;> decide +kernel

@[simp] theorem inCase_hyphenate (ns : List Nat) (digits : Text) :
    inCase letters (hyphenate ns digits) = hyphenate ns (inCase letters digits) := by
  induction ns generalizing digits with
  | nil => rfl
  | cons n ns ih =>
    have hyphen_kept : letters.apply hyphen = hyphen := apply_eq_hyphen_iff.mpr rfl
    rw [hyphenate, hyphenate, Text.inCase_append, Text.inCase_cons, ih, hyphen_kept]
    simp only [inCase, List.map_take, List.map_drop]

theorem unhyphenate?_cons_eq_some_iff {n : Nat} :
    unhyphenate? (n :: ns) t = some digits ↔
      ∃ rest others, t.drop n = hyphen :: rest ∧ unhyphenate? ns rest = some others ∧
        t.take n ++ others = digits := by
  rw [unhyphenate?]
  cases t.drop n with
  | nil => simp
  | cons c rest =>
    by_cases separated : c = hyphen <;> simp [separated]

theorem unhyphenate?_inCase (read : unhyphenate? ns (inCase letters t) = some digits) :
    ∃ others, unhyphenate? ns t = some others ∧ inCase letters others = digits := by
  induction ns generalizing t digits with
  | nil => exact ⟨t, rfl, Option.some.inj read⟩
  | cons n ns ih =>
    obtain ⟨rest, others, behind, later, rfl⟩ := unhyphenate?_cons_eq_some_iff.mp read
    rw [inCase, ← List.map_drop] at behind
    obtain ⟨c, tail, split, separated, rfl⟩ := List.map_eq_cons_iff.mp behind
    obtain rfl := apply_eq_hyphen_iff.mp separated
    obtain ⟨originals, original_read, rfl⟩ := ih later
    refine ⟨t.take n ++ originals, ?_, ?_⟩
    · exact unhyphenate?_cons_eq_some_iff.mpr ⟨tail, originals, split, original_read, rfl⟩
    · rw [Text.inCase_append]
      simp only [inCase, List.map_take]

/-- Taking out the hyphens undoes putting them in, where there are digits for all groups. -/
theorem unhyphenate?_hyphenate (enough : ns.foldr (· + ·) 0 ≤ digits.length) :
    unhyphenate? ns (hyphenate ns digits) = some digits := by
  induction ns generalizing digits with
  | nil => rfl
  | cons n ns ih =>
    rw [List.foldr_cons] at enough
    have group : (digits.take n).length = n := by
      rw [List.length_take]
      omega
    have later : unhyphenate? ns (hyphenate ns (digits.drop n)) = some (digits.drop n) := by
      apply ih
      rw [List.length_drop]
      omega
    rw [hyphenate, unhyphenate?, List.drop_left' group, List.take_left' group]
    simp only [↓reduceIte, later, Option.map_some, List.take_append_drop]

theorem hyphenate_of_unhyphenate? (read : unhyphenate? ns t = some digits) :
    hyphenate ns digits = t ∧ t.length = digits.length + ns.length := by
  induction ns generalizing t digits with
  | nil =>
    cases read
    exact ⟨rfl, rfl⟩
  | cons n ns ih =>
    obtain ⟨rest, others, behind, later, rfl⟩ := unhyphenate?_cons_eq_some_iff.mp read
    obtain ⟨same, length⟩ := ih later
    have whole : t.take n ++ hyphen :: rest = t := by rw [← behind, List.take_append_drop]
    have group : (t.take n).length = n := by
      have more : 0 < (t.drop n).length := by simp [behind]
      rw [List.length_drop] at more
      rw [List.length_take]
      omega
    constructor
    · rw [hyphenate, List.take_left' group, List.drop_left' group, same, whole]
    · have total := congrArg List.length whole
      simp only [List.length_append, List.length_cons, group, length] at total ⊢
      omega

theorem length_hyphenate (enough : ns.foldr (· + ·) 0 ≤ digits.length) :
    (hyphenate ns digits).length = digits.length + ns.length :=
  (hyphenate_of_unhyphenate? (unhyphenate?_hyphenate enough)).2

theorem text_full (letters : LetterCase) (u : Uuid .bits128) :
    u.text ⟨letters, true⟩ = hyphenate groups (Hex.encode letters u.bytes) := rfl

theorem groups_le_length_encode (letters : LetterCase) (u : Uuid .bits128) :
    groups.foldr (· + ·) 0 ≤ (Hex.encode letters u.bytes).length := by
  rw [Hex.length_encode, length_bytes]
  decide

theorem length_text_full (letters : LetterCase) (u : Uuid .bits128) :
    (u.text ⟨letters, true⟩).length = 36 := by
  rw [text_full, length_hyphenate (groups_le_length_encode letters u), Hex.length_encode,
    length_bytes]
  rfl

theorem text_of_shortened {f : Format} {v : Uuid k} (shortened : k ≠ .bits128) :
    v.text f = Hex.encode f.letters v.bytes :=
  if_neg fun both => shortened both.1

/-- A hyphenated text is read as the UUID that is written like it, but for letter case. -/
theorem ofHyphenated?_eq_some_iff (letters : LetterCase) :
    ofHyphenated? t = some u ↔ inCase letters t = u.text ⟨letters, true⟩ := by
  have written : unhyphenate? groups (u.text ⟨letters, true⟩) =
      some (Hex.encode letters u.bytes) :=
    unhyphenate?_hyphenate (groups_le_length_encode letters u)
  constructor
  · intro read
    rw [ofHyphenated?] at read
    split at read
    · next length =>
      obtain ⟨bs, taken, rfl⟩ := Option.map_eq_some_iff.mp read
      obtain ⟨digits, bare, paired⟩ := Option.bind_eq_some_iff.mp taken
      obtain ⟨rfl, total⟩ := hyphenate_of_unhyphenate? bare
      have size : bs.length = Kind.bits128.size := by
        rw [length, Hex.length_of_pairs? paired] at total
        simp only [groups, List.length_cons, List.length_nil] at total
        simp only [Kind.size]
        omega
      rw [text_full, bytes_ofBytes size, inCase_hyphenate,
        (Hex.pairs?_eq_some_iff letters).mp paired]
    · contradiction
  · intro same
    have length : t.length = 36 := by
      rw [← Text.length_inCase, same, length_text_full]
    rw [← same] at written
    obtain ⟨digits, bare, cased⟩ := unhyphenate?_inCase written
    have paired := (Hex.pairs?_eq_some_iff letters).mpr cased
    rw [ofHyphenated?, if_pos length, bare, Option.bind_some, paired, Option.map_some,
      ofBytes_bytes]

/-- A full UUID is read from the texts that are its own, but for letter case and blanks around. -/
theorem parse_eq_ok_iff (letters : LetterCase) :
    parse t = .ok u ↔ inCase letters (trim blanks t) = u.text ⟨letters, true⟩ := by
  rw [← ofHyphenated?_eq_some_iff, parse]
  cases ofHyphenated? (trim blanks t) <;> simp

theorem parse_eq_error_iff :
    parse t = .error e ↔
      (∀ u : Uuid .bits128, inCase .upper (trim blanks t) ≠ u.text .canonical) ∧
        e = .notFullUuid t := by
  have outcome : parse t = .error e ↔
      ofHyphenated? (trim blanks t) = none ∧ e = .notFullUuid t := by
    rw [parse]
    cases ofHyphenated? (trim blanks t) <;> simp [eq_comm]
  rw [outcome, Option.eq_none_iff_forall_ne_some]
  constructor
  · rintro ⟨none, rfl⟩
    exact ⟨fun u same => none u ((ofHyphenated?_eq_some_iff .upper).mpr same), rfl⟩
  · rintro ⟨none, rfl⟩
    exact ⟨fun u read => none u ((ofHyphenated?_eq_some_iff .upper).mp read), rfl⟩

theorem mem_hyphenate (member : c ∈ hyphenate ns digits) : c ∈ digits ∨ c = hyphen := by
  induction ns generalizing digits with
  | nil => exact .inl member
  | cons n ns ih =>
    rw [hyphenate, List.mem_append, List.mem_cons] at member
    rcases member with first | rfl | later
    · exact .inl (List.mem_of_mem_take first)
    · exact .inr rfl
    · rcases ih later with digit | separator
      · exact .inl (List.mem_of_mem_drop digit)
      · exact .inr separator

/-- The text of a UUID has no other bytes than digits and hyphens. -/
theorem mem_text {f : Format} {v : Uuid k} (member : c ∈ v.text f) :
    Hex.isDigit c = true ∨ c = hyphen := by
  have digit : ∀ c ∈ Hex.encode f.letters v.bytes, Hex.isDigit c = true :=
    Hex.isDigit_of_pairs? (Hex.pairs?_encode f.letters v.bytes)
  rw [text] at member
  split at member
  · rcases mem_hyphenate member with within | separator
    · exact .inl (digit c within)
    · exact .inr separator
  · exact .inl (digit c member)

theorem trim_text {f : Format} {v : Uuid k} : trim blanks (v.text f) = v.text f := by
  have blank : ∀ c ∈ blanks, ¬ (Hex.isDigit c = true ∨ c = hyphen) := by decide +kernel
  apply Text.trim_of_forall
  intro c member within
  exact blank c within (mem_text member)

/-- What is written in full is read back, in either case. -/
theorem parse_text (letters : LetterCase) (u : Uuid .bits128) :
    parse (u.text ⟨letters, true⟩) = .ok u := by
  rw [parse_eq_ok_iff letters, trim_text, text_full, inCase_hyphenate,
    (Hex.pairs?_eq_some_iff letters).mp (Hex.pairs?_encode letters u.bytes)]

end BluetoothUuid.Uuid
