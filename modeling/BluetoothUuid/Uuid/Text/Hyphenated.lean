import BluetoothUuid.Uuid.Text.Layout

/-! The hyphenated form. A text is read as a full UUID if every byte of it may stand where it stands,
which is told from the places alone. -/
namespace BluetoothUuid.Uuid

variable {ns : List Nat} {c : UInt8} {t digits : Text}

/-- A text as long as that of a full UUID, with hyphens in the same places and digits of either case in
all others. -/
structure Hyphenated (t : Text) : Prop where
  length : t.length = 36
  places : ∀ i c, t[i]? = some c →
    if i ∈ [8, 13, 18, 23] then c = hyphen else ∃ letters : LetterCase, c ∈ letters.digits

theorem exists_unhyphenate? (hyphens : ∀ i ∈ offsets ns, t[i]? = some hyphen) :
    ∃ digits, unhyphenate? ns t = some digits := by
  induction ns generalizing t with
  | nil => exact ⟨t, rfl⟩
  | cons n ns ih =>
    simp only [offsets, List.forall_mem_cons, List.forall_mem_map] at hyphens
    obtain ⟨here, later⟩ := hyphens
    obtain ⟨inside, same⟩ := List.getElem?_eq_some_iff.mp here
    have behind : t.drop n = hyphen :: t.drop (n + 1) := by
      rw [List.drop_eq_getElem_cons inside, same]
    obtain ⟨digits, read⟩ : ∃ digits, unhyphenate? ns (t.drop (n + 1)) = some digits := by
      apply ih
      intro i member
      rw [List.getElem?_drop, Nat.add_right_comm]
      exact later i member
    exact ⟨_, unhyphenate?_cons_eq_some_iff.mpr ⟨_, digits, behind, read, rfl⟩⟩

/-- What is left without the hyphens in their places is what stands in the other places. -/
theorem exists_place_of_mem_unhyphenate? (read : unhyphenate? ns t = some digits)
    (member : c ∈ digits) : ∃ i, t[i]? = some c ∧ i ∉ offsets ns := by
  induction ns generalizing t digits with
  | nil =>
    cases read
    obtain ⟨i, here⟩ := List.mem_iff_getElem?.mp member
    exact ⟨i, here, List.not_mem_nil⟩
  | cons n ns ih =>
    obtain ⟨rest, others, behind, later, rfl⟩ := unhyphenate?_cons_eq_some_iff.mp read
    simp only [offsets, List.mem_cons, List.mem_map, not_or, not_exists, not_and]
    rcases List.mem_append.mp member with group | beyond
    · obtain ⟨i, here⟩ := List.mem_iff_getElem?.mp group
      obtain ⟨inside, _⟩ := List.getElem?_eq_some_iff.mp here
      have before : i < n := Nat.lt_of_lt_of_le inside (List.length_take_le n t)
      rw [List.getElem?_take_of_lt before] at here
      exact ⟨i, here, by omega, fun j _ => by omega⟩
    · obtain ⟨i, here, place⟩ := ih later beyond
      refine ⟨n + i + 1, ?_, by omega, ?_⟩
      · have shifted : (t.drop n)[i + 1]? = some c := by rw [behind, List.getElem?_cons_succ, here]
        rwa [List.getElem?_drop] at shifted
      · intro j within same
        obtain rfl : j = i := by omega
        exact place within

theorem offsets_groups : offsets groups = [8, 13, 18, 23] := rfl

theorem exists_of_hyphenated (hyphenated : Hyphenated t) : ∃ u, ofHyphenated? t = some u := by
  obtain ⟨length, places⟩ := hyphenated
  obtain ⟨digits, bare⟩ : ∃ digits, unhyphenate? groups t = some digits := by
    apply exists_unhyphenate?
    intro i place
    have inside : i < t.length := by
      have bound : ∀ j ∈ offsets groups, j < 36 := by decide
      rw [length]
      exact bound i place
    have found := places i t[i] (List.getElem?_eq_getElem inside)
    rw [← offsets_groups, if_pos place] at found
    rw [List.getElem?_eq_getElem inside, found]
  have each : ∀ c ∈ digits, Hex.isDigit c = true := by
    intro c member
    obtain ⟨i, here, other⟩ := exists_place_of_mem_unhyphenate? bare member
    have found := places i c here
    rw [← offsets_groups, if_neg other] at found
    exact Hex.isDigit_iff_exists_mem_digits.mpr found
  have count : digits.length = 2 * 16 := by
    have total : 36 = digits.length + 4 := length.symm.trans (hyphenate_of_unhyphenate? bare).2
    omega
  obtain ⟨bs, paired⟩ := Hex.exists_pairs? count each
  refine ⟨ofBytes .bits128 bs, ?_⟩
  rw [ofHyphenated?, if_pos length, bare, Option.bind_some, paired, Option.map_some]

theorem hyphenated_of_ofHyphenated? {u : Uuid .bits128} (read : ofHyphenated? t = some u) :
    Hyphenated t := by
  have same := (ofHyphenated?_eq_some_iff .upper).mp read
  refine ⟨?_, ?_⟩
  · rw [← Text.length_inCase, same, length_text_full]
  · intro i c here
    have found : (u.text ⟨.upper, true⟩)[i]? = some (LetterCase.upper.apply c) := by
      rw [← same, Text.inCase, List.getElem?_map, here, Option.map_some]
    have standing := getElem?_text found
    simp only [true_and] at standing
    split at standing
    · next place =>
      rw [if_pos place]
      exact apply_eq_hyphen_iff.mp standing
    · next other =>
      have digit := Hex.isDigit_iff_exists_mem_digits.mpr ⟨_, standing⟩
      rw [if_neg other, ← Hex.isDigit_iff_exists_mem_digits]
      simpa only [Hex.isDigit, Hex.nibble?_apply] using digit

/-- The texts that are read as full UUIDs are those with every byte in its place. -/
theorem hyphenated_iff : Hyphenated t ↔ ∃ u, ofHyphenated? t = some u := by
  constructor
  · exact exists_of_hyphenated
  · rintro ⟨u, read⟩
    exact hyphenated_of_ofHyphenated? read

end BluetoothUuid.Uuid
