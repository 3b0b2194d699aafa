import BluetoothUuid.Hex.Digits

/-! Hex text read and written byte by byte. What a byte stands for is looked up in a table, and a
digit waits for the one that it makes a byte with. This is the same as reading in pairs, and the
table, which is only half as long as there are bytes, is never asked for an entry that it does not
have. Writing looks up the halves of a byte in the table of the digits. -/
namespace BluetoothUuid.Hex

/-- The number that each of the first 128 bytes is as a digit, and -1 for those that are none. -/
def reverseTable : List Int8 := [
  -1, -1, -1, -1, -1, -1, -1, -1, -1, -1, -1, -1, -1, -1, -1, -1,
  -1, -1, -1, -1, -1, -1, -1, -1, -1, -1, -1, -1, -1, -1, -1, -1,
  -1, -1, -1, -1, -1, -1, -1, -1, -1, -1, -1, -1, -1, -1, -1, -1,
  0, 1, 2, 3, 4, 5, 6, 7, 8, 9, -1, -1, -1, -1, -1, -1,
  -1, 10, 11, 12, 13, 14, 15, -1, -1, -1, -1, -1, -1, -1, -1, -1,
  -1, -1, -1, -1, -1, -1, -1, -1, -1, -1, -1, -1, -1, -1, -1, -1,
  -1, 10, 11, 12, 13, 14, 15, -1, -1, -1, -1, -1, -1, -1, -1, -1,
  -1, -1, -1, -1, -1, -1, -1, -1, -1, -1, -1, -1, -1, -1, -1, -1]

/-- Reads on while the digit `high` waits, or none if that is -1. The outcome is nothing if the
table is asked for an entry that it does not have. -/
def scan (high : Int32) : Text → Option (Except Error Bytes)
  | [] => some (if 0 ≤ high then .error .oddHexDigits else .ok [])
  | c :: rest =>
    if isSeparator c then
      if 0 ≤ high then some (.error .splitHexPair) else scan high rest
    else if 127 < c then some (.error .illegalHexCharacter)
    else
      match reverseTable[c.toNat]? with
      | none => none
      | some entry =>
        if entry < 0 then some (.error .illegalHexCharacter)
        else if high < 0 then scan entry.toInt32 rest
        else
          let byte := (high <<< 4 ||| entry.toInt32).toUInt32.toUInt8
          (scan (-1) rest).map (Except.map (byte :: ·))

/-- Writes the halves of each byte, cut out by shift and mask, as the digits that the table has for
them. The outcome is nothing if it has none. -/
def encodeFrom? (table : Text) : Bytes → Option Text
  | [] => some []
  | b :: bs => do
    let high ← table[(b >>> 4 &&& 0xF).toNat]?
    let low ← table[(b &&& 0xF).toNat]?
    let rest ← encodeFrom? table bs
    return high :: low :: rest

/-- The number of a digit, as it is found in the table. -/
def entryOf (nibble : Fin 16) : Int8 := Int8.ofNat nibble

variable {high : Int32} {c : UInt8} {nibble : Fin 16} {t : Text}

theorem reverseTable_of_nibble? : ∀ c : UInt8, ∀ nibble, nibble? c = some nibble →
    c ≤ 127 ∧ reverseTable[c.toNat]? = some (entryOf nibble) := by
  apply Text.forall_byte
  decide +kernel

theorem reverseTable_of_not_digit : ∀ c : UInt8, nibble? c = none →
    127 < c ∨ reverseTable[c.toNat]? = some (-1) := by
  apply Text.forall_byte
  decide +kernel

/-- The bytes that are digits are those that the table has a number for. -/
theorem isDigit_iff_reverseTable :
    isDigit c = true ↔ ∃ entry, reverseTable[c.toNat]? = some entry ∧ 0 ≤ entry := by
  have nonneg : ∀ nibble, 0 ≤ entryOf nibble := by decide
  constructor
  · intro digit
    obtain ⟨nibble, read⟩ := Option.isSome_iff_exists.mp digit
    exact ⟨entryOf nibble, (reverseTable_of_nibble? c nibble read).2, nonneg nibble⟩
  · rintro ⟨entry, found, positive⟩
    cases other : nibble? c with
    | some nibble => simp [isDigit, other]
    | none =>
      rcases reverseTable_of_not_digit c other with beyond | none
      · have missing : reverseTable[c.toNat]? = none :=
          List.getElem?_eq_none (UInt8.lt_iff_toNat_lt.mp beyond)
        rw [missing] at found
        contradiction
      · rw [none] at found
        cases found
        exact absurd positive (by decide)

theorem entryOf_nonneg : ∀ nibble, 0 ≤ (entryOf nibble).toInt32 ∧ ¬ (entryOf nibble).toInt32 < 0 ∧
    ¬ entryOf nibble < 0 := by
  decide

theorem pair_eq_shift : ∀ high low, ((entryOf high).toInt32 <<< 4 |||
    (entryOf low).toInt32).toUInt32.toUInt8 = pair high low := by
  decide +kernel

theorem scan_separator (skipped : isSeparator c = true) :
    scan high (c :: t) = if 0 ≤ high then some (.error .splitHexPair) else scan high t :=
  if_pos skipped

theorem scan_illegal (bare : ¬ isSeparator c = true) (illegal : nibble? c = none) :
    scan high (c :: t) = some (.error .illegalHexCharacter) := by
  rw [scan, if_neg bare]
  rcases reverseTable_of_not_digit c illegal with beyond | none
  · exact if_pos beyond
  · by_cases beyond : 127 < c
    · exact if_pos beyond
    · rw [if_neg beyond, none]
      rfl

theorem scan_digit (digit : nibble? c = some nibble) :
    scan high (c :: t) =
      if high < 0 then scan (entryOf nibble).toInt32 t
      else (scan (-1) t).map
        (Except.map ((high <<< 4 ||| (entryOf nibble).toInt32).toUInt32.toUInt8 :: ·)) := by
  obtain ⟨within, entry⟩ := reverseTable_of_nibble? c nibble digit
  have bare := not_isSeparator_of_nibble? digit
  have inTable : ¬ 127 < c := UInt8.not_lt.mpr within
  simp only [scan, bare, Bool.false_eq_true, if_false, inTable, entry, entryOf_nonneg nibble]

/-- A digit that waits is a digit in front of what comes. The scan of both is done by one induction
on the text, since each byte takes it from one to the other. -/
theorem scan_eq_decode (t : Text) :
    scan (-1) t = some (decode t) ∧
    ∀ c nibble, nibble? c = some nibble →
      scan (entryOf nibble).toInt32 t = some (decode (c :: t)) := by
  induction t with
  | nil =>
    refine ⟨rfl, ?_⟩
    intro c nibble first
    rw [scan, if_pos (entryOf_nonneg nibble).1, decode_alone first]
  | cons d t ih =>
    obtain ⟨none_waits, one_waits⟩ := ih
    by_cases skipped : isSeparator d = true
    · refine ⟨?_, ?_⟩
      · rw [decode_separator skipped, ← none_waits]
        exact scan_separator skipped
      · intro c nibble first
        rw [scan_separator skipped, if_pos (entryOf_nonneg nibble).1, decode_split first skipped]
    · cases digit : nibble? d with
      | none =>
        refine ⟨?_, ?_⟩
        · rw [scan_illegal skipped digit, decode_illegal skipped digit]
        · intro c nibble first
          rw [scan_illegal skipped digit, decode_illegal_second first skipped digit]
      | some low =>
        refine ⟨?_, ?_⟩
        · rw [← one_waits d low digit]
          exact scan_digit digit
        · intro c high first
          rw [scan_digit digit, if_neg (entryOf_nonneg high).2.1, none_waits, pair_eq_shift,
            decode_pair first digit]
          rfl

theorem digits_of_halves (letters : LetterCase) : ∀ b : UInt8,
    letters.digits[(b >>> 4 &&& 0xF).toNat]? = some (digit letters (highHalf b)) ∧
      letters.digits[(b &&& 0xF).toNat]? = some (digit letters (lowHalf b)) := by
  apply Text.forall_byte
  cases letters <;> decide +kernel

theorem encodeFrom?_digits (letters : LetterCase) (bs : Bytes) :
    encodeFrom? letters.digits bs = some (encode letters bs) := by
  induction bs with
  | nil => rfl
  | cons b bs ih =>
    obtain ⟨high, low⟩ := digits_of_halves letters b
    simp only [encodeFrom?, high, low, ih, encode_cons]
    rfl

end BluetoothUuid.Hex
