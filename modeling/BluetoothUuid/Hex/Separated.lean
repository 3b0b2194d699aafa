import BluetoothUuid.Hex.Digits

/-! Hex text with separators before, between and behind the pairs of digits. It is what the reader
that takes separators reads, and parts of it put together are such text again. -/
namespace BluetoothUuid.Hex

/-- The text gives the bytes, one by each pair of digits. -/
inductive Separated : Text → Bytes → Prop
  | nil : Separated [] []
  | separator {c : UInt8} {t : Text} {bs : Bytes} (skipped : isSeparator c = true)
      (rest : Separated t bs) : Separated (c :: t) bs
  | byte {c d : UInt8} {high low : Fin 16} {t : Text} {bs : Bytes} (first : nibble? c = some high)
      (second : nibble? d = some low) (rest : Separated t bs) :
      Separated (c :: d :: t) (pair high low :: bs)

variable {c d : UInt8} {high low : Fin 16} {s t : Text} {as bs : Bytes}

theorem decode_of_separated (separated : Separated t bs) : decode t = .ok bs := by
  induction separated with
  | nil => rfl
  | separator skipped _ ih => rw [decode_separator skipped, ih]
  | byte first second _ ih =>
    rw [decode_pair first second, ih]
    rfl

theorem separated_of_decode (read : decode t = .ok bs) : Separated t bs := by
  induction t using decode.induct generalizing bs with
  | case1 =>
    cases read
    exact .nil
  | case2 c rest skipped ih =>
    rw [decode_separator skipped] at read
    exact .separator skipped (ih read)
  | case3 c rest bare illegal => simp [decode_illegal bare illegal] at read
  | case4 c bare high alone => simp [decode_alone alone] at read
  | case5 c bare high d rest first split => simp [decode_split first split] at read
  | case6 c bare high d rest first whole illegal =>
    simp [decode_illegal_second first whole illegal] at read
  | case7 c bare high d rest first whole low second ih =>
    rw [decode_pair first second] at read
    cases later : decode rest with
    | error e =>
      rw [later] at read
      contradiction
    | ok others =>
      rw [later] at read
      cases read
      exact .byte first second (ih later)

theorem decode_eq_ok_iff : decode t = .ok bs ↔ Separated t bs := by
  constructor
  · exact separated_of_decode
  · exact decode_of_separated

theorem Separated.append (first : Separated s as) (second : Separated t bs) :
    Separated (s ++ t) (as ++ bs) := by
  induction first with
  | nil => exact second
  | separator skipped _ ih => exact .separator skipped ih
  | byte high low _ ih => exact .byte high low ih

/-- Separators alone give nothing. -/
theorem separated_nil_of_forall (each : ∀ c ∈ s, isSeparator c = true) : Separated s [] := by
  induction s with
  | nil => exact .nil
  | cons c s ih =>
    rw [List.forall_mem_cons] at each
    exact .separator each.1 (ih each.2)

theorem separated_encode (letters : LetterCase) (bs : Bytes) : Separated (encode letters bs) bs :=
  separated_of_decode (decode_encode letters bs)

end BluetoothUuid.Hex
