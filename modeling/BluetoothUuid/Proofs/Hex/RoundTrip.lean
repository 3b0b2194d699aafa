import BluetoothUuid.Hex.Scan
import BluetoothUuid.Hex.Separated

/-! Writing hex text and reading it are inverse up to separators and letter case. A text is read as
the bytes whose written form it has, spread by separators and with its letters in any case, and what
is left of it without separators is that form again. -/
namespace BluetoothUuid.Hex
open BluetoothUuid.Text (inCase ofString Recased recased_iff)

/-- The first text is the second with separators put before, between and behind its pairs. -/
inductive Spread : Text → Text → Prop
  | nil : Spread [] []
  | separator {c : UInt8} {t written : Text} (skipped : isSeparator c = true)
      (rest : Spread t written) : Spread (c :: t) written
  | pair (c d : UInt8) {t written : Text} (rest : Spread t written) :
      Spread (c :: d :: t) (c :: d :: written)

variable {letters : LetterCase} {t written : Text} {bs : Bytes}

/-- Spread pairs of digits are read as they are without the separators. -/
theorem Spread.separated (spread : Spread t written) (read : pairs? written = some bs) :
    Separated t bs := by
  induction spread generalizing bs with
  | nil =>
    cases read
    exact .nil
  | separator skipped _ ih => exact .separator skipped (ih read)
  | pair c d _ ih =>
    cases bs with
    | nil => exact absurd (eq_nil_of_pairs? read) (List.cons_ne_nil _ _)
    | cons b bs =>
      obtain ⟨_, _, _, same, high, low, later⟩ := exists_of_pairs?_cons read
      cases same
      have byte := Separated.byte high low (ih later)
      simpa only [pair_halves] using byte

theorem exists_spread (separated : Separated t bs) :
    ∃ written, Spread t written ∧ pairs? written = some bs := by
  induction separated with
  | nil => exact ⟨[], .nil, rfl⟩
  | separator skipped _ ih =>
    obtain ⟨written, spread, read⟩ := ih
    exact ⟨written, .separator skipped spread, read⟩
  | @byte c d _ _ _ _ first second _ ih =>
    obtain ⟨written, spread, read⟩ := ih
    exact ⟨c :: d :: written, .pair c d spread, by simp only [pairs?, first, second, read]⟩

/-- Digits that are read as some bytes are their written form, but for letter case. -/
theorem pairs?_eq_some_iff_recased (letters : LetterCase) :
    pairs? written = some bs ↔ Recased written (encode letters bs) := by
  rw [pairs?_eq_some_iff letters, recased_iff letters, inCase_encode]

theorem decode_eq_ok_iff_spread (letters : LetterCase) :
    decode t = .ok bs ↔ ∃ written, Recased written (encode letters bs) ∧ Spread t written := by
  simp only [decode_eq_ok_iff, ← pairs?_eq_some_iff_recased]
  constructor
  · intro separated
    obtain ⟨written, spread, read⟩ := exists_spread separated
    exact ⟨written, read, spread⟩
  · rintro ⟨written, read, spread⟩
    exact spread.separated read

/-- Without its separators a text that is read is what its bytes are written as. -/
theorem inCase_filter_of_separated (letters : LetterCase) (separated : Separated t bs) :
    inCase letters (t.filter fun c => !isSeparator c) = encode letters bs := by
  induction separated with
  | nil => rfl
  | separator skipped _ ih => simp [skipped, ih]
  | byte first second _ ih =>
    simp [not_isSeparator_of_nibble? first, not_isSeparator_of_nibble? second,
      digit_of_nibble? first, digit_of_nibble? second, ih]

/-- A text is read as some bytes exactly if it is what they are written as, in either case, with the
case of any letters changed and then with separators put around the pairs. Taking the separators out
and changing the case back gives the written form, which the two tables of digits give as well. -/
theorem decode_inverts_encode_but_for_separators_and_case (letters : LetterCase) (bs : Bytes)
    (t : Text) :
    (decode t = .ok bs ↔ ∃ written, Recased written (encode letters bs) ∧ Spread t written) ∧
    (decode t = .ok bs →
      encode letters bs = inCase letters (t.filter fun c => !isSeparator c)) ∧
    encodeFrom? letters.digits bs = some (encode letters bs) := by
  refine ⟨decode_eq_ok_iff_spread letters, ?_, encodeFrom?_digits letters bs⟩
  intro read
  exact (inCase_filter_of_separated letters (decode_eq_ok_iff.mp read)).symm

theorem decode_inverts_encode_but_for_separators_and_case_of_mixed :
    decode (ofString "\t00:bC--Ff ") = .ok [0x00, 0xBC, 0xFF] ∧
    (∃ written, Recased written (ofString "00BCFF") ∧
      Spread (ofString "\t00:bC--Ff ") written) ∧
    ofString "00BCFF" =
      inCase .upper ((ofString "\t00:bC--Ff ").filter fun c => !isSeparator c) := by
  have read : decode (ofString "\t00:bC--Ff ") = .ok [0x00, 0xBC, 0xFF] := rfl
  obtain ⟨spread, taken_out, _⟩ := decode_inverts_encode_but_for_separators_and_case .upper
    [0x00, 0xBC, 0xFF] (ofString "\t00:bC--Ff ")
  exact ⟨read, spread.mp read, taken_out read⟩

end BluetoothUuid.Hex
