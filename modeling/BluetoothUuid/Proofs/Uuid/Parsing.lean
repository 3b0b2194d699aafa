import BluetoothUuid.Proofs.Hex.Reading
import BluetoothUuid.Uuid.Text.Fields
import BluetoothUuid.Uuid.Wire.Length

/-! What is parsed as a full UUID, for every text. It is the hyphenated form with blanks around it, in
which the reader of hex text finds the same bytes. Writing and parsing are inverse up to the blanks and
the case of letters. -/
namespace BluetoothUuid
open BluetoothUuid.Text (ofString untilNul inCase trim blanks Padded Recased)

variable {letters : LetterCase} {k : Kind} {c t : Text}

namespace Text

/-- Whether a byte is a blank does not depend on the case of letters. -/
theorem contains_blanks_apply (letters : LetterCase) : ∀ c : UInt8,
    blanks.contains (letters.apply c) = blanks.contains c := by
  apply forall_byte
  cases letters <;> decide +kernel

theorem trim_inCase (letters : LetterCase) (t : Text) :
    trim blanks (inCase letters t) = inCase letters (trim blanks t) := by
  have same : blanks.contains ∘ letters.apply = blanks.contains :=
    funext (contains_blanks_apply letters)
  simp only [trim, untilNul_blanks, inCase, List.dropWhile_map, ← List.map_reverse, same]

end Text

namespace Uuid
variable {u : Uuid .bits128} {e : Error}

/-- The text of a full UUID is in upper case, so that in this case the others are told from it. -/
theorem recased_text_iff : Recased c (u.text .canonical) ↔ inCase .upper c = u.text .canonical := by
  have upper : inCase .upper (u.text .canonical) = u.text .canonical :=
    inCase_text .upper .upper true u
  rw [Text.recased_iff .upper, upper]

theorem hyphenated_iff_recased :
    Hyphenated t ↔ ∃ u : Uuid .bits128, Recased t (u.text .canonical) := by
  simp only [hyphenated_iff, recased_text_iff]
  exact exists_congr fun _ => ofHyphenated?_eq_some_iff .upper

/-- The form that a full UUID is written in, with the case of any letters changed and with blanks
around it, is parsed as that UUID. -/
theorem parse_of_padded (padded : Padded c t) (recased : Recased c (u.text .canonical)) :
    parse t = .ok u := by
  rw [parse_eq_ok_iff .upper, Text.trim_of_padded padded, ← Text.trim_inCase,
    recased_text_iff.mp recased]
  exact trim_text

theorem recased_of_parse (parsed : parse t = .ok u) :
    Recased (trim blanks t) (u.text .canonical) :=
  recased_text_iff.mpr ((parse_eq_ok_iff .upper).mp parsed)

theorem exists_parse_iff : (∃ u, parse t = .ok u) ↔ ∃ c, Hyphenated c ∧ Padded c t := by
  constructor
  · rintro ⟨u, parsed⟩
    exact ⟨trim blanks t, hyphenated_iff_recased.mpr ⟨u, recased_of_parse parsed⟩,
      Text.padded_trim t⟩
  · rintro ⟨c, hyphenated, padded⟩
    obtain ⟨u, recased⟩ := hyphenated_iff_recased.mp hyphenated
    exact ⟨u, parse_of_padded padded recased⟩

/-- Whatever differs from the text of a UUID only in case gives its bytes to the hex reader. -/
theorem separated_of_recased {f : Format} {v : Uuid k} (recased : Recased c (v.text f)) :
    Hex.Separated c v.bytes := by
  rw [← Hex.decode_eq_ok_iff, ← Hex.decode_inCase .upper, (Text.recased_iff .upper).mp recased,
    Hex.decode_inCase, decode_text]

theorem separated_of_padded {bs : Bytes} (padded : Padded c t) (separated : Hex.Separated c bs) :
    Hex.Separated t bs := by
  obtain ⟨p, q, rfl, front, behind⟩ := padded
  have skipped : ∀ b ∈ blanks, Hex.isSeparator b = true := by decide +kernel
  have before := Hex.separated_nil_of_forall fun b member => skipped b (front b member)
  have after := Hex.separated_nil_of_forall fun b member => skipped b (behind b member)
  simpa only [List.nil_append, List.append_nil] using (before.append separated).append after

theorem decode_of_parse (parsed : parse t = .ok u) : Hex.decode t = .ok u.bytes :=
  Hex.decode_of_separated
    (separated_of_padded (Text.padded_trim t) (separated_of_recased (recased_of_parse parsed)))

theorem parse_eq_error_iff_not_padded :
    parse t = .error e ↔ (¬ ∃ c, Hyphenated c ∧ Padded c t) ∧ e = .notFullUuid t := by
  rw [← exists_parse_iff]
  constructor
  · intro refused
    refine ⟨?_, (parse_eq_error_iff.mp refused).2⟩
    rintro ⟨u, parsed⟩
    exact nomatch refused.symm.trans parsed
  · rintro ⟨none, rfl⟩
    cases result : parse t with
    | ok u => exact absurd ⟨u, result⟩ none
    | error cause => rw [(parse_eq_error_iff.mp result).2]

/-- Exactly the hyphenated form between blanks is parsed, and gives the bytes that its digits make in
pairs. For any other text the cause is the whole text, which the message quotes up to its first NUL. The
parser that ends a text at its first NUL and reads it by the fields always has the same outcome. -/
theorem parse_takes_hyphenated_between_blanks (t : Text) :
    ((∃ u, parse t = .ok u) ↔ ∃ c, Hyphenated c ∧ Padded c t) ∧
    (∀ u c, parse t = .ok u → Hyphenated c → Padded c t →
      (Hex.digits c).length = 32 ∧
      ∀ i b, u.bytes[i]? = some b → ∃ high low : Fin 16, (Hex.digits c)[2 * i]? = some high ∧
        (Hex.digits c)[2 * i + 1]? = some low ∧ b.toNat = 16 * high.val + low.val) ∧
    (∀ e, parse t = .error e ↔ (¬ ∃ c, Hyphenated c ∧ Padded c t) ∧ e = .notFullUuid t) ∧
    (Error.notFullUuid t).message = ofString "not a 128-bit UUID: \"" ++
      (if (0 : UInt8) ∈ t then untilNul t else t ++ ofString "\"") ∧
    parseFields t = parse t := by
  refine ⟨exists_parse_iff, ?_, fun e => parse_eq_error_iff_not_padded,
    Error.message_notFullUuid t, parseFields_eq_parse t⟩
  intro u c parsed hyphenated padded
  obtain ⟨v, recased⟩ := hyphenated_iff_recased.mp hyphenated
  obtain rfl : v = u := Except.ok.inj ((parse_of_padded padded recased).symm.trans parsed)
  have separated := separated_of_recased recased
  refine ⟨?_, fun i b member => Hex.exists_halves_of_separated separated member⟩
  rw [Hex.length_digits_of_separated separated, length_bytes]
  rfl

theorem parse_takes_hyphenated_between_blanks_of_mixed_case :
    parse (ofString "\x0b0000180d-0000-1000-8000-00805f9B34Fb\r\n") =
      .ok ⟨0x0000180D_0000_1000_8000_00805F9B34FB⟩ ∧
    Hyphenated (ofString "0000180d-0000-1000-8000-00805f9B34Fb") ∧
    Padded (ofString "0000180d-0000-1000-8000-00805f9B34Fb")
      (ofString "\x0b0000180d-0000-1000-8000-00805f9B34Fb\r\n") ∧
    (∃ high low : Fin 16,
      (Hex.digits (ofString "0000180d-0000-1000-8000-00805f9B34Fb"))[30]? = some high ∧
      (Hex.digits (ofString "0000180d-0000-1000-8000-00805f9B34Fb"))[31]? = some low ∧
      0xFB = 16 * high.val + low.val) := by
  have parsed : parse (ofString "\x0b0000180d-0000-1000-8000-00805f9B34Fb\r\n") =
      .ok ⟨0x0000180D_0000_1000_8000_00805F9B34FB⟩ := rfl
  have hyphenated : Hyphenated (ofString "0000180d-0000-1000-8000-00805f9B34Fb") :=
    hyphenated_iff.mpr ⟨⟨0x0000180D_0000_1000_8000_00805F9B34FB⟩, rfl⟩
  have padded : Padded (ofString "0000180d-0000-1000-8000-00805f9B34Fb")
      (ofString "\x0b0000180d-0000-1000-8000-00805f9B34Fb\r\n") :=
    ⟨ofString "\x0b", ofString "\r\n", rfl, by decide +kernel, by decide +kernel⟩
  obtain ⟨_, bytes, _⟩ := parse_takes_hyphenated_between_blanks
    (ofString "\x0b0000180d-0000-1000-8000-00805f9B34Fb\r\n")
  obtain ⟨_, halves⟩ := bytes _ _ parsed hyphenated padded
  exact ⟨parsed, hyphenated, padded, halves 15 0xFB rfl⟩

/-- What is parsed as a full UUID is also hex text of its bytes, blanks and hyphens being separators
that stand between pairs only. So reading it as hex text, and its bytes at a cursor as a UUID of the kind
that has as many, gives the same UUID. -/
theorem decode_agrees_with_parse (t : Text) (u : Uuid .bits128) (parsed : parse t = .ok u) :
    Hex.decode t = .ok u.bytes ∧
    Kind.ofLength u.bytes.length = .ok .bits128 ∧
    ∃ d, (Cursor.readUuid .bits128).outcome (Cursor.start u.bytes u.length_bytes_lt) = (.ok u, d) ∧
      (Cursor.readUuidOfLength u.bytes.length).outcome (Cursor.start u.bytes u.length_bytes_lt) =
        (.ok ⟨.bits128, u⟩, d) ∧
      d.atEnd = true := by
  refine ⟨decode_of_parse parsed, Kind.ofLength_eq_ok_iff.mpr u.length_bytes, ?_⟩
  have ahead : (Cursor.start u.bytes u.length_bytes_lt).ahead = u.bytes ++ [] :=
    (List.append_nil _).symm
  obtain ⟨d, moved, nothing⟩ := Cursor.Reads.exists_of_ahead ahead
  have read := Cursor.readUuid_eq_ok_iff.mpr moved
  refine ⟨d, read, ?_, Cursor.atEnd_iff_ahead.mpr nothing⟩
  rw [u.length_bytes, Cursor.readUuidOfLength_size]
  exact Action.outcome_map_eq_ok_iff.mpr ⟨u, read, rfl⟩

theorem decode_agrees_with_parse_of_padded :
    parse (ofString "\x0b 0000180d-0000-1000-8000-00805f9B34Fb\r") =
      .ok ⟨0x0000180D_0000_1000_8000_00805F9B34FB⟩ ∧
    Hex.decode (ofString "\x0b 0000180d-0000-1000-8000-00805f9B34Fb\r") =
      .ok [0x00, 0x00, 0x18, 0x0D, 0x00, 0x00, 0x10, 0x00, 0x80, 0x00, 0x00, 0x80, 0x5F, 0x9B, 0x34,
        0xFB] ∧
    ∃ d, (Cursor.readUuidOfLength 16).outcome
        (Cursor.start [0x00, 0x00, 0x18, 0x0D, 0x00, 0x00, 0x10, 0x00, 0x80, 0x00, 0x00, 0x80, 0x5F,
          0x9B, 0x34, 0xFB] (by decide)) =
        (.ok ⟨.bits128, ⟨0x0000180D_0000_1000_8000_00805F9B34FB⟩⟩, d) ∧
      d.atEnd = true := by
  have parsed : parse (ofString "\x0b 0000180d-0000-1000-8000-00805f9B34Fb\r") =
      .ok ⟨0x0000180D_0000_1000_8000_00805F9B34FB⟩ := rfl
  obtain ⟨decoded, _, d, _, read, nothing⟩ := decode_agrees_with_parse _ _ parsed
  exact ⟨parsed, decoded, d, read, nothing⟩

/-- The text of a full UUID is parsed as that UUID, also with blanks around it and the case of any
letters changed. What is parsed is written as it was, without the blanks and in one case. Without
hyphens nothing is parsed. -/
theorem parse_inverts_text_but_for_blanks_and_case :
    (∀ (u : Uuid .bits128) (c t : Text), Recased c (u.text .canonical) → Padded c t →
      parse t = .ok u) ∧
    (∀ (t : Text) (u : Uuid .bits128), parse t = .ok u →
      u.text .canonical = inCase .upper (trim blanks t) ∧
      u.text .lower = inCase .lower (trim blanks t)) ∧
    ∀ (k : Kind) (v : Uuid k) (letters : LetterCase),
      parse (v.text (.compact letters)) = .error (.notFullUuid (v.text (.compact letters))) := by
  refine ⟨?_, ?_, ?_⟩
  · intro u c t recased padded
    exact parse_of_padded padded recased
  · intro t u parsed
    exact ⟨((parse_eq_ok_iff .upper).mp parsed).symm, ((parse_eq_ok_iff .lower).mp parsed).symm⟩
  · intro k v letters
    rw [parse_eq_error_iff, trim_text]
    refine ⟨?_, rfl⟩
    intro u same
    have length : textLength k false = textLength .bits128 true := by
      simpa only [Text.length_inCase, length_text, Format.compact, Format.canonical] using
        congrArg List.length same
    cases k <;> contradiction

theorem parse_inverts_text_but_for_blanks_and_case_of_base :
    Recased (ofString "00000000-0000-1000-8000-00805f9B34Fb") (base.text .canonical) ∧
    Padded (ofString "00000000-0000-1000-8000-00805f9B34Fb")
      (ofString "\t \n00000000-0000-1000-8000-00805f9B34Fb ") ∧
    parse (ofString "\t \n00000000-0000-1000-8000-00805f9B34Fb ") = .ok base ∧
    base.text .lower =
      inCase .lower (trim blanks (ofString "\t \n00000000-0000-1000-8000-00805f9B34Fb ")) := by
  obtain ⟨parses, writes, _⟩ := parse_inverts_text_but_for_blanks_and_case
  have recased : Recased (ofString "00000000-0000-1000-8000-00805f9B34Fb") (base.text .canonical) :=
    (Text.recased_iff .upper).mpr (by decide)
  have padded : Padded (ofString "00000000-0000-1000-8000-00805f9B34Fb")
      (ofString "\t \n00000000-0000-1000-8000-00805f9B34Fb ") :=
    ⟨ofString "\t \n", ofString " ", rfl, by decide +kernel, by decide +kernel⟩
  have parsed := parses base _ _ recased padded
  exact ⟨recased, padded, parsed, (writes _ _ parsed).2⟩

end Uuid
end BluetoothUuid
