import BluetoothUuid.Hex.Scan
import BluetoothUuid.Proofs.Hex.Grammar

/-! What reading a hex text comes to, for every text. One of the grammar gives the bytes that its
digits make in pairs. Any other is refused for the first byte that cannot stand where it stands, or
if there is none, for the digit that is left over. -/
namespace BluetoothUuid.Hex
open BluetoothUuid.Text (ofString)

/-- The numbers of the digits in a text, in order. -/
def digits (t : Text) : List (Fin 16) := t.filterMap nibble?

/-- The byte at a place of the text cannot stand there, for this cause: it is a separator that
follows an odd number of digits, or it is neither separator nor digit. -/
inductive Offends (t : Text) (i : Nat) : Error → Prop
  | splits {c : UInt8} (here : t[i]? = some c) (separator : isSeparator c = true)
      (half : (digits (t.take i)).length % 2 = 1) : Offends t i .splitHexPair
  | illegal {c : UInt8} (here : t[i]? = some c) (bare : isSeparator c = false)
      (no_digit : isDigit c = false) : Offends t i .illegalHexCharacter

/-- The text is to be refused for this cause, which is that of the leftmost offence, or else that of
a digit too many. -/
inductive Blamed (t : Text) : Error → Prop
  | leftmost {i : Nat} {e : Error} (offends : Offends t i e)
      (before : ∀ j < i, ∀ f, ¬ Offends t j f) : Blamed t e
  | leftOver (sound : ∀ i e, ¬ Offends t i e) (half : (digits t).length % 2 = 1) :
      Blamed t .oddHexDigits

variable {c d : UInt8} {high low nibble : Fin 16} {t u : Text} {bs : Bytes} {i n : Nat} {e f : Error}

theorem nibble?_of_isSeparator (skipped : isSeparator c = true) : nibble? c = none := by
  cases read : nibble? c with
  | none => rfl
  | some nibble =>
    rw [not_isSeparator_of_nibble? read] at skipped
    contradiction

theorem digits_separator (skipped : isSeparator c = true) : digits (c :: t) = digits t :=
  List.filterMap_cons_none (nibble?_of_isSeparator skipped)

theorem digits_digit (read : nibble? c = some nibble) : digits (c :: t) = nibble :: digits t :=
  List.filterMap_cons_some read

/-- The digits of a text that is read are the halves of its bytes. -/
theorem getElem?_digits_of_separated (separated : Separated t bs) (i : Nat) :
    (digits t)[2 * i]? = bs[i]?.map highHalf ∧ (digits t)[2 * i + 1]? = bs[i]?.map lowHalf := by
  induction separated generalizing i with
  | nil => exact ⟨rfl, rfl⟩
  | separator skipped _ ih =>
    rw [digits_separator skipped]
    exact ih i
  | byte first second _ ih =>
    rw [digits_digit first, digits_digit second]
    cases i with
    | zero => simp
    | succ i => exact ih i

theorem length_digits_of_separated (separated : Separated t bs) :
    (digits t).length = 2 * bs.length := by
  induction separated with
  | nil => rfl
  | separator skipped _ ih => rw [digits_separator skipped, ih]
  | byte first second _ ih =>
    rw [digits_digit first, digits_digit second]
    simp only [List.length_cons, ih]
    omega

theorem toNat_eq_halves (b : UInt8) : b.toNat = 16 * (highHalf b).val + (lowHalf b).val :=
  (Nat.div_add_mod b.toNat 16).symm

/-- A byte of a text that is read is made of two digits of it. -/
theorem exists_halves_of_separated {b : UInt8} (separated : Separated t bs)
    (member : bs[i]? = some b) :
    ∃ high low : Fin 16, (digits t)[2 * i]? = some high ∧ (digits t)[2 * i + 1]? = some low ∧
      b.toNat = 16 * high.val + low.val := by
  obtain ⟨high, low⟩ := getElem?_digits_of_separated separated i
  rw [member, Option.map_some] at high low
  exact ⟨highHalf b, lowHalf b, high, low, toNat_eq_halves b⟩

namespace Offends

/-- Whether a byte offends, and how, is told by the byte and by the digits before it. -/
theorem iff_of_getElem? (here : t[i]? = some c) :
    Offends t i e ↔
      (isSeparator c = true ∧ (digits (t.take i)).length % 2 = 1 ∧ e = .splitHexPair) ∨
      (isSeparator c = false ∧ isDigit c = false ∧ e = .illegalHexCharacter) := by
  constructor
  · rintro (⟨here', separator, half⟩ | ⟨here', bare, no_digit⟩)
    · obtain rfl := Option.some.inj (here.symm.trans here')
      exact .inl ⟨separator, half, rfl⟩
    · obtain rfl := Option.some.inj (here.symm.trans here')
      exact .inr ⟨bare, no_digit, rfl⟩
  · rintro (⟨separator, half, rfl⟩ | ⟨bare, no_digit, rfl⟩)
    · exact .splits here separator half
    · exact .illegal here bare no_digit

theorem exists_getElem? (offends : Offends t i e) : ∃ c, t[i]? = some c := by
  cases offends with
  | splits here | illegal here => exact ⟨_, here⟩

/-- A byte offends in one way. -/
theorem unique (one : Offends t i e) (other : Offends t i f) : e = f := by
  obtain ⟨c, here⟩ := one.exists_getElem?
  rw [iff_of_getElem? here] at one other
  rcases one with ⟨separator, _, rfl⟩ | ⟨bare, _, rfl⟩
  · rcases other with ⟨_, _, rfl⟩ | ⟨bare, _⟩
    · rfl
    · exact absurd separator (by simp [bare])
  · rcases other with ⟨separator, _⟩ | ⟨_, _, rfl⟩
    · exact absurd separator (by simp [bare])
    · rfl

/-- A digit never offends. -/
theorem not_of_digit (here : t[i]? = some c) (read : nibble? c = some nibble) :
    ¬ Offends t i e := by
  have digit : isDigit c = true := by simp [isDigit, read]
  simp [iff_of_getElem? here, not_isSeparator_of_nibble? read, digit]

/-- A separator in front never offends. -/
theorem not_of_front_separator (skipped : isSeparator c = true) : ¬ Offends (c :: t) 0 e := by
  simp [iff_of_getElem? (List.getElem?_cons_zero), skipped, digits]

/-- What offends in a text offends also behind others, if these have an even number of digits. -/
theorem shift_iff (same : ∀ i, u[i + n]? = t[i]?)
    (parity : ∀ i, (digits (u.take (i + n))).length % 2 = (digits (t.take i)).length % 2) :
    Offends u (i + n) e ↔ Offends t i e := by
  constructor
  · rintro (⟨here, separator, half⟩ | ⟨here, bare, no_digit⟩)
    · exact .splits ((same i).symm.trans here) separator ((parity i).symm.trans half)
    · exact .illegal ((same i).symm.trans here) bare no_digit
  · rintro (⟨here, separator, half⟩ | ⟨here, bare, no_digit⟩)
    · exact .splits ((same i).trans here) separator ((parity i).trans half)
    · exact .illegal ((same i).trans here) bare no_digit

theorem separator_iff (skipped : isSeparator c = true) :
    Offends (c :: t) (i + 1) e ↔ Offends t i e := by
  apply shift_iff
  · intro i
    rfl
  · intro i
    rw [List.take_succ_cons, digits_separator skipped]

theorem pair_iff (first : nibble? c = some high) (second : nibble? d = some low) :
    Offends (c :: d :: t) (i + 2) e ↔ Offends t i e := by
  apply shift_iff
  · intro i
    rfl
  · intro i
    rw [List.take_succ_cons, List.take_succ_cons, digits_digit first, digits_digit second]
    exact Nat.add_mod_right _ 2

end Offends

/-- Nothing offends in a text that is read. -/
theorem not_offends_of_separated (separated : Separated t bs) (i : Nat) (e : Error) :
    ¬ Offends t i e := by
  induction separated generalizing i with
  | nil => rintro (⟨here, _, _⟩ | ⟨here, _, _⟩) <;> contradiction
  | separator skipped _ ih =>
    cases i with
    | zero => exact Offends.not_of_front_separator skipped
    | succ i =>
      rw [Offends.separator_iff skipped]
      exact ih i
  | byte first second _ ih =>
    match i with
    | 0 => exact Offends.not_of_digit rfl first
    | 1 => exact Offends.not_of_digit rfl second
    | i + 2 =>
      rw [Offends.pair_iff first second]
      exact ih i

namespace Blamed

theorem unique (one : Blamed t e) (other : Blamed t f) : e = f := by
  cases one with
  | @leftmost i _ offends before =>
    cases other with
    | @leftmost j _ offends' before' =>
      rcases Nat.lt_trichotomy i j with less | rfl | more
      · exact absurd offends (before' i less e)
      · exact offends.unique offends'
      · exact absurd offends' (before j more f)
    | leftOver sound => exact absurd offends (sound i e)
  | leftOver sound =>
    cases other with
    | @leftmost j _ offends' => exact absurd offends' (sound j f)
    | leftOver => rfl

/-- What stands in front without offence leaves the blame as it is. -/
theorem behind (shifted : ∀ i e, Offends u (i + n) e ↔ Offends t i e)
    (sound : ∀ i < n, ∀ e, ¬ Offends u i e)
    (parity : (digits u).length % 2 = (digits t).length % 2) (blamed : Blamed t e) :
    Blamed u e := by
  have later : ∀ j f, Offends u j f → ∃ i, j = i + n ∧ Offends t i f := by
    intro j f offends
    have beyond : n ≤ j := Nat.le_of_not_lt fun front => sound j front f offends
    obtain ⟨i, rfl⟩ := Nat.exists_eq_add_of_le' beyond
    exact ⟨i, rfl, (shifted i f).mp offends⟩
  cases blamed with
  | @leftmost i _ offends before =>
    refine .leftmost ((shifted i e).mpr offends) ?_
    intro _ less f earlier
    obtain ⟨j, rfl, same⟩ := later _ f earlier
    exact before j (Nat.lt_of_add_lt_add_right less) f same
  | leftOver none half =>
    refine .leftOver ?_ (parity.trans half)
    intro _ f offends
    obtain ⟨i, _, same⟩ := later _ f offends
    exact none i f same

theorem separator (skipped : isSeparator c = true) (blamed : Blamed t e) : Blamed (c :: t) e := by
  refine blamed.behind (fun _ _ => Offends.separator_iff skipped) ?_ ?_
  · intro i front f
    obtain rfl := Nat.lt_one_iff.mp front
    exact Offends.not_of_front_separator skipped
  · rw [digits_separator skipped]

theorem pair (first : nibble? c = some high) (second : nibble? d = some low)
    (blamed : Blamed t e) : Blamed (c :: d :: t) e := by
  refine blamed.behind (fun _ _ => Offends.pair_iff first second) ?_ ?_
  · intro i front f
    match i with
    | 0 => exact Offends.not_of_digit rfl first
    | 1 => exact Offends.not_of_digit rfl second
  · rw [digits_digit first, digits_digit second]
    exact Nat.add_mod_right _ 2

/-- A byte behind one digit is blamed if it does not make a pair with it. -/
theorem second {rest : Text} (first : nibble? c = some high)
    (offends : Offends (c :: rest) 1 e) : Blamed (c :: rest) e := by
  refine .leftmost offends ?_
  intro j front f
  obtain rfl := Nat.lt_one_iff.mp front
  exact Offends.not_of_digit rfl first

theorem alone (first : nibble? c = some high) : Blamed [c] .oddHexDigits := by
  refine .leftOver ?_ ?_
  · intro i f
    cases i with
    | zero => exact Offends.not_of_digit rfl first
    | succ i => rintro (⟨here, _, _⟩ | ⟨here, _, _⟩) <;> contradiction
  · rw [digits_digit first]
    rfl

end Blamed

theorem isDigit_of_none (illegal : nibble? c = none) : isDigit c = false := by
  rw [isDigit, illegal]
  rfl

theorem blamed_of_decode (failed : decode t = .error e) : Blamed t e := by
  induction t using decode.induct generalizing e with
  | case1 => contradiction
  | case2 c rest skipped ih =>
    rw [decode_separator skipped] at failed
    exact (ih failed).separator skipped
  | case3 c rest bare illegal =>
    rw [decode_illegal bare illegal] at failed
    cases failed
    refine .leftmost (.illegal (i := 0) rfl (by simpa using bare) (isDigit_of_none illegal)) ?_
    rintro j ⟨⟩
  | case4 c bare high first =>
    rw [decode_alone first] at failed
    cases failed
    exact .alone first
  | case5 c bare high d rest first split =>
    rw [decode_split first split] at failed
    cases failed
    refine .second first (.splits rfl split ?_)
    rw [List.take_succ_cons, digits_digit first]
    rfl
  | case6 c bare high d rest first whole illegal =>
    rw [decode_illegal_second first whole illegal] at failed
    cases failed
    exact .second first (.illegal rfl (by simpa using whole) (isDigit_of_none illegal))
  | case7 c bare high d rest first whole low second ih =>
    rw [decode_pair first second] at failed
    cases later : decode rest with
    | ok bs =>
      rw [later] at failed
      contradiction
    | error f =>
      rw [later] at failed
      cases failed
      exact (ih later).pair first second

theorem decode_eq_error_iff : decode t = .error e ↔ Blamed t e := by
  constructor
  · exact blamed_of_decode
  · intro blamed
    cases result : decode t with
    | ok bs =>
      have separated := decode_eq_ok_iff.mp result
      cases blamed with
      | leftmost offends => exact absurd offends (not_offends_of_separated separated _ _)
      | leftOver _ half =>
        rw [length_digits_of_separated separated] at half
        omega
    | error f => rw [(blamed_of_decode result).unique blamed]

/-- Reading takes exactly the grammar, gives one byte for each two digits, and otherwise tells the
leftmost offence. The scan that looks digits up in a table of 128 entries always has an outcome,
which is the same. -/
theorem decode_takes_grammar_or_blames_leftmost :
    (∀ t : Text,
      ((∃ bs, decode t = .ok bs) ↔ t ∈ grammar) ∧
      (∀ bs, decode t = .ok bs →
        (digits t).length = 2 * bs.length ∧
        ∀ i b, bs[i]? = some b → ∃ high low : Fin 16, (digits t)[2 * i]? = some high ∧
          (digits t)[2 * i + 1]? = some low ∧ b.toNat = 16 * high.val + low.val) ∧
      (∀ e, decode t = .error e ↔ Blamed t e) ∧
      scan (-1) t = some (decode t)) ∧
    reverseTable.length = 128 ∧
    Error.splitHexPair.message = ofString "Separator inside a hex byte." ∧
    Error.illegalHexCharacter.message =
      ofString "This contains characters not legal in a hex encoded string." ∧
    Error.oddHexDigits.message = ofString "Odd number of hex digits." := by
  refine ⟨?_, rfl, by decide, by decide, by decide⟩
  intro t
  refine ⟨?_, ?_, fun e => decode_eq_error_iff, (scan_eq_decode t).1⟩
  · rw [mem_grammar_iff]
    simp only [decode_eq_ok_iff]
  · intro bs read
    have separated := decode_eq_ok_iff.mp read
    refine ⟨length_digits_of_separated separated, ?_⟩
    intro i b member
    exact exists_halves_of_separated separated member

/-- A separator inside a pair is blamed before a letter that is no digit, and the letter before a
digit too many. -/
theorem decode_takes_grammar_or_blames_leftmost_of_offences :
    ofString " 18:0d-" ∈ grammar ∧
    (digits (ofString " 18:0d-")).length = 2 * 2 ∧
    (∃ high low : Fin 16, (digits (ofString " 18:0d-"))[2]? = some high ∧
      (digits (ofString " 18:0d-"))[3]? = some low ∧ 0x0D = 16 * high.val + low.val) ∧
    Blamed (ofString "12 3:4g5") .splitHexPair ∧
    Blamed (ofString "12 34g567") .illegalHexCharacter ∧
    Blamed (ofString "12 34:5") .oddHexDigits := by
  obtain ⟨all, _⟩ := decode_takes_grammar_or_blames_leftmost
  have read : decode (ofString " 18:0d-") = .ok [0x18, 0x0D] := rfl
  obtain ⟨accepted, bytes, _⟩ := all (ofString " 18:0d-")
  obtain ⟨length, halves⟩ := bytes [0x18, 0x0D] read
  refine ⟨accepted.mp ⟨_, read⟩, length, halves 1 0x0D rfl, ?_, ?_, ?_⟩
  · exact ((all (ofString "12 3:4g5")).2.2.1 .splitHexPair).mp rfl
  · exact ((all (ofString "12 34g567")).2.2.1 .illegalHexCharacter).mp rfl
  · exact ((all (ofString "12 34:5")).2.2.1 .oddHexDigits).mp rfl

end BluetoothUuid.Hex
