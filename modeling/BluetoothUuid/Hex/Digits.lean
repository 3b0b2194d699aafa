import BluetoothUuid.BigEndian
import BluetoothUuid.Text.Case

/-! Texts of hex digits and nothing else. Both readers read them in pairs, and what they read is the
number that the digits write. The case of a digit tells nothing: a text is read as the bytes whose
written form it is, but for letter case. -/
namespace BluetoothUuid

/-- The sixteen digits in a case. -/
def LetterCase.digits : LetterCase → Text
  | lower => Text.ofString "0123456789abcdef"
  | upper => Text.ofString "0123456789ABCDEF"

namespace Hex
open BluetoothUuid.Text (inCase forall_byte)

/-- The number that digits of either case write, the most significant first. -/
def number? (t : Text) : Option Nat :=
  t.foldlM (fun n c => (nibble? c).map fun d => 16 * n + d.val) 0

variable {letters : LetterCase} {c : UInt8} {nibble : Fin 16} {t : Text} {bs : Bytes}

theorem digit_of_nibble? (read : nibble? c = some nibble) :
    digit letters nibble = letters.apply c := by
  have each : ∀ c, ∀ nibble ∈ nibble? c, digit letters nibble = letters.apply c := by
    apply forall_byte
    cases letters <;> decide +kernel
  exact each c nibble read

@[simp] theorem nibble?_apply (letters : LetterCase) (c : UInt8) :
    nibble? (letters.apply c) = nibble? c := by
  revert c
  apply forall_byte
  cases letters <;> decide +kernel

theorem not_isSeparator_of_nibble? (read : nibble? c = some nibble) : isSeparator c = false := by
  have each : ∀ c, isDigit c = true → isSeparator c = false := by
    apply forall_byte
    decide +kernel
  exact each c (by rw [isDigit, read]; rfl)

@[simp] theorem pairs?_inCase (letters : LetterCase) (t : Text) :
    pairs? (inCase letters t) = pairs? t := by
  induction t using pairs?.induct with
  | case1 => rfl
  | case2 c => rfl
  | case3 c d rest ih | case4 c d rest ih => simp [pairs?, *]

theorem eq_nil_of_pairs? (read : pairs? t = some []) : t = [] := by
  cases t with
  | nil => rfl
  | cons c t =>
    cases t with
    | nil => contradiction
    | cons d t =>
      rw [pairs?] at read
      split at read
      · cases read
      · contradiction

/-- A byte is read from the two digits of its halves. -/
theorem exists_of_pairs?_cons {b : UInt8} (read : pairs? t = some (b :: bs)) :
    ∃ c d rest, t = c :: d :: rest ∧ nibble? c = some (highHalf b) ∧
      nibble? d = some (lowHalf b) ∧ pairs? rest = some bs := by
  cases t with
  | nil => cases read
  | cons c t =>
    cases t with
    | nil => contradiction
    | cons d rest =>
      rw [pairs?] at read
      split at read
      · next high low others first second later =>
        obtain ⟨rfl, rfl⟩ := List.cons.inj (Option.some.inj read)
        refine ⟨c, d, rest, rfl, ?_, ?_, later⟩
        · rw [first, highHalf_pair]
        · rw [second, lowHalf_pair]
      · contradiction

/-- A text is read as exactly the bytes that are written like it, but for letter case. -/
theorem pairs?_eq_some_iff (letters : LetterCase) :
    pairs? t = some bs ↔ inCase letters t = encode letters bs := by
  constructor
  · intro read
    induction bs generalizing t with
    | nil =>
      rw [eq_nil_of_pairs? read]
      rfl
    | cons b bs ih =>
      obtain ⟨c, d, rest, rfl, high, low, later⟩ := exists_of_pairs?_cons read
      rw [Text.inCase_cons, Text.inCase_cons, ih later, ← digit_of_nibble? high,
        ← digit_of_nibble? low]
      rfl
  · intro same
    rw [← pairs?_inCase letters, same, pairs?_encode]

theorem length_of_pairs? (read : pairs? t = some bs) : t.length = 2 * bs.length := by
  rw [← Text.length_inCase, (pairs?_eq_some_iff .upper).mp read, length_encode]

/-- Digits alone, and in pairs, are always read. -/
theorem exists_pairs? {count : Nat} (length : t.length = 2 * count)
    (digits : ∀ c ∈ t, isDigit c = true) : ∃ bs, pairs? t = some bs := by
  induction count generalizing t with
  | zero =>
    rw [List.length_eq_zero_iff.mp length]
    exact ⟨[], rfl⟩
  | succ count ih =>
    match t with
    | [] => simp at length
    | [_] =>
      rw [List.length_singleton] at length
      omega
    | c :: d :: rest =>
      simp only [List.mem_cons, forall_eq_or_imp] at digits
      obtain ⟨first, second, others⟩ := digits
      obtain ⟨high, high_read⟩ := Option.isSome_iff_exists.mp first
      obtain ⟨low, low_read⟩ := Option.isSome_iff_exists.mp second
      obtain ⟨bs, read⟩ := ih (by simp only [List.length_cons] at length; omega) others
      exact ⟨pair high low :: bs, by simp [pairs?, high_read, low_read, read]⟩

theorem decode_pair {d : UInt8} {high low : Fin 16} (first : nibble? c = some high)
    (second : nibble? d = some low) :
    decode (c :: d :: t) = (decode t).map (pair high low :: ·) := by
  simp [decode, first, second, not_isSeparator_of_nibble? first, not_isSeparator_of_nibble? second]

theorem decode_separator (skipped : isSeparator c = true) : decode (c :: t) = decode t := by
  rw [decode.eq_def]
  exact if_pos skipped

theorem decode_illegal (bare : ¬ isSeparator c = true) (illegal : nibble? c = none) :
    decode (c :: t) = .error .illegalHexCharacter := by
  simp [decode, bare, illegal]

theorem decode_alone (first : nibble? c = some nibble) : decode [c] = .error .oddHexDigits := by
  simp [decode, first, not_isSeparator_of_nibble? first]

theorem decode_split {d : UInt8} (first : nibble? c = some nibble)
    (split : isSeparator d = true) : decode (c :: d :: t) = .error .splitHexPair := by
  simp [decode, first, not_isSeparator_of_nibble? first, split]

theorem decode_illegal_second {d : UInt8} (first : nibble? c = some nibble)
    (bare : ¬ isSeparator d = true) (illegal : nibble? d = none) :
    decode (c :: d :: t) = .error .illegalHexCharacter := by
  simp [decode, first, not_isSeparator_of_nibble? first, bare, illegal]

@[simp] theorem isSeparator_apply (letters : LetterCase) (c : UInt8) :
    isSeparator (letters.apply c) = isSeparator c := by
  revert c
  apply forall_byte
  cases letters <;> decide +kernel

/-- The case of letters tells nothing to the reader that takes separators, either. -/
@[simp] theorem decode_inCase (letters : LetterCase) (t : Text) :
    decode (inCase letters t) = decode t := by
  induction t using decode.induct with
  | case1 => rfl
  | case2 c rest skipped ih =>
    have skipped_in_case : isSeparator (letters.apply c) = true := by rwa [isSeparator_apply]
    rw [Text.inCase_cons, decode_separator skipped_in_case, decode_separator skipped, ih]
  | case3 | case4 | case5 | case6 | case7 => simp [decode, *]

/-- Digits in pairs are read first, whatever comes behind them. -/
theorem decode_append_of_pairs? {s : Text} (read : pairs? s = some bs) (t : Text) :
    decode (s ++ t) = (decode t).map (bs ++ ·) := by
  induction bs generalizing s with
  | nil =>
    rw [eq_nil_of_pairs? read, List.nil_append]
    cases decode t <;> rfl
  | cons b bs ih =>
    obtain ⟨c, d, rest, rfl, high, low, later⟩ := exists_of_pairs?_cons read
    rw [List.cons_append, List.cons_append, decode_pair high low, ih later, pair_halves]
    cases decode t <;> rfl

/-- The reader that also takes separators reads digits alone in the same way. -/
theorem decode_of_pairs? (read : pairs? t = some bs) : decode t = .ok bs := by
  have alone := decode_append_of_pairs? read []
  simpa [decode, Except.map] using alone

/-- Of an odd number of digits the last one is alone. -/
theorem decode_of_odd {count : Nat} (length : t.length = 2 * count + 1)
    (digits : ∀ c ∈ t, isDigit c = true) : decode t = .error .oddHexDigits := by
  have front : (t.take (2 * count)).length = 2 * count := by
    rw [List.length_take]
    omega
  have back : (t.drop (2 * count)).length = 1 := by
    rw [List.length_drop]
    omega
  obtain ⟨c, last⟩ := List.length_eq_one_iff.mp back
  obtain ⟨bs, read⟩ := exists_pairs? front fun c member => digits c (List.mem_of_mem_take member)
  have member : c ∈ t := List.mem_of_mem_drop (last ▸ List.mem_singleton_self c)
  obtain ⟨nibble, digit⟩ := Option.isSome_iff_exists.mp (digits c member)
  rw [← List.take_append_drop (2 * count) t, decode_append_of_pairs? read, last,
    decode_alone digit]
  rfl

private theorem isDigit_of_foldlM {n m : Nat}
    (read : t.foldlM (fun n c => (nibble? c).map fun d => 16 * n + d.val) n = some m) :
    ∀ c ∈ t, isDigit c = true := by
  induction t generalizing n with
  | nil => simp
  | cons c t ih =>
    rw [List.foldlM_cons] at read
    obtain ⟨middle, first, later⟩ := Option.bind_eq_some_iff.mp read
    obtain ⟨d, digit, _⟩ := Option.map_eq_some_iff.mp first
    rw [List.forall_mem_cons]
    exact ⟨Option.isSome_iff_exists.mpr ⟨d, digit⟩, ih later⟩

/-- Only digits write a number. -/
theorem isDigit_of_number? {n : Nat} (read : number? t = some n) : ∀ c ∈ t, isDigit c = true :=
  isDigit_of_foldlM read

private theorem foldlM_of_pairs? (n : Nat) (read : pairs? t = some bs) :
    t.foldlM (fun n c => (nibble? c).map fun d => 16 * n + d.val) n =
      some (n * BigEndian.capacity bs.length + BigEndian.value bs) := by
  induction bs generalizing t n with
  | nil =>
    rw [eq_nil_of_pairs? read]
    simp [BigEndian.capacity, BigEndian.value]
  | cons b bs ih =>
    obtain ⟨c, d, rest, rfl, high, low, later⟩ := exists_of_pairs?_cons read
    have byte : 16 * (16 * n + (highHalf b).val) + (lowHalf b).val = n * 256 + b.toNat := by
      simp only [highHalf, lowHalf]
      omega
    simp only [List.foldlM_cons, high, low, Option.map_some, Option.bind_eq_bind, Option.bind_some,
      ih _ later, byte]
    rw [List.length_cons, BigEndian.value, BigEndian.capacity_succ, Nat.add_mul, Nat.mul_assoc,
      Nat.add_assoc]

/-- The bytes of a text of digits are, most significant first, the number that it writes. -/
theorem number?_of_pairs? (read : pairs? t = some bs) :
    number? t = some (BigEndian.value bs) := by
  rw [number?, foldlM_of_pairs? 0 read, Nat.zero_mul, Nat.zero_add]

theorem isDigit_of_pairs? (read : pairs? t = some bs) : ∀ c ∈ t, isDigit c = true :=
  isDigit_of_number? (number?_of_pairs? read)

theorem digit_mem_digits : ∀ letters nibble, digit letters nibble ∈ letters.digits := by
  intro letters
  cases letters <;> decide

theorem mem_digits_of_mem_encode (member : c ∈ encode letters bs) : c ∈ letters.digits := by
  obtain ⟨b, _, within⟩ := List.mem_flatMap.mp member
  simp only [encodeByte, List.mem_cons, List.not_mem_nil, or_false] at within
  rcases within with rfl | rfl <;> exact digit_mem_digits _ _

theorem inCase_encode (letters other : LetterCase) (bs : Bytes) :
    inCase letters (encode other bs) = encode letters bs :=
  (pairs?_eq_some_iff letters).mp (pairs?_encode other bs)

theorem take_encode (letters : LetterCase) (n : Nat) (bs : Bytes) :
    (encode letters bs).take (2 * n) = encode letters (bs.take n) := by
  induction n generalizing bs with
  | zero => rfl
  | succ n ih =>
    cases bs with
    | nil => simp
    | cons b bs => simp only [Nat.mul_succ, encode_cons, List.take_succ_cons, ih]

theorem drop_encode (letters : LetterCase) (n : Nat) (bs : Bytes) :
    (encode letters bs).drop (2 * n) = encode letters (bs.drop n) := by
  induction n generalizing bs with
  | zero => rfl
  | succ n ih =>
    cases bs with
    | nil => simp
    | cons b bs => simp only [Nat.mul_succ, encode_cons, List.drop_succ_cons, ih]

/-- The digits of some bytes are read as these, the others as the others. -/
theorem pairs?_take (read : pairs? t = some bs) (n : Nat) :
    pairs? (t.take (2 * n)) = some (bs.take n) := by
  simp only [pairs?_eq_some_iff .upper, inCase, List.map_take] at read ⊢
  rw [read, take_encode]

theorem pairs?_drop (read : pairs? t = some bs) (n : Nat) :
    pairs? (t.drop (2 * n)) = some (bs.drop n) := by
  simp only [pairs?_eq_some_iff .upper, inCase, List.map_drop] at read ⊢
  rw [read, drop_encode]

/-- Every digit is among those of the case that it is in. -/
theorem isDigit_iff_exists_mem_digits :
    isDigit c = true ↔ ∃ letters : LetterCase, c ∈ letters.digits := by
  constructor
  · intro valid
    obtain ⟨nibble, read⟩ := Option.isSome_iff_exists.mp valid
    obtain ⟨letters, own⟩ := Text.exists_apply_eq c
    have same : digit letters nibble = c := (digit_of_nibble? read).trans own
    exact ⟨letters, same ▸ digit_mem_digits letters nibble⟩
  · rintro ⟨letters, member⟩
    have each : ∀ c ∈ letters.digits, isDigit c = true := by cases letters <;> decide +kernel
    exact each c member

end Hex
end BluetoothUuid
