/-! Texts are byte strings. Lengths, classes and cuts count bytes, and any byte may occur in
one, NUL and malformed UTF-8 included. -/
namespace BluetoothUuid

abbrev Bytes := List UInt8

/-- A byte string that is meant to be read. -/
abbrev Text := Bytes

namespace Text

/-- The UTF-8 bytes of a string. -/
def ofString (s : String) : Text := s.toUTF8.data.toList

/-- What comes before the first NUL byte. -/
def untilNul (t : Text) : Text := t.takeWhile (· ≠ 0)

theorem untilNul_of_not_mem {t : Text} (h : (0 : UInt8) ∉ t) : untilNul t = t := by
  induction t with
  | nil => rfl
  | cons c t ih =>
    simp only [List.mem_cons, not_or] at h
    simp only [untilNul, List.takeWhile_cons, ne_eq, Ne.symm h.1, not_false_eq_true, decide_true,
      ↓reduceIte]
    exact congrArg _ (ih h.2)

theorem untilNul_append {s : Text} (absent : (0 : UInt8) ∉ s) (t : Text) :
    untilNul (s ++ t) = s ++ untilNul t := by
  apply List.takeWhile_append_of_pos
  intro c member
  rw [decide_eq_true_eq]
  rintro rfl
  exact absent member

theorem untilNul_append_of_mem {s : Text} (present : (0 : UInt8) ∈ s) (t : Text) :
    untilNul (s ++ t) = untilNul s := by
  induction s with
  | nil => contradiction
  | cons c s ih =>
    by_cases ended : c = 0
    · simp [untilNul, ended]
    · have later : (0 : UInt8) ∈ s := by simpa [Ne.symm ended] using present
      simpa [untilNul, ended] using ih later

/-- A text is split in one way where a byte occurs first. -/
theorem append_cons_inj {c : UInt8} {s t u v : Text} (absent : c ∉ s) (missing : c ∉ t)
    (same : s ++ c :: u = t ++ c :: v) : s = t ∧ u = v := by
  induction s generalizing t with
  | nil =>
    cases t with
    | nil => exact ⟨rfl, (List.cons.inj same).2⟩
    | cons d t =>
      obtain ⟨rfl, _⟩ := List.cons.inj same
      exact absurd List.mem_cons_self missing
  | cons b s ih =>
    cases t with
    | nil =>
      obtain ⟨rfl, _⟩ := List.cons.inj same
      exact absurd List.mem_cons_self absent
    | cons d t =>
      rw [List.mem_cons, not_or] at absent missing
      obtain ⟨rfl, tails⟩ := List.cons.inj same
      obtain ⟨rfl, rest⟩ := ih absent.2 missing.2 tails
      exact ⟨rfl, rest⟩

/-- A number in decimal, without leading zeros. -/
def decimal (n : Nat) : Text :=
  if n < 10 then ['0'.toUInt8 + UInt8.ofNat n]
  else decimal (n / 10) ++ ['0'.toUInt8 + UInt8.ofNat (n % 10)]

/-- The number that decimal digits write. -/
def ofDecimal (t : Text) : Nat := t.foldl (fun n c => 10 * n + (c - '0'.toUInt8).toNat) 0

theorem ofDecimal_decimal (n : Nat) : ofDecimal (decimal n) = n := by
  have digit : ∀ d < 10, ('0'.toUInt8 + UInt8.ofNat d - '0'.toUInt8).toNat = d := by decide
  induction n using decimal.induct with
  | case1 n small =>
    rw [decimal, if_pos small]
    simpa [ofDecimal] using digit n small
  | case2 n large ih =>
    have last := digit (n % 10) (Nat.mod_lt n (by decide))
    rw [ofDecimal] at ih
    rw [decimal, if_neg large, ofDecimal, List.foldl_append, ih, List.foldl_cons, List.foldl_nil,
      last, Nat.div_add_mod]

theorem digit_of_mem_decimal {n : Nat} {c : UInt8} (member : c ∈ decimal n) :
    '0'.toUInt8 ≤ c ∧ c ≤ '9'.toUInt8 := by
  have digit : ∀ d < 10, '0'.toUInt8 ≤ '0'.toUInt8 + UInt8.ofNat d ∧
      '0'.toUInt8 + UInt8.ofNat d ≤ '9'.toUInt8 := by decide
  induction n using decimal.induct with
  | case1 n small =>
    rw [decimal, if_pos small, List.mem_singleton] at member
    exact member ▸ digit n small
  | case2 n large ih =>
    rw [decimal, if_neg large, List.mem_append, List.mem_singleton] at member
    rcases member with before | rfl
    · exact ih before
    · exact digit (n % 10) (Nat.mod_lt n (by decide))

theorem zero_not_mem_decimal (n : Nat) : (0 : UInt8) ∉ decimal n :=
  fun member => absurd (digit_of_mem_decimal member) (by decide)

/-- An integer in decimal, with a minus sign when it is negative. -/
def signedDecimal : Int → Text
  | .ofNat n => decimal n
  | .negSucc n => '-'.toUInt8 :: decimal (n + 1)

theorem mem_signedDecimal {i : Int} {c : UInt8} (member : c ∈ signedDecimal i) :
    c = '-'.toUInt8 ∨ '0'.toUInt8 ≤ c ∧ c ≤ '9'.toUInt8 := by
  cases i with
  | ofNat n => exact .inr (digit_of_mem_decimal member)
  | negSucc n =>
    rcases List.mem_cons.mp member with sign | digit
    · exact .inl sign
    · exact .inr (digit_of_mem_decimal digit)

theorem zero_not_mem_signedDecimal (i : Int) : (0 : UInt8) ∉ signedDecimal i :=
  fun member => absurd (mem_signedDecimal member) (by decide)

/-- Different integers are written differently. -/
theorem signedDecimal_inj {i j : Int} : signedDecimal i = signedDecimal j ↔ i = j := by
  have number {m n : Nat} (same : decimal m = decimal n) : m = n := by
    rw [← ofDecimal_decimal m, same, ofDecimal_decimal]
  have sign {m n : Nat} : '-'.toUInt8 :: decimal m ≠ decimal n := by
    intro same
    have member : '-'.toUInt8 ∈ decimal n := same ▸ List.mem_cons_self
    exact absurd (digit_of_mem_decimal member) (by decide)
  constructor
  · intro same
    match i, j with
    | .ofNat m, .ofNat n => rw [number same]
    | .ofNat m, .negSucc n => exact absurd same.symm sign
    | .negSucc m, .ofNat n => exact absurd same sign
    | .negSucc m, .negSucc n => rw [Nat.succ.inj (number (List.cons.inj same).2)]
  · rintro rfl
    rfl

end Text
end BluetoothUuid
