import BluetoothUuid.Uuid.Order
import BluetoothUuid.Uuid.Text.Hyphenated

/-! A full UUID read field by field. The text ends before its first NUL. Each byte is checked to be one
that may stand in its place, then the digits from certain places on are read as numbers, as far as they
go, and these are packed. This is the same as reading all digits in pairs. -/
namespace BluetoothUuid

namespace Hex

/-- The number that the digits at the front of a text write, whatever follows them. -/
def leading (t : Text) : Nat := (number? (t.takeWhile isDigit)).getD 0

theorem leading_append {digits rest : Text} {bs : Bytes} (read : pairs? digits = some bs)
    (stop : ∀ c, rest.head? = some c → isDigit c = false) :
    leading (digits ++ rest) = BigEndian.value bs := by
  have nothing : rest.takeWhile isDigit = [] := by
    cases rest with
    | nil => rfl
    | cons c rest => simp [stop c rfl]
  simp only [leading, List.takeWhile_append_of_pos (isDigit_of_pairs? read), nothing,
    List.append_nil, number?_of_pairs? read, Option.getD_some]

theorem leading_of_pairs? {digits : Text} {bs : Bytes} (read : pairs? digits = some bs) :
    leading digits = BigEndian.value bs := by
  have alone := @leading_append digits [] bs read nofun
  rwa [List.append_nil] at alone

end Hex

namespace Uuid
variable {ns : List Nat} {n : Nat} {t digits : Text} {bs : Bytes} {u : Uuid .bits128}

/-- The bytes of the fields, one behind the other. -/
def Fields.pack (f : Fields) : Bytes :=
  BigEndian.bytes 4 f.timeLow ++ BigEndian.bytes 2 f.timeMid ++
    BigEndian.bytes 2 f.timeHighAndVersion ++ BigEndian.bytes 2 f.clockSequence ++ f.node

/-- The numbers that stand in a hyphenated text, the bytes of the node one by one. -/
def fieldsAt (t : Text) : Fields where
  timeLow := Hex.leading t
  timeMid := Hex.leading (t.drop 9)
  timeHighAndVersion := Hex.leading (t.drop 14)
  clockSequence := Hex.leading (t.drop 19)
  node := (List.range 6).map fun i => UInt8.ofNat (Hex.leading ((t.drop (24 + 2 * i)).take 2))

def inPlaces (t : Text) : Bool :=
  t.zipIdx.all fun (c, i) => if i ∈ [8, 13, 18, 23] then c == hyphen else Hex.isDigit c

/-- Reads what comes before the first NUL. -/
def ofFields? (t : Text) : Option (Uuid .bits128) :=
  let ended := t.untilNul
  if ended.length = 36 ∧ inPlaces ended then some (ofBytes .bits128 (fieldsAt ended).pack) else none

/-- Reads a full UUID with blanks around it by its fields. All bytes between the blanks count, NUL
included, before the text is taken to end at one. -/
def parseFields (t : Text) : Except Error (Uuid .bits128) :=
  let trimmed := Text.trim Text.blanks t
  match if trimmed.length = 36 then ofFields? trimmed else none with
  | some u => .ok u
  | none => .error (.notFullUuid t)

theorem hyphenated_iff_inPlaces : Hyphenated t ↔ t.length = 36 ∧ inPlaces t = true := by
  have each (c : UInt8) (i : Nat) :
      (if i ∈ [8, 13, 18, 23] then c == hyphen else Hex.isDigit c) = true ↔
        if i ∈ [8, 13, 18, 23] then c = hyphen else ∃ letters : LetterCase, c ∈ letters.digits := by
    split
    · exact beq_iff_eq
    · exact Hex.isDigit_iff_exists_mem_digits
  constructor
  · rintro ⟨length, places⟩
    refine ⟨length, List.all_eq_true.mpr ?_⟩
    rintro ⟨c, i⟩ member
    exact (each c i).mpr (places i c (List.mem_zipIdx_iff_getElem?.mp member))
  · rintro ⟨length, all⟩
    refine ⟨length, ?_⟩
    intro i c here
    exact (each c i).mp (List.all_eq_true.mp all (c, i) (List.mem_zipIdx_iff_getElem?.mpr here))

theorem pack_fields (u : Uuid .bits128) : u.fields.pack = u.bytes := by
  have part (n m : Nat) (inside : n + m ≤ 16) :
      BigEndian.bytes m (BigEndian.value ((u.bytes.drop n).take m)) = (u.bytes.drop n).take m := by
    have length : ((u.bytes.drop n).take m).length = m := by
      rw [List.length_take, List.length_drop, length_bytes]
      exact Nat.min_eq_left (Nat.le_sub_of_add_le' inside)
    simpa only [length] using BigEndian.bytes_value ((u.bytes.drop n).take m)
  have joined (n m : Nat) : (u.bytes.drop n).take m ++ u.bytes.drop (n + m) = u.bytes.drop n := by
    rw [← List.drop_drop, List.take_append_drop]
  simp only [Fields.pack, fields, part 4 2 (by decide), part 6 2 (by decide), part 8 2 (by decide),
    List.append_assoc, joined 8 2, joined 6 2, joined 4 2]
  exact (congrArg (· ++ u.bytes.drop 4) (part 0 4 (by decide))).trans (joined 0 4)

theorem exists_digits_of_ofHyphenated? (read : ofHyphenated? t = some u) :
    ∃ digits, t = hyphenate groups digits ∧ Hex.pairs? digits = some u.bytes := by
  have cased := (ofHyphenated?_eq_some_iff .upper).mp read
  have written : unhyphenate? groups (Text.inCase .upper t) = some (Hex.encode .upper u.bytes) := by
    rw [cased]
    exact unhyphenate?_hyphenate (groups_le_length_encode .upper u)
  obtain ⟨digits, bare, same⟩ := unhyphenate?_inCase written
  exact ⟨digits, (hyphenate_of_unhyphenate? bare).1.symm, (Hex.pairs?_eq_some_iff .upper).mpr same⟩

/-- Behind a group and its hyphen come the other groups. -/
theorem drop_of_hyphenate {k m : Nat} (there : t.drop k = hyphenate (n :: ns) (digits.drop m))
    (enough : m + n ≤ digits.length) :
    t.drop (k + n + 1) = hyphenate ns (digits.drop (m + n)) := by
  have group : ((digits.drop m).take n ++ [hyphen]).length = n + 1 := by
    simp only [List.length_append, List.length_take, List.length_drop, List.length_singleton]
    omega
  have whole : t.drop k =
      ((digits.drop m).take n ++ [hyphen]) ++ hyphenate ns (digits.drop (m + n)) := by
    rw [there, hyphenate, List.drop_drop, List.append_assoc, List.singleton_append]
  rw [Nat.add_assoc, ← List.drop_drop, whole, List.drop_left' group]

/-- The digits from the beginning of a group on are read up to its hyphen. -/
theorem leading_of_hyphenate {k m : Nat} (paired : Hex.pairs? digits = some bs)
    (there : t.drop k = hyphenate (2 * n :: ns) (digits.drop (2 * m))) :
    Hex.leading (t.drop k) = BigEndian.value ((bs.drop m).take n) := by
  have group := Hex.pairs?_take (Hex.pairs?_drop paired m) n
  rw [there]
  apply Hex.leading_append group
  rintro c ⟨⟩
  decide

/-- Each byte is read from its own two digits. -/
theorem map_leading_of_pairs? (paired : Hex.pairs? digits = some bs) :
    (List.range bs.length).map
      (fun i => UInt8.ofNat (Hex.leading ((digits.drop (2 * i)).take 2))) = bs := by
  apply List.ext_getElem
  · rw [List.length_map, List.length_range]
  · intro i _ inside
    have one : (bs.drop i).take 1 = [bs[i]] := by
      rw [List.drop_eq_getElem_cons inside, List.take_succ_cons, List.take_zero]
    have pair : Hex.pairs? ((digits.drop (2 * i)).take 2) = some [bs[i]] := by
      rw [← one]
      exact Hex.pairs?_take (Hex.pairs?_drop paired i) 1
    simp [Hex.leading_of_pairs? pair, BigEndian.value, BigEndian.capacity]

/-- The numbers are read from where the groups begin, so that they are the fields. -/
theorem fieldsAt_of_ofHyphenated? (read : ofHyphenated? t = some u) : fieldsAt t = u.fields := by
  obtain ⟨digits, hyphenated, paired⟩ := exists_digits_of_ofHyphenated? read
  have count : digits.length = 32 := by
    rw [Hex.length_of_pairs? paired, length_bytes]
    rfl
  have at0 : t.drop 0 = hyphenate [8, 4, 4, 4] (digits.drop 0) := hyphenated
  have at9 : t.drop 9 = hyphenate [4, 4, 4] (digits.drop 8) := drop_of_hyphenate at0 (by omega)
  have at14 : t.drop 14 = hyphenate [4, 4] (digits.drop 12) := drop_of_hyphenate at9 (by omega)
  have at19 : t.drop 19 = hyphenate [4] (digits.drop 16) := drop_of_hyphenate at14 (by omega)
  have at24 : t.drop 24 = digits.drop 20 := drop_of_hyphenate at19 (by omega)
  have timeLow : Hex.leading t = BigEndian.value (u.bytes.take 4) :=
    leading_of_hyphenate (n := 4) (k := 0) (m := 0) paired at0
  have timeMid : Hex.leading (t.drop 9) = BigEndian.value ((u.bytes.drop 4).take 2) :=
    leading_of_hyphenate paired at9
  have timeHigh : Hex.leading (t.drop 14) = BigEndian.value ((u.bytes.drop 6).take 2) :=
    leading_of_hyphenate paired at14
  have clock : Hex.leading (t.drop 19) = BigEndian.value ((u.bytes.drop 8).take 2) :=
    leading_of_hyphenate paired at19
  have node := map_leading_of_pairs? (Hex.pairs?_drop paired 10)
  have six : (u.bytes.drop 10).length = 6 := by
    rw [List.length_drop, length_bytes]
    rfl
  rw [six, ← at24] at node
  simp only [List.drop_drop] at node
  rw [fieldsAt, fields, timeLow, timeMid, timeHigh, clock, node]

/-- A text that is over before its end has a NUL, which may stand in no place. -/
theorem ofFields?_eq_ofHyphenated? (length : t.length = 36) : ofFields? t = ofHyphenated? t := by
  have whole (ended : t.untilNul.length = 36) : t.untilNul = t :=
    (List.takeWhile_prefix _).eq_of_length (ended.trans length.symm)
  cases read : ofHyphenated? t with
  | none =>
    have refused : ¬ Hyphenated t := by
      intro hyphenated
      obtain ⟨u, given⟩ := exists_of_hyphenated hyphenated
      exact nomatch read.symm.trans given
    apply if_neg
    rintro ⟨ended, placed⟩
    rw [whole ended] at placed
    exact refused (hyphenated_iff_inPlaces.mpr ⟨length, placed⟩)
  | some u =>
    have hyphenated := hyphenated_of_ofHyphenated? read
    have bare : (0 : UInt8) ∉ t := by
      intro member
      have written : (0 : UInt8) ∈ Text.inCase .upper t := List.mem_map.mpr ⟨0, member, rfl⟩
      rw [(ofHyphenated?_eq_some_iff .upper).mp read] at written
      exact absurd (mem_text written) (by decide)
    have placed := hyphenated_iff_inPlaces.mp hyphenated
    rw [ofFields?, Text.untilNul_of_not_mem bare, if_pos placed, fieldsAt_of_ofHyphenated? read,
      pack_fields, ofBytes_bytes]

theorem parseFields_eq_parse (t : Text) : parseFields t = parse t := by
  have same : (if (Text.trim Text.blanks t).length = 36 then ofFields? (Text.trim Text.blanks t)
      else none) = ofHyphenated? (Text.trim Text.blanks t) := by
    split
    · next length => exact ofFields?_eq_ofHyphenated? length
    · next other => rw [ofHyphenated?, if_neg other]
  cases read : ofHyphenated? (Text.trim Text.blanks t) <;> simp only [parseFields, parse, same, read]

end Uuid
end BluetoothUuid
