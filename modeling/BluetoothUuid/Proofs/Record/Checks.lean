import BluetoothUuid.Uuid.Record
import BluetoothUuid.Uuid.Text.Parse

/-! What a record is checked for, and in which order. The first check that fails is the one that is
reported. A text that passes all checks is read without fail, so that neither the reader of hex text
nor a cursor ever complains about a record. -/
namespace BluetoothUuid

namespace Error

/-- The errors of a cursor, which has no room or nothing left. All others are about an argument. -/
def ofCursor : Error → Bool
  | endOfInput _ _ | bufferTooSmall _ _ => true
  | _ => false

end Error

namespace Record
open BluetoothUuid.Error (quotedUntilNul bind_eq_ok_iff bind_eq_error_iff bind_eq_error_iff_of)
open BluetoothUuid.Text (ofString decimal signedDecimal)

/-- The integer that is the number of bits, if there is one. -/
def bits? (j : Json) : Option Int := (j.member? bitsKey).bind Json.toInt?

/-- The string that is the text, if there is one. -/
def text? (j : Json) : Option Text := (j.member? uuidKey).bind Json.toText?

/-- A shortened UUID is spelled by as many digits as it has, a full one by what is parsed as it. -/
def Spells (t : Text) {k : Kind} (u : Uuid k) : Prop :=
  match k with
  | .bits128 => Uuid.parse t = .ok u
  | k => t.length = k.bits / 4 ∧ Hex.number? t = some u.value.toNat

/-- What is wrong with a text that spells no UUID of the kind, and how this is reported. Texts are quoted
as far as their first NUL. -/
inductive TextFault (k : Kind) (t : Text) : Error → Text → Prop
  | digitCount (shortened : k ≠ .bits128) (count : t.length ≠ k.bits / 4) :
      TextFault k t (.digitCount (k.bits / 4) t)
        (ofString "UUID json: expected " ++ decimal (k.bits / 4) ++ ofString " hex digits, got " ++
          quotedUntilNul t)
  | notHexDigits (shortened : k ≠ .bits128) (count : t.length = k.bits / 4) {c : UInt8}
      (member : c ∈ t) (other : Hex.nibble? c = none) :
      TextFault k t (.notHexDigits t)
        (ofString "UUID json: not a hex digit in " ++ quotedUntilNul t)
  | notFullUuid (full : k = .bits128) {e : Error} (refused : Uuid.parse t = .error e) :
      TextFault k t e (ofString "not a 128-bit UUID: " ++ quotedUntilNul t)

/-- The first check that a record of the kind fails, and how this is reported. The number of bits is an
integer, and is one of a kind, and of this kind, then the text is a string, and then it spells a UUID. -/
inductive FirstFault (k : Kind) (j : Json) : Error → Text → Prop
  | missingBits (missing : bits? j = none) :
      FirstFault k j .missingBits (ofString "UUID json: missing integer field \"bits\"")
  | wrongBits {n : Int} (found : bits? j = some n) (wrong : n ≠ 16 ∧ n ≠ 32 ∧ n ≠ 128) :
      FirstFault k j (.wrongBits n)
        (ofString "UUID json: \"bits\" must be 16, 32 or 128, got " ++ signedDecimal n)
  | otherBits {other : Kind} (found : kind j = .ok other) (different : other ≠ k) :
      FirstFault k j (.otherBits k.bits other.bits)
        (ofString "UUID json: expected " ++ decimal k.bits ++ ofString "-bit UUID, got " ++
          decimal other.bits)
  | missingText (found : kind j = .ok k) (missing : text? j = none) :
      FirstFault k j .missingText (ofString "UUID json: missing string field \"uuid\"")
  | text (found : kind j = .ok k) {t : Text} (given : text? j = some t) {e : Error} {words : Text}
      (fault : TextFault k t e words) : FirstFault k j e words

variable {k : Kind} {j : Json} {t words : Text} {u : Uuid k} {e : Error} {count : Nat}

theorem kind_eq_ok_iff : kind j = .ok k ↔ bits? j = some (k.bits : Int) := by
  rw [kind, ← bits?]
  cases bits? j with
  | none => simp
  | some n =>
    rw [Option.some.injEq, ← Kind.ofBits?_eq_some_iff]
    cases given : Kind.ofBits? n <;> simp [given]

theorem kind_eq_error_iff :
    kind j = .error e ↔
      bits? j = none ∧ e = .missingBits ∨
        ∃ n, bits? j = some n ∧ (n ≠ 16 ∧ n ≠ 32 ∧ n ≠ 128) ∧ e = .wrongBits n := by
  rw [kind, ← bits?]
  cases bits? j with
  | none => simp [eq_comm]
  | some n =>
    simp only [reduceCtorEq, false_and, false_or, Option.some.injEq, exists_eq_left']
    rw [← Kind.ofBits?_eq_none_iff]
    cases Kind.ofBits? n <;> simp [eq_comm]

theorem requireBits_eq_ok_iff : requireBits k.bits j = .ok () ↔ kind j = .ok k := by
  rw [requireBits, bind_eq_ok_iff]
  constructor
  · rintro ⟨found, told, passed⟩
    split at passed
    · next same =>
      rw [Kind.bits_inj.mp same] at told
      exact told
    · contradiction
  · intro told
    exact ⟨k, told, if_pos rfl⟩

theorem requireBits_eq_error_iff :
    requireBits k.bits j = .error e ↔
      kind j = .error e ∨
        ∃ other, kind j = .ok other ∧ other ≠ k ∧ e = .otherBits k.bits other.bits := by
  apply bind_eq_error_iff_of Iff.rfl fun _ => Iff.rfl
  intro other _
  simp only [Kind.bits_inj]
  by_cases same : other = k <;> simp [same, eq_comm]

theorem text_eq_ok_iff : text j = .ok t ↔ text? j = some t := by
  rw [text, ← text?]
  cases text? j <;> simp

theorem text_eq_error_iff : text j = .error e ↔ text? j = none ∧ e = .missingText := by
  rw [text, ← text?]
  cases text? j <;> simp [eq_comm]

theorem digits_eq_ok_iff :
    digits count j = .ok t ↔
      text? j = some t ∧ t.length = count ∧ ∀ c ∈ t, Hex.isDigit c = true := by
  rw [digits, bind_eq_ok_iff]
  simp only [text_eq_ok_iff]
  constructor
  · rintro ⟨given, found, passed⟩
    split at passed
    · contradiction
    · split at passed
      · next length all =>
        cases passed
        exact ⟨found, Decidable.of_not_not length, List.all_eq_true.mp all⟩
      · contradiction
  · rintro ⟨found, length, all⟩
    refine ⟨t, found, ?_⟩
    rw [if_neg (not_not_intro length), if_pos (List.all_eq_true.mpr all)]

theorem exists_not_digit_of_all_eq_false (some_other : ¬ t.all Hex.isDigit = true) :
    ∃ c ∈ t, Hex.nibble? c = none := by
  simpa [Hex.isDigit] using some_other

theorem digits_eq_error_iff :
    digits count j = .error e ↔
      text? j = none ∧ e = .missingText ∨
        ∃ t, text? j = some t ∧
          (t.length ≠ count ∧ e = .digitCount count t ∨
            t.length = count ∧ (∃ c ∈ t, Hex.nibble? c = none) ∧ e = .notHexDigits t) := by
  apply bind_eq_error_iff_of text_eq_error_iff fun _ => text_eq_ok_iff
  intro t _
  constructor
  · intro failed
    split at failed
    · next length =>
      cases failed
      exact .inl ⟨length, rfl⟩
    · next length =>
      split at failed
      · contradiction
      · next other =>
        cases failed
        exact .inr ⟨Decidable.of_not_not length, exists_not_digit_of_all_eq_false other, rfl⟩
  · rintro (⟨length, rfl⟩ | ⟨length, ⟨c, member, other⟩, rfl⟩)
    · exact if_pos length
    · have not_all : ¬ t.all Hex.isDigit = true := by
        intro all
        have digit := List.all_eq_true.mp all c member
        rw [Hex.isDigit, other] at digit
        contradiction
      rw [if_neg (not_not_intro length), if_neg not_all]

theorem spells_iff_of_shortened (shortened : k ≠ .bits128) :
    Spells t u ↔ Hex.pairs? t = some u.bytes := by
  have meaning : Spells t u ↔ t.length = k.bits / 4 ∧ Hex.number? t = some u.value.toNat := by
    cases k with
    | bits16 | bits32 => exact Iff.rfl
    | bits128 => contradiction
  rw [meaning, Kind.bits_div_four]
  constructor
  · rintro ⟨length, number⟩
    obtain ⟨bs, read⟩ := Hex.exists_pairs? length (Hex.isDigit_of_number? number)
    have size : bs.length = k.size := by
      rw [Hex.length_of_pairs? read] at length
      omega
    rw [Hex.number?_of_pairs? read] at number
    have same : BigEndian.value bs = BigEndian.value u.bytes := by
      rw [Uuid.value_bytes]
      exact Option.some.inj number
    rw [read, BigEndian.value_injective (size.trans u.length_bytes.symm) same]
  · intro read
    constructor
    · rw [Hex.length_of_pairs? read, Uuid.length_bytes]
    · rw [Hex.number?_of_pairs? read, Uuid.value_bytes]

/-- As many digits as a shortened UUID has spell one. -/
theorem exists_spells (shortened : k ≠ .bits128) (length : t.length = k.bits / 4)
    (digits : ∀ c ∈ t, Hex.isDigit c = true) : ∃ u : Uuid k, Spells t u := by
  rw [Kind.bits_div_four] at length
  obtain ⟨bs, read⟩ := Hex.exists_pairs? length digits
  have size : bs.length = k.size := by
    rw [Hex.length_of_pairs? read] at length
    omega
  refine ⟨Uuid.ofBytes k bs, (spells_iff_of_shortened shortened).mpr ?_⟩
  rw [read, Uuid.bytes_ofBytes size]

/-- What spells a shortened UUID is decoded to its bytes, and these are all that it takes. -/
theorem front_decode (shortened : k ≠ .bits128) (spelled : Spells t u) :
    (Hex.decode t >>= Uuid.front k) = .ok u := by
  have read := (spells_iff_of_shortened shortened).mp spelled
  rw [Hex.decode_of_pairs? read]
  exact u.front_bytes

theorem value_of_shortened (shortened : k ≠ .bits128) :
    value j k = digits (k.bits / 4) j >>= fun t => Hex.decode t >>= Uuid.front k := by
  cases k with
  | bits16 | bits32 => rfl
  | bits128 => contradiction

theorem value_eq_ok_iff : value j k = .ok u ↔ ∃ t, text? j = some t ∧ Spells t u := by
  by_cases full : k = .bits128
  · subst full
    rw [value, bind_eq_ok_iff]
    simp only [text_eq_ok_iff, Spells]
  · rw [value_of_shortened full, bind_eq_ok_iff]
    apply exists_congr
    intro t
    rw [digits_eq_ok_iff]
    constructor
    · rintro ⟨⟨given, length, digits⟩, decoded⟩
      obtain ⟨v, spelled⟩ := exists_spells full length digits
      obtain rfl := Except.ok.inj ((front_decode full spelled).symm.trans decoded)
      exact ⟨given, spelled⟩
    · rintro ⟨given, spelled⟩
      have read := (spells_iff_of_shortened full).mp spelled
      have length : t.length = k.bits / 4 := by
        rw [Hex.length_of_pairs? read, Uuid.length_bytes, Kind.bits_div_four]
      exact ⟨⟨given, length, Hex.isDigit_of_pairs? read⟩, front_decode full spelled⟩

theorem value_eq_error_iff :
    value j k = .error e ↔
      text? j = none ∧ e = .missingText ∨ ∃ t, text? j = some t ∧ ∃ words, TextFault k t e words := by
  by_cases full : k = .bits128
  · subst full
    apply bind_eq_error_iff_of text_eq_error_iff fun _ => text_eq_ok_iff
    intro t _
    constructor
    · intro refused
      exact ⟨_, .notFullUuid rfl refused⟩
    · rintro ⟨_, ⟨shortened⟩ | ⟨shortened⟩ | ⟨_, refused⟩⟩
      · contradiction
      · contradiction
      · exact refused
  · rw [value_of_shortened full, bind_eq_error_iff, digits_eq_error_iff]
    constructor
    · rintro ((missing | ⟨t, given, ⟨count, rfl⟩ | ⟨count, ⟨c, member, other⟩, rfl⟩⟩) |
        ⟨t, passed, failed⟩)
      · exact .inl missing
      · exact .inr ⟨t, given, _, .digitCount full count⟩
      · exact .inr ⟨t, given, _, .notHexDigits full count member other⟩
      · -- The text passed all checks, so what follows them cannot fail.
        obtain ⟨_, length, digits⟩ := digits_eq_ok_iff.mp passed
        obtain ⟨u, spelled⟩ := exists_spells full length digits
        rw [front_decode full spelled] at failed
        contradiction
    · rintro (missing | ⟨t, given, _, fault⟩)
      · exact .inl (.inl missing)
      · cases fault with
        | digitCount _ count => exact .inl (.inr ⟨t, given, .inl ⟨count, rfl⟩⟩)
        | notHexDigits _ count member other =>
          exact .inl (.inr ⟨t, given, .inr ⟨count, ⟨_, member, other⟩, rfl⟩⟩)
        | notFullUuid same _ => contradiction

theorem ofJson_eq_ok_iff :
    Uuid.ofJson k j = .ok u ↔ kind j = .ok k ∧ ∃ t, text? j = some t ∧ Spells t u := by
  rw [Uuid.ofJson, bind_eq_ok_iff, ← value_eq_ok_iff]
  constructor
  · rintro ⟨_, told, read⟩
    exact ⟨requireBits_eq_ok_iff.mp told, read⟩
  · rintro ⟨told, read⟩
    exact ⟨(), requireBits_eq_ok_iff.mpr told, read⟩

theorem ofJson_eq_error_iff : Uuid.ofJson k j = .error e ↔ ∃ words, FirstFault k j e words := by
  rw [Uuid.ofJson, bind_eq_error_iff, requireBits_eq_error_iff, kind_eq_error_iff]
  constructor
  · rintro (((⟨missing, rfl⟩ | ⟨n, found, wrong, rfl⟩) | ⟨other, found, different, rfl⟩) |
      ⟨_, told, failed⟩)
    · exact ⟨_, .missingBits missing⟩
    · exact ⟨_, .wrongBits found wrong⟩
    · exact ⟨_, .otherBits found different⟩
    · have found := requireBits_eq_ok_iff.mp told
      obtain ⟨missing, rfl⟩ | ⟨t, given, words, fault⟩ := value_eq_error_iff.mp failed
      · exact ⟨_, .missingText found missing⟩
      · exact ⟨words, .text found given fault⟩
  · rintro ⟨words, fault⟩
    cases fault with
    | missingBits missing => exact .inl (.inl (.inl ⟨missing, rfl⟩))
    | wrongBits found wrong => exact .inl (.inl (.inr ⟨_, found, wrong, rfl⟩))
    | otherBits found different => exact .inl (.inr ⟨_, found, different, rfl⟩)
    | missingText found missing =>
      exact .inr ⟨(), requireBits_eq_ok_iff.mpr found, value_eq_error_iff.mpr (.inl ⟨missing, rfl⟩)⟩
    | text found given fault =>
      exact .inr ⟨(), requireBits_eq_ok_iff.mpr found,
        value_eq_error_iff.mpr (.inr ⟨_, given, _, fault⟩)⟩

end Record
end BluetoothUuid
