import BluetoothUuid.Text

/-! Why an operation fails, and how the cause is worded. -/
namespace BluetoothUuid

inductive Error where
  | endOfInput (requested available : Nat)
  | bufferTooSmall (requested available : Nat)
  | nullInput
  | nullOutput
  | splitHexPair
  | illegalHexCharacter
  | oddHexDigits
  | notFullUuid (text : Text)
  | noKindOfLength (length : Nat)
  | noKindOfTag
  | missingBits
  | wrongBits (found : Int)
  | otherBits (expected found : Int)
  | missingText
  | digitCount (expected : Nat) (text : Text)
  | notHexDigits (text : Text)
  /-- The cause of no reader or writer: a session was given a UUID of the wrong kind. -/
  | otherKind
  deriving DecidableEq, Repr

namespace Error
open Text

def quoted (t : Text) : Text := '"'.toUInt8 :: t ++ ['"'.toUInt8]

/-- The whole wording of a cause, quoted texts included. -/
def wording : Error → Text
  | endOfInput requested available =>
      ofString "unexpected end of input: need " ++ decimal requested ++
        ofString " bytes, " ++ decimal available ++ ofString " left"
  | bufferTooSmall requested available =>
      ofString "buffer too small: need " ++ decimal requested ++
        ofString " bytes, " ++ decimal available ++ ofString " left"
  | nullInput => ofString "ByteReader: null buffer with non-zero length"
  | nullOutput => ofString "ByteWriter: null buffer with non-zero length"
  | splitHexPair => ofString "Separator inside a hex byte."
  | illegalHexCharacter =>
      ofString "This contains characters not legal in a hex encoded string."
  | oddHexDigits => ofString "Odd number of hex digits."
  | notFullUuid text => ofString "not a 128-bit UUID: " ++ quoted text
  | noKindOfLength length => ofString "no UUID is " ++ decimal length ++ ofString " bytes long"
  | noKindOfTag => ofString "unknown UuidKind"
  | missingBits => ofString "UUID json: missing integer field \"bits\""
  | wrongBits found =>
      ofString "UUID json: \"bits\" must be 16, 32 or 128, got " ++ signedDecimal found
  | otherBits expected found =>
      ofString "UUID json: expected " ++ signedDecimal expected ++
        ofString "-bit UUID, got " ++ signedDecimal found
  | missingText => ofString "UUID json: missing string field \"uuid\""
  | digitCount expected text =>
      ofString "UUID json: expected " ++ decimal expected ++
        ofString " hex digits, got " ++ quoted text
  | notHexDigits text => ofString "UUID json: not a hex digit in " ++ quoted text
  | otherKind => ofString "the operation does not take a UUID of this kind"

/-- The wording as it is reported: NUL-terminated, so a quoted NUL ends it early. -/
def message (e : Error) : Text := untilNul e.wording

/-- There is no NUL in a number, so that all of it is reported. -/
theorem message_noKindOfLength (n : Nat) :
    (noKindOfLength n).message =
      ofString "no UUID is " ++ decimal n ++ ofString " bytes long" := by
  apply untilNul_of_not_mem
  simp only [wording, List.mem_append, not_or]
  refine ⟨⟨?_, zero_not_mem_decimal n⟩, ?_⟩ <;> decide

theorem message_wrongBits (found : Int) :
    (wrongBits found).message =
      ofString "UUID json: \"bits\" must be 16, 32 or 128, got " ++ signedDecimal found := by
  apply untilNul_of_not_mem
  simp only [wording, List.mem_append, not_or]
  exact ⟨by decide, zero_not_mem_signedDecimal found⟩

theorem message_otherBits (expected found : Int) :
    (otherBits expected found).message =
      ofString "UUID json: expected " ++ signedDecimal expected ++
        ofString "-bit UUID, got " ++ signedDecimal found := by
  apply untilNul_of_not_mem
  simp only [wording, List.mem_append, not_or]
  refine ⟨⟨⟨?_, zero_not_mem_signedDecimal expected⟩, ?_⟩, zero_not_mem_signedDecimal found⟩ <;>
    decide

/-- A text between quotes as far as it is reported: of one with a NUL, what comes before the first. -/
def quotedUntilNul (t : Text) : Text :=
  ofString "\"" ++ if (0 : UInt8) ∈ t then untilNul t else t ++ ofString "\""

theorem untilNul_quoted (t : Text) : untilNul (quoted t) = quotedUntilNul t := by
  have opening : (0 : UInt8) ∉ ofString "\"" := by decide
  have whole : quoted t = ofString "\"" ++ (t ++ ofString "\"") := rfl
  rw [whole, untilNul_append opening, quotedUntilNul]
  split
  · next present => rw [untilNul_append_of_mem present]
  · next absent => rw [untilNul_append absent, untilNul_of_not_mem opening]

theorem message_notFullUuid (t : Text) :
    (notFullUuid t).message = ofString "not a 128-bit UUID: " ++ quotedUntilNul t := by
  have opening : (0 : UInt8) ∉ ofString "not a 128-bit UUID: " := by decide
  rw [message, wording, untilNul_append opening, untilNul_quoted]

variable {α β : Type} {first : Except Error α} {next : α → Except Error β} {b : β} {e : Error}

theorem bind_eq_ok_iff : first >>= next = .ok b ↔ ∃ a, first = .ok a ∧ next a = .ok b := by
  cases first with
  | ok a =>
    constructor
    · intro given
      exact ⟨a, rfl, given⟩
    · rintro ⟨_, ⟨⟩, given⟩
      exact given
  | error cause =>
    constructor
    · rintro ⟨⟩
    · rintro ⟨_, ⟨⟩, _⟩

theorem bind_eq_error_iff :
    first >>= next = .error e ↔ first = .error e ∨ ∃ a, first = .ok a ∧ next a = .error e := by
  cases first with
  | ok a =>
    constructor
    · intro failed
      exact .inr ⟨a, rfl, failed⟩
    · rintro (⟨⟨⟩⟩ | ⟨_, ⟨⟩, failed⟩)
      exact failed
  | error cause =>
    constructor
    · rintro ⟨⟩
      exact .inl rfl
    · rintro (⟨⟨⟩⟩ | ⟨_, ⟨⟩, _⟩)
      rfl

/-- Two checks one after the other fail as the first does, or as the second does on what passed. -/
theorem bind_eq_error_iff_of {Stopped : Prop} {Passed Later : α → Prop}
    (stopped : first = .error e ↔ Stopped) (passed : ∀ a, first = .ok a ↔ Passed a)
    (later : ∀ a, Passed a → (next a = .error e ↔ Later a)) :
    first >>= next = .error e ↔ Stopped ∨ ∃ a, Passed a ∧ Later a := by
  rw [bind_eq_error_iff, stopped]
  apply or_congr_right
  apply exists_congr
  intro a
  rw [passed]
  exact and_congr_right (later a)

end Error
end BluetoothUuid
