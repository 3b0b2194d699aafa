import BluetoothUuid.Error

/-! Hexadecimal text. Writing gives two digits per byte, high half first. Reading takes digits
of either case in pairs and ignores separators around the pairs, but not inside one. -/
namespace BluetoothUuid

inductive LetterCase where
  | lower
  | upper
  deriving DecidableEq, Repr

namespace Hex

def digit (letters : LetterCase) (nibble : Fin 16) : UInt8 :=
  if nibble < 10 then '0'.toUInt8 + UInt8.ofNat nibble
  else
    match letters with
    | .lower => 'a'.toUInt8 + UInt8.ofNat (nibble - 10)
    | .upper => 'A'.toUInt8 + UInt8.ofNat (nibble - 10)

def nibble? (c : UInt8) : Option (Fin 16) :=
  if '0'.toUInt8 ≤ c ∧ c ≤ '9'.toUInt8 then some (Fin.ofNat 16 (c - '0'.toUInt8).toNat)
  else if 'a'.toUInt8 ≤ c ∧ c ≤ 'f'.toUInt8 then
    some (Fin.ofNat 16 (c - 'a'.toUInt8 + 10).toNat)
  else if 'A'.toUInt8 ≤ c ∧ c ≤ 'F'.toUInt8 then
    some (Fin.ofNat 16 (c - 'A'.toUInt8 + 10).toNat)
  else none

def isDigit (c : UInt8) : Bool := (nibble? c).isSome

/-- Space, tab, line feed, vertical tab, form feed, carriage return, colon and hyphen. -/
def separators : Text := Text.ofString " \t\n\x0b\x0c\r:-"

def isSeparator (c : UInt8) : Bool := separators.contains c

theorem nibble?_digit : ∀ letters nibble, nibble? (digit letters nibble) = some nibble := by
  intro letters; cases letters <;> decide

theorem not_isSeparator_digit : ∀ letters nibble, isSeparator (digit letters nibble) = false := by
  intro letters; cases letters <;> decide

def highHalf (b : UInt8) : Fin 16 := ⟨b.toNat / 16, by have := b.toNat_lt; omega⟩

def lowHalf (b : UInt8) : Fin 16 := ⟨b.toNat % 16, by omega⟩

def pair (high low : Fin 16) : UInt8 :=
  UInt8.ofNatLT (16 * high + low) (by simp only [UInt8.size]; omega)

@[simp] theorem pair_halves (b : UInt8) : pair (highHalf b) (lowHalf b) = b := by
  rw [← UInt8.toNat_inj]
  simp only [pair, highHalf, lowHalf, UInt8.toNat_ofNatLT]
  omega

@[simp] theorem highHalf_pair (high low : Fin 16) : highHalf (pair high low) = high := by
  ext; simp only [pair, highHalf, UInt8.toNat_ofNatLT]; omega

@[simp] theorem lowHalf_pair (high low : Fin 16) : lowHalf (pair high low) = low := by
  ext; simp only [pair, lowHalf, UInt8.toNat_ofNatLT]; omega

def encodeByte (letters : LetterCase) (b : UInt8) : Text :=
  [digit letters (highHalf b), digit letters (lowHalf b)]

def encode (letters : LetterCase) (bs : Bytes) : Text := bs.flatMap (encodeByte letters)

@[simp] theorem encode_nil (letters : LetterCase) : encode letters [] = [] := rfl

@[simp] theorem encode_cons (letters : LetterCase) (b : UInt8) (bs : Bytes) :
    encode letters (b :: bs) =
      digit letters (highHalf b) :: digit letters (lowHalf b) :: encode letters bs := rfl

@[simp] theorem length_encode (letters : LetterCase) (bs : Bytes) :
    (encode letters bs).length = 2 * bs.length := by
  induction bs with
  | nil => rfl
  | cons b bs ih => simp only [encode_cons, List.length_cons, ih]; omega

/-- Reads pairs of digits with separators around them. The leftmost offence is the error. -/
def decode : Text → Except Error Bytes
  | [] => .ok []
  | c :: rest =>
    if isSeparator c then decode rest
    else
      match nibble? c, rest with
      | none, _ => .error .illegalHexCharacter
      | some _, [] => .error .oddHexDigits
      | some high, d :: rest =>
        if isSeparator d then .error .splitHexPair
        else
          match nibble? d with
          | none => .error .illegalHexCharacter
          | some low => (decode rest).map (pair high low :: ·)

theorem decode_encode (letters : LetterCase) (bs : Bytes) :
    decode (encode letters bs) = .ok bs := by
  induction bs with
  | nil => rfl
  | cons b bs ih =>
    simp [decode, nibble?_digit, not_isSeparator_digit, ih, Except.map]

/-- Reads pairs of digits and nothing else. -/
def pairs? : Text → Option Bytes
  | [] => some []
  | [_] => none
  | c :: d :: rest =>
    match nibble? c, nibble? d, pairs? rest with
    | some high, some low, some bs => some (pair high low :: bs)
    | _, _, _ => none

theorem pairs?_encode (letters : LetterCase) (bs : Bytes) :
    pairs? (encode letters bs) = some bs := by
  induction bs with
  | nil => rfl
  | cons b bs ih => simp [pairs?, nibble?_digit, ih]

end Hex
end BluetoothUuid
