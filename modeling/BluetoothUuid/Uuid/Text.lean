import BluetoothUuid.Hex
import BluetoothUuid.Text.Trim
import BluetoothUuid.Uuid

/-! UUIDs as text: the hex digits of their bytes. A full UUID may have hyphens after its first 8,
12, 16 and 20 digits, and only that form is read back as one. -/
namespace BluetoothUuid

structure Format where
  letters : LetterCase
  hyphens : Bool
  deriving DecidableEq, Repr

namespace Format

def canonical : Format := ⟨.upper, true⟩

def lower : Format := ⟨.lower, true⟩

def compact (letters : LetterCase) : Format := ⟨letters, false⟩

end Format

namespace Uuid
variable {k : Kind}

def hyphen : UInt8 := '-'.toUInt8

/-- The numbers of digits before each hyphen. The rest follows the last one. -/
def groups : List Nat := [8, 4, 4, 4]

/-- Puts a hyphen behind each group. -/
def hyphenate : List Nat → Text → Text
  | [], digits => digits
  | n :: ns, digits => digits.take n ++ hyphen :: hyphenate ns (digits.drop n)

/-- Takes out the hyphen behind each group, where all must be. -/
def unhyphenate? : List Nat → Text → Option Text
  | [], t => some t
  | n :: ns, t =>
    match t.drop n with
    | [] => none
    | c :: rest => if c = hyphen then (unhyphenate? ns rest).map (t.take n ++ ·) else none

def text (f : Format) (u : Uuid k) : Text :=
  let digits := Hex.encode f.letters u.bytes
  if k = .bits128 ∧ f.hyphens then hyphenate groups digits else digits

/-- Reads 36 bytes with hyphens in their places and digits of either case elsewhere. -/
def ofHyphenated? (t : Text) : Option (Uuid .bits128) :=
  if t.length = 36 then
    ((unhyphenate? groups t).bind Hex.pairs?).map (ofBytes .bits128)
  else none

/-- Reads a full UUID with blanks around it. -/
def parse (t : Text) : Except Error (Uuid .bits128) :=
  match ofHyphenated? (Text.trim Text.blanks t) with
  | some u => .ok u
  | none => .error (.notFullUuid t)

end Uuid

namespace SomeUuid

def text (f : Format) (u : SomeUuid) : Text := u.uuid.text f

end SomeUuid
end BluetoothUuid
