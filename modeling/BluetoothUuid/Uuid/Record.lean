import BluetoothUuid.Json
import BluetoothUuid.Uuid.Text

/-! The JSON record of a UUID is an object with its number of bits and its text. Reading one checks
the number first, then that the text is one, then its form, and reports the first fault. Other
members are ignored. -/
namespace BluetoothUuid

namespace Record

def bitsKey : Text := Text.ofString "bits"

def uuidKey : Text := Text.ofString "uuid"

def make (bits : Int64) (text : Text) : Json :=
  .object [(bitsKey, .number (.signed bits)), (uuidKey, .string text)]

/-- The kind that the number of bits tells. -/
def kind (j : Json) : Except Error Kind :=
  match (j.member? bitsKey).bind Json.toInt? with
  | none => .error .missingBits
  | some bits =>
    match Kind.ofBits? bits with
    | some k => .ok k
    | none => .error (.wrongBits bits)

def requireBits (expected : Int) (j : Json) : Except Error Unit := do
  let k ← kind j
  if (k.bits : Int) = expected then .ok () else .error (.otherBits expected k.bits)

def text (j : Json) : Except Error Text :=
  match (j.member? uuidKey).bind Json.toText? with
  | some t => .ok t
  | none => .error .missingText

/-- The text if it is that many hex digits and nothing else. -/
def digits (count : Nat) (j : Json) : Except Error Text := do
  let t ← text j
  if t.length ≠ count then .error (.digitCount count t)
  else if t.all Hex.isDigit then .ok t
  else .error (.notHexDigits t)

/-- Reads the text alone: bare digits for a shortened UUID, as `Uuid.parse` does for a full one. -/
def value (j : Json) : (k : Kind) → Except Error (Uuid k)
  | .bits128 => do Uuid.parse (← text j)
  | k => do Uuid.front k (← Hex.decode (← digits (2 * k.size) j))

end Record

namespace Uuid
variable {k : Kind}

def toJson (u : Uuid k) : Json := Record.make (Int64.ofNat k.bits) (u.text .canonical)

/-- Reads a record of the kind. -/
def ofJson (k : Kind) (j : Json) : Except Error (Uuid k) := do
  Record.requireBits k.bits j
  Record.value j k

end Uuid

namespace SomeUuid

def toJson (u : SomeUuid) : Json := u.uuid.toJson

/-- Reads a record of whichever kind it tells. -/
def ofJson (j : Json) : Except Error SomeUuid := do
  let k ← Record.kind j
  return ⟨k, ← Uuid.ofJson k j⟩

end SomeUuid
end BluetoothUuid
