import BluetoothUuid.Text

/-! JSON values, as far as they are looked at. Numbers keep the distinction between 64-bit integers and
all others, as their written form makes it. How a value is written is left to a library. -/
namespace BluetoothUuid

/-- Digits alone are unsigned, digits after a minus sign are signed. A number with a fraction or an
exponent, or one that 64 bits do not hold, is kept as it was written. -/
inductive Json.Number where
  | unsigned (value : UInt64)
  | signed (value : Int64)
  | other (written : Text)
  deriving DecidableEq, Repr

inductive Json where
  | null
  | bool (b : Bool)
  | number (n : Json.Number)
  | string (t : Text)
  | array (items : List Json)
  | object (members : List (Text × Json))

namespace Json

/-- The value of a member, if this is an object that has it. -/
def member? (key : Text) : Json → Option Json
  | object members => members.lookup key
  | _ => none

def Number.toInt? : Number → Option Int
  | unsigned value => some value.toNat
  | signed value => some value.toInt
  | other _ => none

def toInt? : Json → Option Int
  | number n => n.toInt?
  | _ => none

def toText? : Json → Option Text
  | string t => some t
  | _ => none

end Json
end BluetoothUuid
