import BluetoothUuid.Uuid.Base
import BluetoothUuid.Uuid.Record

/-! The UUIDs that the steps of a session are given: written out, read from text or JSON, widened,
or taken from a named slot. -/
namespace BluetoothUuid.Session

/-- Named UUIDs. The latest entry of a name counts. -/
abbrev Slots := List (String × SomeUuid)

namespace Slots

/-- A name without an entry holds the zero UUID of 16 bits. -/
def get (slots : Slots) (name : String) : SomeUuid := (slots.lookup name).getD default

def put (slots : Slots) (name : String) (u : SomeUuid) : Slots := (name, u) :: slots

theorem get_put (slots : Slots) (name other : String) (u : SomeUuid) :
    (slots.put name u).get other = if other = name then u else slots.get other := by
  by_cases same : other = name
  · simp [get, put, same]
  · simp [get, put, List.lookup_cons, same, beq_false_of_ne same]

end Slots

inductive Operand where
  | value (u : SomeUuid)
  | parsed (text : Text)
  | json (j : Json)
  | widened32 (operand : Operand)
  | widened128 (operand : Operand)
  | full (operand : Operand)
  | slot (name : String)

namespace Operand

def eval (slots : Slots) : Operand → Except Error SomeUuid
  | value u => .ok u
  | parsed text => do return ⟨.bits128, ← Uuid.parse text⟩
  | json j => SomeUuid.ofJson j
  | widened32 operand => do (← operand.eval slots).widen32
  | widened128 operand => do (← operand.eval slots).widen128
  | full operand => do return ⟨.bits128, (← operand.eval slots).toFull⟩
  | slot name => .ok (slots.get name)

/-- The value of an operand that has to be of a kind. -/
def evalAs (k : Kind) (slots : Slots) (operand : Operand) : Except Error (Uuid k) := do
  match (← operand.eval slots).as? k with
  | some u => .ok u
  | none => .error .otherKind

/-- The values of operands that all have to be of a kind. -/
def evalAll (k : Kind) (slots : Slots) (operands : List Operand) : Except Error (List (Uuid k)) :=
  operands.mapM (evalAs k slots)

end Operand
end BluetoothUuid.Session
