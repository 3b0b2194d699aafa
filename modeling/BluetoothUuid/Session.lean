import BluetoothUuid.Item
import BluetoothUuid.Session.Operand

/-! A session reads one block, writes another and keeps UUIDs in named slots, step by step. A step
that fails changes nothing, but for a list that is read up to a trailing part: the whole UUIDs
before that stay consumed. Nothing is taken back for that: each step checks before it acts. -/
namespace BluetoothUuid

structure Session where
  reader : Cursor
  writer : Cursor
  slots : Session.Slots

namespace Session

/-- How the kind of a UUID to read is told. -/
inductive KindChoice where
  | kind (k : Kind)
  | tag (n : Int)
  | length (n : Nat)
  deriving DecidableEq, Repr

def KindChoice.resolve : KindChoice → Except Error Kind
  | kind k => .ok k
  | tag n => Kind.ofTag n
  | length n => Kind.ofLength n

inductive Step where
  | read (shape : Shape)
  | skip (count : Nat)
  | decode (choice : KindChoice) (slot : Option String)
  | write (item : Item)
  | writeZeros (count : Nat)
  | encode (operand : Operand)
  | encodeList (k : Kind) (operands : List Operand)
  | set (slot : String) (operand : Operand)
  | load (slot : String) (j : Json)
  | evaluate (operand : Operand)
  | compare (a b : Operand)
  | reread

inductive Answer where
  | done
  | item (i : Item)
  | uuid (u : SomeUuid)
  | size (n : Nat)
  | comparison (same equivalent : Bool)
  deriving DecidableEq, Repr

/-- Opens the block to read, then the block to write. -/
def start (input output : Block) : Except Error Session :=
  match Cursor.open? input, Cursor.open? output with
  | none, _ => .error .nullInput
  | some _, none => .error .nullOutput
  | some reader, some writer => .ok ⟨reader, writer, []⟩

/-- An operation on the block to read. -/
def reading {α : Type} (act : Action Cursor α) : Action Session α :=
  act.onPart Session.reader fun s reader => { s with reader }

/-- An operation on the block to write. -/
def writing {α : Type} (act : Action Cursor α) : Action Session α :=
  act.onPart Session.writer fun s writer => { s with writer }

def given (operand : Operand) : Action Session SomeUuid := do
  operand.eval (← get).slots

/-- Puts a UUID into a slot, if one is named. -/
def store (slot : Option String) (u : SomeUuid) : Action Session Unit :=
  modify fun s =>
    match slot with
    | some name => { s with slots := s.slots.put name u }
    | none => s

def perform : Step → Action Session Answer
  | .read shape => do
    let item ← reading (Cursor.read shape)
    return .item item
  | .skip count => do
    reading (Cursor.skip count)
    return .done
  | .decode choice slot => do
    let k ← choice.resolve
    let u ← reading (Cursor.readUuid k)
    store slot ⟨k, u⟩
    return .uuid ⟨k, u⟩
  | .write item => do
    writing (Cursor.write item)
    return .done
  | .writeZeros count => do
    writing (Cursor.writeZeros count)
    return .done
  | .encode operand => do
    let u ← given operand
    writing (Cursor.writeUuid u.uuid)
    return .done
  | .encodeList k operands => do
    let us ← Operand.evalAll k (← get).slots operands
    writing (Cursor.writeUuids us)
    return .size (Cursor.totalSize us)
  | .set slot operand => do
    let u ← given operand
    store slot u
    return .uuid u
  | .load slot j => do
    let u ← SomeUuid.ofJson j
    store slot u
    return .uuid u
  | .evaluate operand => do
    let u ← given operand
    return .uuid u
  | .compare a b => do
    let u ← given a
    let v ← given b
    return .comparison (decide (u = v)) (decide (u.Equivalent v))
  | .reread => do
    modify fun s => { s with reader := s.writer.reread }
    return .done

/-- The answer of a step is a result or an error, and the session goes on either way. -/
def step (s : Session) (next : Step) : Except Error Answer × Session := (perform next).outcome s

/-- The session after a list of steps. -/
def after (s : Session) (steps : List Step) : Session :=
  steps.foldl (fun s next => (s.step next).2) s

/-- The answers to a list of steps, each with the session after it. -/
def trace (s : Session) : List Step → List (Except Error Answer × Session)
  | [] => []
  | first :: rest => s.step first :: (s.step first).2.trace rest

end Session
end BluetoothUuid
