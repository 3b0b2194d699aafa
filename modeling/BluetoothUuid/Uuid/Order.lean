import BluetoothUuid.Uuid

/-! The order of UUIDs of one kind, and the sorted lists without repetition that it gives.
Shortened UUIDs are compared as numbers, full ones field by field. -/
namespace BluetoothUuid.Uuid
variable {k : Kind}

/-- The parts of a full UUID, in the order in which they are compared. -/
structure Fields where
  timeLow : Nat
  timeMid : Nat
  timeHighAndVersion : Nat
  clockSequence : Nat
  node : Bytes
  deriving DecidableEq, Repr

/-- The four leading fields are numbers of 4, 2, 2 and 2 bytes, and the node is 6 bytes. -/
def fields (u : Uuid .bits128) : Fields where
  timeLow := BigEndian.value (u.bytes.take 4)
  timeMid := BigEndian.value ((u.bytes.drop 4).take 2)
  timeHighAndVersion := BigEndian.value ((u.bytes.drop 6).take 2)
  clockSequence := BigEndian.value ((u.bytes.drop 8).take 2)
  node := u.bytes.drop 10

def Fields.compare (a b : Fields) : Ordering :=
  (Ord.compare a.timeLow b.timeLow).then <|
  (Ord.compare a.timeMid b.timeMid).then <|
  (Ord.compare a.timeHighAndVersion b.timeHighAndVersion).then <|
  (Ord.compare a.clockSequence b.clockSequence).then <|
  Ord.compare a.node b.node

def compare (a b : Uuid k) : Ordering :=
  match k with
  | .bits128 => a.fields.compare b.fields
  | _ => Ord.compare a.value.toNat b.value.toNat

instance : Ord (Uuid k) := ⟨compare⟩

instance : LT (Uuid k) := ltOfOrd

instance (a b : Uuid k) : Decidable (a < b) :=
  inferInstanceAs (Decidable (compare a b = .lt))

/-- Puts a UUID into a sorted list, unless it is there already. -/
def insertSorted (u : Uuid k) : List (Uuid k) → List (Uuid k)
  | [] => [u]
  | v :: vs =>
    match compare u v with
    | .lt => u :: v :: vs
    | .eq => v :: vs
    | .gt => v :: insertSorted u vs

/-- The UUIDs of a list in increasing order, each once. -/
def sortUnique (us : List (Uuid k)) : List (Uuid k) := us.foldr insertSorted []

end BluetoothUuid.Uuid
