import BluetoothUuid.Uuid.Base.InPlace
import BluetoothUuid.Uuid.Record.Dump

/-! The command line. It shows the UUID with given wire bytes, or the wire bytes of a full UUID. Output
is printed as it comes, and what was printed before a failure stays. -/
namespace BluetoothUuid.CommandLine
open Text

/-- What has been printed on the two streams. -/
structure Console where
  stdout : Text
  stderr : Text
  deriving DecidableEq, Repr

structure Outcome where
  exitCode : UInt32
  stdout : Text
  stderr : Text
  deriving DecidableEq, Repr

def print (t : Text) : Action Console Unit := modify fun c => { c with stdout := c.stdout ++ t }

def complain (t : Text) : Action Console Unit := modify fun c => { c with stderr := c.stderr ++ t }

/-- Prints a line. Its label is printed before it is known what comes behind. -/
def printLine (label : String) (shown : Except Error Text) : Action Console Unit := do
  print (ofString label)
  let t ← shown
  print t
  print (ofString "\n")

/-- How the program with this name is used. -/
def usage (program : Text) : Action Console Unit := do
  complain (ofString "usage: " ++ program ++
    ofString " <hex bytes>    decode a 2, 4 or 16 byte UUID\n")
  complain (ofString "       " ++ program ++
    ofString " -p <uuid>      print the wire bytes of a 128-bit UUID\n")

/-- The UUID whose wire bytes a hex text gives. -/
def decode (hex : Text) : Except Error SomeUuid := do
  let bs ← Hex.decode hex
  let k ← Kind.ofLength bs.length
  return ⟨k, ← Uuid.front k bs⟩

/-- Shows a UUID that is given by its wire bytes. -/
def decodeCommand (dump : Json → Except Error Text) (hex : Text) : Action Console Unit := do
  let u ← decode hex
  printLine "kind:    " (.ok u.kind.label)
  printLine "value:   " (u.uuid.toText .canonical)
  printLine "uuid128: " (do (← u.uuid.widen).toText .canonical)
  printLine "json:    " (do dump (← u.uuid.serialize))

/-- Shows a full UUID that is given as text. -/
def parseCommand (t : Text) : Action Console Unit := do
  let u ← Uuid.parse t
  let bs ← u.wireForm
  printLine "uuid128: " (u.toText .canonical)
  printLine "bytes:   " (.ok (Hex.encode .upper bs))

/-- After the option `-p` comes the text of a full UUID, and further arguments are ignored.
Otherwise the arguments are joined to one hex text. -/
def perform (dump : Json → Except Error Text) : List Text → Action Console UInt32
  | [] => do
    usage (ofString "uuidtool")
    return 1
  | first :: rest =>
    if first = ofString "-p" then
      match rest with
      | [] => do
        usage (ofString "uuidtool")
        return 1
      | text :: _ => do
        parseCommand text
        return 0
    else do
      decodeCommand dump (first :: rest).flatten
      return 0

/-- A failure is reported after what was printed before it. -/
def finish : Except Error UInt32 × Console → Outcome
  | (.ok code, c) => ⟨code, c.stdout, c.stderr⟩
  | (.error e, c) => ⟨1, c.stdout, c.stderr ++ ofString "ERROR:" ++ e.message ++ ofString "\n"⟩

/-- The program, with a writer of JSON. -/
def run (dump : Json → Except Error Text) (args : List Text) : Outcome :=
  finish ((perform dump args).outcome ⟨[], []⟩)

end BluetoothUuid.CommandLine
