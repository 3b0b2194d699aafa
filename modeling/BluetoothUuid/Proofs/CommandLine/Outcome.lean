import BluetoothUuid.Action.Atomic
import BluetoothUuid.CommandLine
import BluetoothUuid.Proofs.Hex.Reading
import BluetoothUuid.Uuid.Wire.Length

/-! What the command line answers to any arguments. Of all that is done between the lines of output
nothing ever fails, so that a failure comes before the first line and shows nothing but its cause. -/
namespace BluetoothUuid.CommandLine
open BluetoothUuid.Text (ofString decimal)
open BluetoothUuid.Error (bind_eq_ok_iff bind_eq_error_iff bind_eq_error_iff_of quotedUntilNul)
open BluetoothUuid.Record (WritesRecords)

def option : Text := ofString "-p"

/-- What is said of a text that is no hex text. -/
inductive HexComplaint : Error → Text → Prop
  | split : HexComplaint .splitHexPair (ofString "Separator inside a hex byte.")
  | illegal : HexComplaint .illegalHexCharacter
      (ofString "This contains characters not legal in a hex encoded string.")
  | odd : HexComplaint .oddHexDigits (ofString "Odd number of hex digits.")

/-- The outcomes that arguments have: how the program is used, if it is asked for nothing; a full
UUID that is given as text; or the UUID whose wire bytes all arguments together give in hex. -/
inductive Answers (args : List Text) : Outcome → Prop
  | usage (nothing : args = [] ∨ args = [option]) :
      Answers args ⟨1, [],
        ofString "usage: uuidtool <hex bytes>    decode a 2, 4 or 16 byte UUID\n" ++
        ofString "       uuidtool -p <uuid>      print the wire bytes of a 128-bit UUID\n"⟩
  | full {t : Text} {rest : List Text} (asked : args = option :: t :: rest) {u : Uuid .bits128}
      (parsed : Uuid.parse t = .ok u) :
      Answers args ⟨0,
        ofString "uuid128: " ++ u.text .canonical ++ ofString "\n" ++
        ofString "bytes:   " ++ Hex.encode .upper u.bytes ++ ofString "\n", []⟩
  | notFull {t : Text} {rest : List Text} (asked : args = option :: t :: rest) {e : Error}
      (refused : Uuid.parse t = .error e) :
      Answers args ⟨1, [],
        ofString "ERROR:not a 128-bit UUID: " ++ quotedUntilNul t ++ ofString "\n"⟩
  | wire (given : args ≠ []) (asked : args.head? ≠ some option) {u : SomeUuid}
      (decoded : Hex.decode args.flatten = .ok u.bytes) :
      Answers args ⟨0,
        ofString "kind:    uuid" ++ decimal u.kind.bits ++ ofString "\n" ++
        ofString "value:   " ++ u.text .canonical ++ ofString "\n" ++
        ofString "uuid128: " ++ u.toFull.text .canonical ++ ofString "\n" ++
        ofString "json:    \x7b\"bits\":" ++ decimal u.kind.bits ++
          ofString ",\"uuid\":\"" ++ u.text .canonical ++ ofString "\"\x7d\n", []⟩
  | notHex (given : args ≠ []) (asked : args.head? ≠ some option) {e : Error} {words : Text}
      (refused : Hex.decode args.flatten = .error e) (complaint : HexComplaint e words) :
      Answers args ⟨1, [], ofString "ERROR:" ++ words ++ ofString "\n"⟩
  | noKind (given : args ≠ []) (asked : args.head? ≠ some option) {bs : Bytes}
      (decoded : Hex.decode args.flatten = .ok bs)
      (length : bs.length ≠ 2 ∧ bs.length ≠ 4 ∧ bs.length ≠ 16) :
      Answers args ⟨1, [],
        ofString "ERROR:no UUID is " ++ decimal bs.length ++ ofString " bytes long\n"⟩

variable {dump : Json → Except Error Text} {args : List Text} {hex t : Text} {bs : Bytes}
  {u : SomeUuid} {v : Uuid .bits128} {e : Error} {c d : Console}

theorem HexComplaint.message {words : Text} (complaint : HexComplaint e words) :
    e.message = words := by
  cases complaint <;> decide

theorem exists_complaint (refused : Hex.decode hex = .error e) : ∃ words, HexComplaint e words := by
  cases Hex.decode_eq_error_iff.mp refused with
  | leftmost offends =>
    cases offends with
    | splits => exact ⟨_, .split⟩
    | illegal => exact ⟨_, .illegal⟩
  | leftOver => exact ⟨_, .odd⟩

theorem decode_eq_ok_iff : decode hex = .ok u ↔ Hex.decode hex = .ok u.bytes := by
  simp only [decode, bind_eq_ok_iff, Kind.ofLength_eq_ok_iff]
  constructor
  · rintro ⟨bs, read, k, length, v, front, made⟩
    cases made
    rw [← Uuid.bytes_ofBytes length, Uuid.front_bytes] at front
    cases front
    rw [read]
    exact congrArg _ (Uuid.bytes_ofBytes length).symm
  · intro read
    exact ⟨u.bytes, read, u.kind, u.uuid.length_bytes, u.uuid, u.uuid.front_bytes, rfl⟩

/-- Bytes as many as a kind asks for are a UUID of the kind, so that only the hex text and the
number of its bytes can be at fault. -/
theorem decode_eq_error_iff :
    decode hex = .error e ↔
      Hex.decode hex = .error e ∨
        ∃ bs, Hex.decode hex = .ok bs ∧ (bs.length ≠ 2 ∧ bs.length ≠ 4 ∧ bs.length ≠ 16) ∧
          e = .noKindOfLength bs.length := by
  apply bind_eq_error_iff_of Iff.rfl fun _ => Iff.rfl
  intro bs _
  rw [bind_eq_error_iff, Kind.ofLength_eq_error_iff]
  constructor
  · rintro (none | ⟨k, length, failed⟩)
    · exact none
    · rw [← Uuid.bytes_ofBytes (Kind.ofLength_eq_ok_iff.mp length), Uuid.front_bytes] at failed
      cases failed
  · exact .inl

/-- The bytes of a hex text are read at a cursor, by their number. -/
theorem decode_eq_readUuidOfLength (read : Hex.decode hex = .ok bs)
    (fits : bs.length < UInt64.size) :
    decode hex = ((Cursor.readUuidOfLength bs.length).outcome (Cursor.start bs fits)).1 := by
  cases told : Kind.ofLength bs.length with
  | error e =>
    obtain ⟨other, rfl⟩ := Kind.ofLength_eq_error_iff.mp told
    rw [Cursor.readUuidOfLength_of_other other]
    exact decode_eq_error_iff.mpr (.inr ⟨bs, read, other, rfl⟩)
  | ok k =>
    have length := Kind.ofLength_eq_ok_iff.mp told
    have reader := Cursor.readUuidOfLength_size k
    have front : Uuid.front k bs = .ok (Uuid.ofBytes k bs) := by
      rw [← Uuid.front_bytes, Uuid.bytes_ofBytes length]
    rw [← length] at reader
    rw [reader, Action.outcome_map, ← Cursor.front_eq_readUuid fits, front]
    apply decode_eq_ok_iff.mpr
    rw [read]
    exact congrArg _ (Uuid.bytes_ofBytes length).symm

/-- A line of output. -/
def line (label : String) (t : Text) : Text := ofString label ++ t ++ ofString "\n"

/-- What is shown of a UUID that is given by its wire bytes. -/
def describe (u : SomeUuid) : Text :=
  line "kind:    " u.kind.label ++
  line "value:   " (u.text .canonical) ++
  line "uuid128: " (u.toFull.text .canonical) ++
  line "json:    " (Record.onLine u.kind.bits (u.text .canonical))

/-- What is shown of a full UUID that is given as text. -/
def describeFull (u : Uuid .bits128) : Text :=
  line "uuid128: " (u.text .canonical) ++
  line "bytes:   " (Hex.encode .upper u.bytes)

theorem outcome_printLine (label : String) (t : Text) (c : Console) :
    (printLine label (.ok t)).outcome c = (.ok (), { c with stdout := c.stdout ++ line label t }) := by
  simp [printLine, print, line, Action.outcome_bind]

/-- What stands behind the labels can always be written, so that all lines are printed. -/
theorem outcome_decodeCommand (writes : WritesRecords dump) (decoded : decode hex = .ok u)
    (c : Console) :
    (decodeCommand dump hex).outcome c =
      (.ok (), { c with stdout := c.stdout ++ describe u }) := by
  have full : (do (← u.uuid.widen).toText .canonical) = .ok (u.toFull.text .canonical) := by
    rw [Uuid.widen_eq_ok]
    exact Uuid.toText_eq_ok .canonical u.toFull
  have record : (do dump (← u.uuid.serialize)) =
      .ok (Record.onLine u.kind.bits (u.text .canonical)) := by
    rw [Uuid.serialize_eq_ok]
    exact SomeUuid.dump_toJson writes u
  have lifted : (liftM (decode hex) : Action Console SomeUuid).outcome c = (.ok u, c) := by
    rw [decoded, Action.outcome_lift]
  rw [decodeCommand, Action.outcome_bind_of_ok lifted, full, record, Uuid.toText_eq_ok]
  simp only [Action.outcome_bind, outcome_printLine, describe, List.append_assoc]
  rfl

theorem outcome_decodeCommand_of_error (refused : decode hex = .error e) (c : Console) :
    (decodeCommand dump hex).outcome c = (.error e, c) := by
  rw [decodeCommand, refused, Action.outcome_bind, Action.outcome_lift]

theorem outcome_parseCommand (parsed : Uuid.parse t = .ok v) (c : Console) :
    (parseCommand t).outcome c = (.ok (), { c with stdout := c.stdout ++ describeFull v }) := by
  simp only [parseCommand, parsed, Uuid.wireForm_eq_ok, Uuid.toText_eq_ok, Action.outcome_bind,
    Action.outcome_lift, outcome_printLine, describeFull, List.append_assoc]

theorem outcome_parseCommand_of_error (refused : Uuid.parse t = .error e) (c : Console) :
    (parseCommand t).outcome c = (.error e, c) := by
  rw [parseCommand, refused, Action.outcome_bind, Action.outcome_lift]

/-- A command that fails has printed nothing. -/
theorem atomic_decodeCommand (writes : WritesRecords dump) (hex : Text) :
    Action.Atomic (decodeCommand dump hex) := by
  intro c d e failed
  cases decoded : decode hex with
  | ok u => exact nomatch (outcome_decodeCommand writes decoded c).symm.trans failed
  | error f =>
    cases (outcome_decodeCommand_of_error decoded c).symm.trans failed
    rfl

theorem atomic_parseCommand (t : Text) : Action.Atomic (parseCommand t) := by
  intro c d e failed
  cases parsed : Uuid.parse t with
  | ok v => exact nomatch (outcome_parseCommand parsed c).symm.trans failed
  | error f =>
    cases (outcome_parseCommand_of_error parsed c).symm.trans failed
    rfl

theorem perform_full {rest : List Text} :
    perform dump (option :: t :: rest) = do
      parseCommand t
      return 0 := by
  rw [perform]
  exact if_pos rfl

theorem perform_wire (given : args ≠ []) (asked : args.head? ≠ some option) :
    perform dump args = do
      decodeCommand dump args.flatten
      return 0 := by
  cases args with
  | nil => exact absurd rfl given
  | cons first rest =>
    have other : first ≠ option := fun same => asked (congrArg some same)
    exact if_neg other

theorem perform_nothing (nothing : args = [] ∨ args = [option]) :
    perform dump args = do
      usage (ofString "uuidtool")
      return 1 := by
  rcases nothing with rfl | rfl
  · rfl
  · rw [perform]
    exact if_pos rfl

theorem run_full {rest : List Text} (parsed : Uuid.parse t = .ok v) :
    run dump (option :: t :: rest) = ⟨0, describeFull v, []⟩ := by
  rw [run, perform_full, Action.outcome_bind_of_ok (outcome_parseCommand parsed _)]
  rfl

theorem run_full_of_error {rest : List Text} (refused : Uuid.parse t = .error e) :
    run dump (option :: t :: rest) = ⟨1, [], line "ERROR:" e.message⟩ := by
  rw [run, perform_full, Action.outcome_bind, outcome_parseCommand_of_error refused]
  rfl

section
variable (given : args ≠ []) (asked : args.head? ≠ some option)
include given asked

theorem run_wire (writes : WritesRecords dump) (decoded : decode args.flatten = .ok u) :
    run dump args = ⟨0, describe u, []⟩ := by
  rw [run, perform_wire given asked,
    Action.outcome_bind_of_ok (outcome_decodeCommand writes decoded _)]
  rfl

theorem run_wire_of_error (refused : decode args.flatten = .error e) :
    run dump args = ⟨1, [], line "ERROR:" e.message⟩ := by
  rw [run, perform_wire given asked, Action.outcome_bind, outcome_decodeCommand_of_error refused]
  rfl

end

theorem label_eq (k : Kind) : k.label = ofString "uuid" ++ decimal k.bits := by
  cases k <;> decide +kernel

theorem run_of_answers (writes : WritesRecords dump) {outcome : Outcome}
    (answer : Answers args outcome) : run dump args = outcome := by
  cases answer with
  | usage nothing =>
    rw [run, perform_nothing nothing]
    rfl
  | full asked parsed =>
    rw [asked, run_full parsed]
    simp only [describeFull, line, List.append_assoc]
  | notFull asked refused =>
    obtain ⟨_, rfl⟩ := Uuid.parse_eq_error_iff.mp refused
    rw [asked, run_full_of_error refused, Error.message_notFullUuid]
    rfl
  | wire given asked decoded =>
    rw [run_wire given asked writes (decode_eq_ok_iff.mpr decoded), describe, label_eq]
    simp only [line, Record.onLine, List.append_assoc]
    rfl
  | notHex given asked refused complaint =>
    rw [run_wire_of_error given asked (decode_eq_error_iff.mpr (.inl refused)), complaint.message]
    rfl
  | @noKind given asked bs decoded length =>
    have refused := decode_eq_error_iff.mpr (.inr ⟨bs, decoded, length, rfl⟩)
    rw [run_wire_of_error given asked refused, Error.message_noKindOfLength]
    simp only [line, List.append_assoc]
    rfl

/-- Arguments ask for nothing, for a full UUID that is given as text, or for that of some wire bytes. -/
theorem asked_for (args : List Text) :
    (args = [] ∨ args = [option]) ∨ (∃ t rest, args = option :: t :: rest) ∨
      (args ≠ [] ∧ args.head? ≠ some option) := by
  match args with
  | [] => exact .inl (.inl rfl)
  | first :: rest =>
    by_cases asked : first = option
    · subst asked
      cases rest with
      | nil => exact .inl (.inr rfl)
      | cons t rest => exact .inr (.inl ⟨t, rest, rfl⟩)
    · refine .inr (.inr ⟨List.cons_ne_nil first rest, ?_⟩)
      rintro ⟨⟩
      contradiction

theorem exists_answers (args : List Text) : ∃ outcome, Answers args outcome := by
  obtain nothing | ⟨t, rest, rfl⟩ | ⟨given, asked⟩ := asked_for args
  · exact ⟨_, .usage nothing⟩
  · cases parsed : Uuid.parse t with
    | ok u => exact ⟨_, .full rfl parsed⟩
    | error e => exact ⟨_, .notFull rfl parsed⟩
  · cases result : decode args.flatten with
    | ok u => exact ⟨_, .wire given asked (decode_eq_ok_iff.mp result)⟩
    | error e =>
      rcases decode_eq_error_iff.mp result with refused | ⟨bs, decoded, length, _⟩
      · obtain ⟨words, complaint⟩ := exists_complaint refused
        exact ⟨_, .notHex given asked refused complaint⟩
      · exact ⟨_, .noKind given asked decoded length⟩

theorem run_eq_iff (writes : WritesRecords dump) {outcome : Outcome} :
    run dump args = outcome ↔ Answers args outcome := by
  constructor
  · rintro rfl
    obtain ⟨outcome, answer⟩ := exists_answers args
    rw [run_of_answers writes answer]
    exact answer
  · exact run_of_answers writes

/-- The option has a letter that is no digit, so that no hex text begins with it. -/
theorem head?_ne_option_of_decode (decoded : Hex.decode args.flatten = .ok bs) :
    args.head? ≠ some option := by
  intro asked
  cases args with
  | nil => contradiction
  | cons first rest =>
    cases asked
    have refused : Hex.decode (option ++ rest.flatten) = .error .illegalHexCharacter := rfl
    rw [List.flatten_cons, refused] at decoded
    contradiction

theorem atomic_perform (writes : WritesRecords dump) (args : List Text) :
    Action.Atomic (perform dump args) := by
  have told (program : Text) : Action.Succeeds (usage program) :=
    (Action.succeeds_modify _).bind fun _ => Action.succeeds_modify _
  obtain nothing | ⟨t, rest, rfl⟩ | ⟨given, asked⟩ := asked_for args
  · rw [perform_nothing nothing]
    exact (told _).bind_pure.atomic
  · rw [perform_full]
    exact (atomic_parseCommand t).bind_pure
  · rw [perform_wire given asked]
    exact (atomic_decodeCommand writes args.flatten).bind_pure

/-- The program has exactly the outcomes that are said above, and prints nothing before a failure. Of
arguments that are not asked for as a text, only what they are together counts, and where that is hex
text, they always are. -/
theorem run_answers (writes : WritesRecords dump) (args : List Text) :
    (∀ outcome, run dump args = outcome ↔ Answers args outcome) ∧
    Action.Atomic (perform dump args) ∧
    (∀ others : List Text, args ≠ [] → others ≠ [] → args.head? ≠ some option →
      others.head? ≠ some option → args.flatten = others.flatten →
      run dump args = run dump others) ∧
    ∀ bs, Hex.decode args.flatten = .ok bs → args.head? ≠ some option := by
  refine ⟨?_, atomic_perform writes args, ?_, ?_⟩
  · intro outcome
    exact run_eq_iff writes
  · intro others given given_others asked asked_others same
    rw [run, run, perform_wire given asked, perform_wire given_others asked_others, same]
  · intro bs decoded
    exact head?_ne_option_of_decode decoded

/-- One run for each outcome. Of the first, another split of the same text is a run like it. -/
theorem run_answers_one_of_each :
    WritesRecords Record.dump ∧
    run Record.dump [ofString "18:0", ofString "d"] = ⟨0,
      ofString "kind:    uuid16\nvalue:   180D\nuuid128: 0000180D-0000-1000-8000-00805F9B34FB\n" ++
      ofString "json:    \x7b\"bits\":16,\"uuid\":\"180D\"\x7d\n", []⟩ ∧
    run Record.dump [ofString "18:0", ofString "d"] =
      run Record.dump [ofString "1", ofString "8:", ofString "0d"] ∧
    [ofString "18:0", ofString "d"].head? ≠ some option ∧
    run Record.dump [option, ofString " 0000180d-0000-1000-8000-00805f9b34fb", ofString "zz"] = ⟨0,
      ofString "uuid128: 0000180D-0000-1000-8000-00805F9B34FB\n" ++
      ofString "bytes:   0000180D00001000800000805F9B34FB\n", []⟩ ∧
    run Record.dump [option] = ⟨1, [],
      ofString "usage: uuidtool <hex bytes>    decode a 2, 4 or 16 byte UUID\n" ++
      ofString "       uuidtool -p <uuid>      print the wire bytes of a 128-bit UUID\n"⟩ ∧
    run Record.dump [option, ofString "180D"] =
      ⟨1, [], ofString "ERROR:not a 128-bit UUID: \"180D\"\n"⟩ ∧
    run Record.dump [ofString "18", ofString "0"] =
      ⟨1, [], ofString "ERROR:Odd number of hex digits.\n"⟩ ∧
    run Record.dump [ofString "18 0d 2a"] =
      ⟨1, [], ofString "ERROR:no UUID is 3 bytes long\n"⟩ := by
  have writes : WritesRecords Record.dump := Record.writesRecords_dump
  have decoded : Hex.decode (List.flatten [ofString "18:0", ofString "d"]) =
      .ok (SomeUuid.bytes ⟨.bits16, ⟨0x180D⟩⟩) := rfl
  obtain ⟨shown, _, same, never⟩ := run_answers writes [ofString "18:0", ofString "d"]
  obtain ⟨full, _⟩ := run_answers writes
    [option, ofString " 0000180d-0000-1000-8000-00805f9b34fb", ofString "zz"]
  obtain ⟨used, _⟩ := run_answers writes [option]
  obtain ⟨notFull, _⟩ := run_answers writes [option, ofString "180D"]
  obtain ⟨odd, _⟩ := run_answers writes [ofString "18", ofString "0"]
  obtain ⟨noKind, _⟩ := run_answers writes [ofString "18 0d 2a"]
  have asked := never _ decoded
  refine ⟨writes, ?_, ?_, asked, ?_, ?_, ?_, ?_, ?_⟩
  · exact ((shown _).mpr (.wire (by decide) asked decoded)).trans (by decide +kernel)
  · apply same [ofString "1", ofString "8:", ofString "0d"] <;> decide
  · have parsed : Uuid.parse (ofString " 0000180d-0000-1000-8000-00805f9b34fb") =
        .ok ⟨0x0000180D_0000_1000_8000_00805F9B34FB⟩ := rfl
    exact ((full _).mpr (.full rfl parsed)).trans (by decide +kernel)
  · exact (used _).mpr (.usage (.inr rfl))
  · have refused : Uuid.parse (ofString "180D") = .error (.notFullUuid (ofString "180D")) := rfl
    exact ((notFull _).mpr (.notFull rfl refused)).trans (by decide +kernel)
  · have refused : Hex.decode (List.flatten [ofString "18", ofString "0"]) =
        .error .oddHexDigits := rfl
    exact ((odd _).mpr (.notHex (by decide) (by decide) refused .odd)).trans (by decide +kernel)
  · have read : Hex.decode (List.flatten [ofString "18 0d 2a"]) = .ok [0x18, 0x0D, 0x2A] := rfl
    have other : [0x18, 0x0D, 0x2A].length ≠ 2 ∧ [0x18, 0x0D, 0x2A].length ≠ 4 ∧
      [0x18, 0x0D, 0x2A].length ≠ 16 := by decide
    exact ((noKind _).mpr (.noKind (by decide) (by decide) read other)).trans (by decide +kernel)

end BluetoothUuid.CommandLine
