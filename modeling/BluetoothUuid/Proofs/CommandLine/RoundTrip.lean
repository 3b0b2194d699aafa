import BluetoothUuid.Proofs.CommandLine.Outcome
import BluetoothUuid.Proofs.Record.RoundTrip
import BluetoothUuid.Proofs.Uuid.Parsing
import BluetoothUuid.Uuid.Text.Layout

/-! What a run shows is understood by further runs. Each of its lines stands for the UUID that was
decoded or for the full form of it, and is read back as that by the reader that takes such lines. -/
namespace BluetoothUuid

namespace SomeUuid
variable {dump : Json → Except Error Text} {u : SomeUuid} {j : Json} {line : Text}

/-- The line that shows a record has one meaning: whatever record is written so, is read as the UUID
that is shown. -/
theorem ofJson_of_written (writes : Record.WritesRecords dump) (shown : dump u.toJson = .ok line)
    (written : Record.Written dump line j) : ofJson j = .ok u := by
  obtain ⟨n, integer, rfl⟩ := eq_bare_of_written writes shown written
  apply ofJson_eq_ok_iff.mpr
  apply Record.ofJson_eq_ok_iff.mpr
  constructor
  · exact Record.kind_eq_ok_iff.mpr integer
  · exact ⟨_, rfl, Record.spells_text .upper u.uuid⟩

/-- A record of a UUID is among those that are written as its line. -/
theorem written_toJson (shown : dump u.toJson = .ok line) : Record.Written dump line u.toJson :=
  have number : (Json.Number.signed (Int64.ofNat u.kind.bits)).toInt? =
      some (Int64.ofNat u.kind.bits).toInt := rfl
  .bare number (fun _ member => Uuid.plain_of_mem_text member) shown

end SomeUuid

namespace CommandLine
open BluetoothUuid.Text (ofString decimal)
open BluetoothUuid.Record (WritesRecords Written onLine)

def newline : UInt8 := '\n'.toUInt8

/-- What is shown behind a label: the rest of the first line that begins with it. -/
def shown? (label : String) (output : Text) : Option Text :=
  (output.splitOn newline).findSome? (ofString label).isPrefixOf?

def ofLines (lines : List (String × Text)) : Text := lines.flatMap fun l => line l.1 l.2

/-- A run succeeds and shows each text behind its label. -/
def Shows (outcome : Outcome) (texts : List (String × Text)) : Prop :=
  outcome.exitCode = 0 ∧ ∀ labelled ∈ texts, shown? labelled.1 outcome.stdout = some labelled.2

variable {dump : Json → Except Error Text} {args : List Text} {t : Text} {u : SomeUuid}
  {lines : List (String × Text)}

theorem Shows.of_append {outcome : Outcome} {others : List (String × Text)}
    (shows : Shows outcome (lines ++ others)) : Shows outcome lines :=
  ⟨shows.1, fun labelled member => shows.2 labelled (List.mem_append_left others member)⟩

theorem splitOn_line {label : String} {rest : Text} (plain : newline ∉ ofString label ++ t) :
    (line label t ++ rest).splitOn newline = (ofString label ++ t) :: rest.splitOn newline := by
  have whole : line label t ++ rest = (ofString label ++ t) ++ newline :: rest := by
    simp only [line, List.append_assoc]
    rfl
  have kept : ∀ c ∈ ofString label ++ t, (c == newline) = false := by
    intro c member
    rw [beq_eq_false_iff_ne]
    rintro rfl
    exact plain member
  simp only [whole, List.splitOn_eq_splitOnP]
  exact List.splitOnP_append_cons_of_forall_mem kept newline (beq_self_eq_true newline) rest

/-- The lines are found again in the output. Behind the end of the last one nothing follows. -/
theorem splitOn_ofLines (labels : ∀ l ∈ lines, newline ∉ ofString l.1)
    (texts : ∀ l ∈ lines, newline ∉ l.2) :
    (ofLines lines).splitOn newline = lines.map (fun l => ofString l.1 ++ l.2) ++ [[]] := by
  induction lines with
  | nil => rfl
  | cons l lines ih =>
    obtain ⟨label, labels⟩ := List.forall_mem_cons.mp labels
    obtain ⟨text, texts⟩ := List.forall_mem_cons.mp texts
    have first := @splitOn_line l.2 l.1 (ofLines lines) (List.not_mem_append label text)
    exact first.trans (congrArg _ (ih labels texts))

theorem newline_not_mem_label (k : Kind) : newline ∉ k.label := by
  cases k <;> decide

theorem newline_not_mem_text {k : Kind} {f : Format} {v : Uuid k} : newline ∉ v.text f := by
  have neither : ¬ (Hex.isDigit newline = true ∨ newline = Uuid.hyphen) := by decide
  exact fun member => neither (Uuid.mem_text member)

theorem newline_not_mem_onLine (u : SomeUuid) :
    newline ∉ onLine u.kind.bits (u.text .canonical) := by
  have number : newline ∉ Text.signedDecimal u.kind.bits :=
    fun member => absurd (Text.mem_signedDecimal member) (by decide)
  have text : newline ∉ u.text .canonical := newline_not_mem_text
  simp only [onLine, List.mem_append, number, text, or_false]
  decide

theorem splitOn_describe (u : SomeUuid) :
    (describe u).splitOn newline =
      [ofString "kind:    " ++ u.kind.label, ofString "value:   " ++ u.text .canonical,
        ofString "uuid128: " ++ u.toFull.text .canonical,
        ofString "json:    " ++ onLine u.kind.bits (u.text .canonical), []] := by
  have lines : describe u = ofLines [("kind:    ", u.kind.label), ("value:   ", u.text .canonical),
      ("uuid128: ", u.toFull.text .canonical), ("json:    ", onLine u.kind.bits (u.text .canonical))] := by
    simp [describe, ofLines]
  rw [lines]
  apply splitOn_ofLines <;> simp only [List.forall_mem_cons]
  · decide
  · exact ⟨newline_not_mem_label u.kind, newline_not_mem_text, newline_not_mem_text,
      newline_not_mem_onLine u, List.forall_mem_nil _⟩

theorem splitOn_describeFull (w : Uuid .bits128) :
    (describeFull w).splitOn newline =
      [ofString "uuid128: " ++ w.text .canonical,
        ofString "bytes:   " ++ Hex.encode .upper w.bytes, []] := by
  have digits : newline ∉ Hex.encode .upper w.bytes := by
    rw [← Uuid.text_compact]
    exact newline_not_mem_text
  have lines : describeFull w = ofLines [("uuid128: ", w.text .canonical),
      ("bytes:   ", Hex.encode .upper w.bytes)] := by
    simp [describeFull, ofLines]
  rw [lines]
  apply splitOn_ofLines <;> simp only [List.forall_mem_cons]
  · decide
  · exact ⟨newline_not_mem_text, digits, List.forall_mem_nil _⟩

theorem shows_describe (u : SomeUuid) :
    Shows ⟨0, describe u, []⟩ [("kind:    ", u.kind.label), ("value:   ", u.text .canonical),
      ("uuid128: ", u.toFull.text .canonical), ("json:    ", onLine u.kind.bits (u.text .canonical))] := by
  refine ⟨rfl, ?_⟩
  simp only [List.forall_mem_cons, shown?, splitOn_describe]
  exact ⟨rfl, rfl, rfl, rfl, List.forall_mem_nil _⟩

theorem shows_describeFull (w : Uuid .bits128) :
    Shows ⟨0, describeFull w, []⟩ [("uuid128: ", w.text .canonical),
      ("bytes:   ", Hex.encode .upper w.bytes)] := by
  refine ⟨rfl, ?_⟩
  simp only [List.forall_mem_cons, shown?, splitOn_describeFull]
  exact ⟨rfl, rfl, List.forall_mem_nil _⟩

theorem run_of_decode (writes : WritesRecords dump) (given : args ≠ [])
    (read : Hex.decode args.flatten = .ok u.bytes) : run dump args = ⟨0, describe u, []⟩ :=
  run_wire given (head?_ne_option_of_decode read) writes (decode_eq_ok_iff.mpr read)

theorem run_single_of_decode (writes : WritesRecords dump) (read : Hex.decode t = .ok u.bytes) :
    run dump [t] = ⟨0, describe u, []⟩ := by
  apply run_of_decode writes (List.cons_ne_nil t [])
  rw [List.flatten_singleton, read]

/-- The text of a full UUID need not be asked for as such: as hex text it gives the same UUID. -/
theorem run_single_of_parse {w : Uuid .bits128} (writes : WritesRecords dump)
    (parsed : Uuid.parse t = .ok w) : run dump [t] = ⟨0, describe ⟨.bits128, w⟩, []⟩ :=
  run_single_of_decode (u := ⟨.bits128, w⟩) writes (Uuid.decode_of_parse parsed)

/-- A run that is not asked for a text succeeds only if there is a UUID to show. -/
theorem exists_of_exitCode (writes : WritesRecords dump) (given : args ≠ [])
    (asked : args.head? ≠ some option) (succeeded : (run dump args).exitCode = 0) :
    ∃ u, decode args.flatten = .ok u ∧ run dump args = ⟨0, describe u, []⟩ := by
  cases read : decode args.flatten with
  | ok u => exact ⟨u, rfl, run_wire given asked writes read⟩
  | error e =>
    rw [run_wire_of_error given asked read] at succeeded
    exact absurd succeeded (by decide : (1 : UInt32) ≠ 0)

/-- The shown value gives the same output again. The shown full form is parsed, and the bytes that
this shows are those of it. The shown record is that of the decoded UUID and is read as it, and so is
any other that is written alike. -/
theorem run_inverts_run (writes : WritesRecords dump) (args : List Text) (given : args ≠ [])
    (asked : args.head? ≠ some option) (succeeded : (run dump args).exitCode = 0) :
    ∃ (u : SomeUuid) (value full bytes record : Text),
      decode args.flatten = .ok u ∧
      Shows (run dump args) [("kind:    ", ofString "uuid" ++ decimal u.kind.bits),
        ("value:   ", value), ("uuid128: ", full), ("json:    ", record)] ∧
      run dump [value] = run dump args ∧
      Shows (run dump [option, full]) [("uuid128: ", full), ("bytes:   ", bytes)] ∧
      Shows (run dump [bytes]) [("kind:    ", ofString "uuid128"), ("value:   ", full),
        ("uuid128: ", full)] ∧
      dump u.toJson = .ok record ∧
      SomeUuid.ofJson u.toJson = .ok u ∧
      ∀ j, Written dump record j → SomeUuid.ofJson j = .ok u := by
  obtain ⟨u, decoded, ran⟩ := exists_of_exitCode writes given asked succeeded
  have shown := SomeUuid.dump_toJson writes u
  refine ⟨u, u.text .canonical, u.toFull.text .canonical, Hex.encode .upper u.toFull.bytes,
    onLine u.kind.bits (u.text .canonical), decoded, ?_, ?_, ?_, ?_, shown, ?_, ?_⟩
  · rw [ran, ← label_eq]
    exact shows_describe u
  · rw [ran]
    exact run_single_of_decode writes (Uuid.decode_text .canonical u.uuid)
  · have parsed : Uuid.parse (u.toFull.text .canonical) = .ok u.toFull := Uuid.parse_text .upper u.toFull
    rw [run_full parsed]
    exact shows_describeFull u.toFull
  · have read : Hex.decode (Hex.encode .upper u.toFull.bytes) = .ok u.toFull.bytes :=
      Hex.decode_encode .upper u.toFull.bytes
    rw [run_single_of_decode (u := ⟨.bits128, u.toFull⟩) writes read]
    exact Shows.of_append (shows_describe ⟨.bits128, u.toFull⟩)
  · exact SomeUuid.ofJson_of_written writes shown (SomeUuid.written_toJson shown)
  · intro j written
    exact SomeUuid.ofJson_of_written writes shown written

theorem run_inverts_run_of_spread_digits :
    WritesRecords Record.dump ∧
    [ofString "\t00:01", ofString "-8aF", ofString "e"].head? ≠ some option ∧
    (run Record.dump [ofString "\t00:01", ofString "-8aF", ofString "e"]).exitCode = 0 ∧
    run Record.dump [ofString "00018AFE"] =
      run Record.dump [ofString "\t00:01", ofString "-8aF", ofString "e"] ∧
    Shows (run Record.dump [option, ofString "00018AFE-0000-1000-8000-00805F9B34FB"])
      [("uuid128: ", ofString "00018AFE-0000-1000-8000-00805F9B34FB"),
        ("bytes:   ", ofString "00018AFE00001000800000805F9B34FB")] ∧
    SomeUuid.ofJson (Record.bare (.unsigned 32) (ofString "00018AFE")) =
      .ok ⟨.bits32, ⟨0x18AFE⟩⟩ := by
  have asked : [ofString "\t00:01", ofString "-8aF", ofString "e"].head? ≠ some option := by decide
  have succeeded :
      (run Record.dump [ofString "\t00:01", ofString "-8aF", ofString "e"]).exitCode = 0 := by rfl
  have read : decode [ofString "\t00:01", ofString "-8aF", ofString "e"].flatten =
      .ok ⟨.bits32, ⟨0x18AFE⟩⟩ := rfl
  obtain ⟨u, value, full, bytes, record, decoded, ⟨_, shown⟩, again, ⟨exit, parsed⟩, _, dumped, _,
    alike⟩ := run_inverts_run Record.writesRecords_dump _ (by decide) asked succeeded
  obtain rfl := Except.ok.inj (read.symm.trans decoded)
  simp only [List.forall_mem_cons] at shown parsed
  obtain ⟨_, value_shown, full_shown, _⟩ := shown
  obtain rfl : ofString "00018AFE" = value := Option.some.inj value_shown
  obtain rfl : ofString "00018AFE-0000-1000-8000-00805F9B34FB" = full := Option.some.inj full_shown
  obtain ⟨same, bytes_shown, _⟩ := parsed
  obtain rfl : ofString "00018AFE00001000800000805F9B34FB" = bytes := Option.some.inj bytes_shown
  have unsigned : Written Record.dump record (Record.bare (.unsigned 32) (ofString "00018AFE")) :=
    .bare rfl (by decide +kernel) dumped
  exact ⟨Record.writesRecords_dump, asked, succeeded, again, ⟨exit, by simpa using ⟨same, bytes_shown⟩⟩,
    alike _ unsigned⟩

end CommandLine
end BluetoothUuid
