import BluetoothUuid.Main
import BluetoothUuid.Session
import BluetoothUuid.Uuid.Order
import BluetoothUuid.Uuid.Wire.Length
import BluetoothUuid.Hex.Digits
import BluetoothUuid.Hex.Scan
import BluetoothUuid.Text.Trim.Search
import BluetoothUuid.Uuid.Base.InPlace
import BluetoothUuid.Uuid.Text.Parse
import BluetoothUuid.Uuid.Text.Layout
import BluetoothUuid.Uuid.Text.Hyphenated
import BluetoothUuid.Uuid.Text.Fields
import BluetoothUuid.Proofs.Cursor.Log
import BluetoothUuid.Proofs.Cursor.RoundTrip
import BluetoothUuid.Proofs.Cursor.Bounds
import BluetoothUuid.Proofs.Cursor.Lists
import BluetoothUuid.Proofs.Cursor.Lengths
import BluetoothUuid.Proofs.Session.Atomicity
import BluetoothUuid.Proofs.Session.Secrecy
import BluetoothUuid.Proofs.Record.Checks
import BluetoothUuid.Proofs.Record.RoundTrip
import BluetoothUuid.Proofs.Record.Kinds
import BluetoothUuid.Proofs.CommandLine.Outcome
import BluetoothUuid.Proofs.CommandLine.RoundTrip
import BluetoothUuid.Proofs.Hex.Grammar
import BluetoothUuid.Proofs.Hex.Reading
import BluetoothUuid.Proofs.Hex.RoundTrip
import BluetoothUuid.Proofs.Uuid.Order
import BluetoothUuid.Proofs.Uuid.Text
import BluetoothUuid.Proofs.Uuid.Equivalence
import BluetoothUuid.Proofs.Uuid.Parsing
import BluetoothUuid.Proofs.Uuid.Widening
import BluetoothUuid.Proofs.Uuid.Sets
import BluetoothUuid.Proofs.Cursor.Parts
import BluetoothUuid.Proofs.Record.Numbers
import BluetoothUuid.Proofs.Text.Margins
import BluetoothUuid.Proofs.Record.Digits
