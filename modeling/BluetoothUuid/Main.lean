import BluetoothUuid.CommandLine

/-! The program: its arguments in, its two output streams and its exit code out. -/

def main (args : List String) : IO UInt32 := do
  let texts := args.map BluetoothUuid.Text.ofString
  let outcome := BluetoothUuid.CommandLine.run BluetoothUuid.Record.dump texts
  (← IO.getStdout).write ⟨outcome.stdout.toArray⟩
  (← IO.getStderr).write ⟨outcome.stderr.toArray⟩
  return outcome.exitCode
