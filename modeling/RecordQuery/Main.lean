/-
The command line program.
-/
import RecordQuery.Command.Execution

open RecordQuery

/-- What a file name leads to. -/
def fileState (name : String) : IO Command.File := do
  try
    return .bytes (← IO.FS.readBinFile name).toList
  catch
    | .noFileOrDirectory .. => return .missing
    | .permissionDenied .. => return .forbidden
    | _ => return .directory

def main (args : List String) : IO UInt32 := do
  let names := Command.configName args :: args
  let files ← names.mapM fun name => return (name, ← fileState name)
  let input ← if Command.readsInput args then (← IO.getStdin).readToEnd else pure ""
  let world : Command.World :=
    { file := fun name => (files.lookup name).getD .missing
      input := input
      terminal := ← (← IO.getStdout).isTty }
  match Command.execute world args with
  | .ok outcome =>
    IO.print outcome.out
    if let some message := outcome.error then IO.eprintln ("Error: " ++ message)
    return outcome.exit.toUInt32
  | .error abort =>
    IO.eprintln abort.message
    return 1
