import TraceRollup.CommandLine

/-!
# The program

Reads the arguments and the configuration file, and prints what the command line comes to.
-/

open TraceRollup

def readText (path : String) : IO (Except String String) := do
  try
    return .ok (← IO.FS.readFile path)
  catch e =>
    return .error (toString e)

/-- Reads the file that the arguments name; no other file is looked at. -/
def filesFor (args : List String) : IO CommandLine.Files := do
  match CommandLine.parse args with
  | .invocation i =>
    match i.config with
    | some path =>
      let text ← readText path
      return fun _ => text
    | none => return fun _ => .error "not read"
  | _ => return fun _ => .error "not read"

def main (args : List String) : IO UInt32 := do
  let stdout ← IO.getStdout
  let stderr ← IO.getStderr
  match CommandLine.run {} (← filesFor args) args with
  | .printed text =>
    stdout.putStr text
    return 0
  | .help =>
    stdout.putStr CommandLine.helpText
    return 0
  | .misuse =>
    stderr.putStr CommandLine.misuseText
    return 2
  | .failed f =>
    stderr.putStr f.text
    return 1
  | .serving cfg =>
    stderr.putStr (CommandLine.offlineFailure cfg).text
    return 1
