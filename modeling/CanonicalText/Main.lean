import CanonicalText.Command.Run
import CanonicalText.Command.World.System

/-!
# The command line program

`main` looks at the files, the input and the variables that a run asks for, prints what the run prints,
and writes its log and its errors to standard error.
-/

namespace CanonicalText

/-- What a path leads to. An error about the path itself, such as one that goes on after a file, means that
it leads nowhere. Standard input is not read yet. -/
def readEntry (path : Text) : IO Entry := do
  if standardInputPaths.contains (String.ofList path) then return .standardInput
  try
    return .file (← IO.FS.readBinFile (String.ofList path))
  catch
    | .noFileOrDirectory .. => return .missing
    | .inappropriateType (some _) .. => return .missing
    | .invalidArgument (some _) .. => return .missing
    | _ => return .unreadable

def readStandardInput : IO ByteArray := do
  (← IO.getStdin).readBinToEnd

def readVariables (names : List String) : IO (List (String × Text)) :=
  names.filterMapM fun name => do
    return (← IO.getEnv name).map fun value => (name, value.toList)

def Entry.isStandardInput : Entry → Bool
  | .standardInput => true
  | _ => false

def readWorld (args : List Text) : IO World := do
  let entries ← (pathsOf args).mapM fun path => return (path, ← readEntry path)
  let asked := readsStandardInput args || entries.any fun e => e.2.isStandardInput
  let input ← if asked then readStandardInput else pure .empty
  let bindings ← readVariables [filterVariables.1, filterVariables.2]
  return .ofEntries entries input bindings

/-- What a run that ended with this outcome tells its user besides what it prints. -/
def Outcome.complaint : Outcome → List Text
  | .usage _ => ["error: the command line is not understood; try --help".toList]
  | .failed e =>
    [e.code, e.message] ++ e.help?.toList.map fun help => "help: ".toList ++ help
  | .broken f => [f.message]
  | _ => []

end CanonicalText

open CanonicalText in
def main (args : List String) : IO UInt32 := do
  let args := args.map String.toList
  let report := run args (← readWorld args)
  for event in report.log do
    IO.eprintln (String.ofList event.display)
  (← IO.getStdout).putStr (String.ofList report.outcome.standardOutput)
  for line in report.outcome.complaint do
    IO.eprintln (String.ofList line)
  return UInt32.ofNat report.outcome.exitStatus
