import SchemaHint.Command.Run

/-!
# The program

Reads the files that a command line names, runs the command on them and prints its outcome.
-/

namespace SchemaHint.Command

set_option autoImplicit false

/-- The names on a path, of which dots and doubled slashes are no part. -/
def namesOnPath (path : String) : List String :=
  let steps := (Text.pieces '/' path.toList).map String.ofList
  steps.foldl (fun names step =>
    if step = "" || step = "." then names
    else if step = ".." then names.dropLast
    else names ++ [step]) []

/-- Reads what is at a path, with everything below it. -/
partial def readNode (path : String) : IO (Option Node) := do
  let place ← IO.FS.realPath path
  if ← place.isDir then
    let mut entries := #[]
    for entry in ← place.readDir do
      if let some node ← readNode entry.path.toString then
        entries := entries.push (entry.fileName, node)
    return some (.directory entries.toList)
  else if ← place.pathExists then
    return some (.file (← IO.FS.readBinFile place))
  else
    return none

/-- The files at or below some paths. -/
def readFiles (paths : List String) : IO Files := do
  let here := (← IO.currentDir).toString
  let workingDirectory := namesOnPath here
  let mut root := Node.insert (.directory []) workingDirectory (.directory [])
  for path in paths do
    let absolute := if path.toList.head? = some '/' then path else here ++ "/" ++ path
    if let some node ← (try readNode path catch _ => pure none) then
      root := Node.insert node (namesOnPath absolute) root
  return { root, workingDirectory }

/-- How the program is called. -/
def usage : String :=
  "Usage: schema-hint [-v] hint --schema PATH... --chain CHAIN [options]\n" ++
  "       schema-hint [-v] validate [--graphql-file-exts EXTS] PATH..."

/-- What is printed of a command line that gives no command. -/
def usageMessage : UsageError → String
  | .helpWanted => usage
  | .versionWanted => "schema-hint"
  | .unknownCommand => "error: unrecognized command\n" ++ usage
  | .unknownArgument => "error: unexpected argument\n" ++ usage
  | .missingArgument => "error: a required argument is missing\n" ++ usage
  | .repeatedArgument => "error: an argument is given more than once\n" ++ usage
  | .missingValue => "error: a value is missing\n" ++ usage
  | .unwantedValue => "error: a flag takes no value\n" ++ usage
  | .badValue => "error: a value is not valid\n" ++ usage

/-- Prints an outcome; the result is the exit code. -/
def printOutcome : Outcome → IO UInt32
  | .success text => do
    IO.println text
    return 0
  | .failure text => do
    IO.eprintln text
    return 1

end SchemaHint.Command

open SchemaHint.Command in
/-- Runs the command of a command line. -/
def main (arguments : List String) : IO UInt32 := do
  match Invocation.read arguments with
  | .error e =>
    if e = .helpWanted ∨ e = .versionWanted then
      IO.println (usageMessage e)
      return 0
    else
      IO.eprintln (usageMessage e)
      return 2
  | .ok (.overview _) =>
    IO.println usage
    return 0
  | .ok (.hint chain a) => printOutcome (runHint (← readFiles a.schema) chain a)
  | .ok (.validate a) => printOutcome (runValidate (← readFiles a.paths) a)
