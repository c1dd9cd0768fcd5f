import CodeClones.Command.Run
import CodeClones.Concrete.Listing

/-!
# The command line

Takes a picture of the working directory, runs the command on it, and carries out what changed.
The concrete tree of a source file is read from the listing beside it, whose name is that of the
file with `.cst` behind it.
-/

namespace CodeClones.Command

/-- The texts of a folder that have a listing beside them. -/
def samplesOf (folder : Folder) : List Sample :=
  folder.entries.filterMap fun listed => do
    let path := Path.ofParts listed.1
    let source ← folder.readText? path
    let listing ← folder.readText? (path ++ ".cst")
    let tree ← Concrete.Tree.ofListing? listing
    some ((Dialect.ofName path, source), tree)

/-- The names of the environment variables that are looked at. -/
def variableNames : List String :=
  ["SIMSTRUCT__IGNORE_PATTERNS", "SIMSTRUCT__OUTPUT_DIR", "SIMSTRUCT__SCAN__THRESHOLD",
    "SIMSTRUCT__SCAN__SCOPE", "SIMSTRUCT__SCAN__CHECK_NAMES", "SIMSTRUCT__SCAN__FORMAT",
    "SIMSTRUCT__SCAN__TIME_BUDGET_MS", "SIMSTRUCT__SCAN__INCLUDE_HIDDEN"]

/-- What is said about arguments that are not accepted. -/
def UsageError.message : UsageError → String
  | .unknownArgument => "error: unexpected argument"
  | .invalidValue => "error: invalid value for an argument"
  | .malformedValue => "error: malformed value for an argument"
  | .unexpectedValue => "error: unexpected value for an argument"
  | .repeatedArgument => "error: an argument cannot be used multiple times"
  | .missingArgument => "error: a required argument was not provided"
  | .unknownCommand => "error: unrecognized subcommand"
  | .missingCommand => "error: a subcommand is required"
  | .noArguments | .help => "Usage: simstruct [OPTIONS] <scan|init|completions|help>"
  | .version => "simstruct 0.1.0"

/-- The entries of a folder that another folder does not have in the same form. -/
def changes (before after : Folder) : List (Place × Entry) :=
  after.entries.filter fun listed => before.entry? listed.1 != some listed.2

/-- Everything at and below an entry of a directory. -/
partial def readEntry (place : Place) (entry : IO.FS.DirEntry) : IO (List (Place × Entry)) := do
  let here := place ++ [entry.fileName]
  if ← entry.path.isDir then
    let below ← (← entry.path.readDir).toList.mapM (readEntry here)
    return (here, .directory) :: below.flatten
  else
    let content ← IO.FS.readBinFile entry.path
    return [(here, .file content.toList)]

/-- A picture of the working directory. -/
def readFolder : IO Folder := do
  let entries ← (← (← IO.currentDir).readDir).toList.mapM (readEntry [])
  return ⟨entries.flatten, ""⟩

/-- Carry out a change. -/
def writeEntry (change : Place × Entry) : IO Unit :=
  let path := Path.ofParts change.1
  match change.2 with
  | .directory => IO.FS.createDirAll path
  | .file content => IO.FS.writeBinFile path ⟨content.toArray⟩

/-- The values of the environment variables that are looked at. -/
def readEnvironment : IO (List (String × String)) := do
  let values ← variableNames.mapM fun name => do
    return (← IO.getEnv name).map fun value => (name, value)
  return values.filterMap id

/-- Run an invocation in the working directory. -/
def runHere (invocation : Invocation) : IO UInt32 := do
  let folder ← readFolder
  let context : ScanContext :=
    ⟨.ofSamples (samplesOf folder), fun milliseconds _ => milliseconds == 0⟩
  let outcome := invocation.run context (← readEnvironment) folder
  (changes folder outcome.folder).forM writeEntry
  IO.print outcome.output
  if let some failure := outcome.failure then
    IO.eprintln ("Error: " ++ failure.message)
  return UInt32.ofNat outcome.exitCode

end CodeClones.Command

open CodeClones.Command in
/-- Run the program with its arguments. -/
def main (arguments : List String) : IO UInt32 := do
  match Invocation.ofArguments arguments with
  | .ok invocation => runHere invocation
  | .error reason =>
    if reason.exitCode = 0 then IO.println reason.message else IO.eprintln reason.message
    return UInt32.ofNat reason.exitCode
