import CodeClones.Command.Completion
import CodeClones.Report.Html
import CodeClones.Report.Json
import CodeClones.Scanning
import CodeClones.Settings.Sources

/-!
# Running commands

A command reads a folder and may change it. Its outcome is the folder it leaves behind, the text
it prints, and why it failed if it did; what was written before a failure stays.
-/

namespace CodeClones.Command

open Settings

/-- Why a command failed. -/
inductive Failure where
  /-- There is no configuration to work with. -/
  | noConfiguration
  /-- A glob of paths to leave out is none. -/
  | invalidGlob (pattern : String)
  /-- The directory for reports could not be created. -/
  | directoryNotCreated (path : String)
  /-- A report could not be written. -/
  | fileNotWritten (path : String)
  /-- There is a configuration file already. -/
  | configurationExists (path : String)
  /-- The configuration file could not be written. -/
  | configurationNotWritten
  /-- It is not said where completions go. -/
  | noOutputDirectory
  /-- The directory for completions could not be created. -/
  | completionDirectoryNotCreated
  /-- Completions could not be written. -/
  | completionNotWritten
deriving DecidableEq, Repr

/-- What is said about a failure. -/
def Failure.message : Failure → String
  | .noConfiguration => "Failed to load simstruct configuration"
  | .invalidGlob pattern => "invalid ignore glob \x60" ++ pattern ++ "\x60"
  | .directoryNotCreated path => "Failed to create output directory " ++ path
  | .fileNotWritten path => "Failed to write " ++ path
  | .configurationExists path =>
    "Config file already exists at " ++ path ++ ". Use --force to overwrite."
  | .configurationNotWritten => "Failed to write config file"
  | .noOutputDirectory => "--out-dir is required unless --stdout is set"
  | .completionDirectoryNotCreated => "create --out-dir"
  | .completionNotWritten => "generate completion file"

/-- What a command leaves behind. -/
structure Outcome where
  /-- The folder afterwards. -/
  folder : Folder
  /-- What was printed. -/
  output : String
  /-- Why the command failed, if it did. -/
  failure : Option Failure

namespace Outcome

/-- Nothing happens but a failure. -/
def failed (folder : Folder) (failure : Failure) : Outcome := ⟨folder, "", some failure⟩

/-- A text is printed, unless the command is quiet. -/
def printed (folder : Folder) (switches : Switches) (output : String) : Outcome :=
  ⟨folder, if switches.quiet then "" else output, none⟩

end Outcome

/-! ## Colours -/

/-- A text in green. -/
def green (text : String) : String := "\x1b[32m" ++ text ++ "\x1b[39m"

/-- A text in yellow. -/
def yellow (text : String) : String := "\x1b[33m" ++ text ++ "\x1b[39m"

/-- A text in bold. -/
def bold (text : String) : String := "\x1b[1m" ++ text ++ "\x1b[0m"

/-! ## Scanning -/

/-- A report file: its name and its text. -/
abbrev ReportFile := String × String

/-- The report files of a format. -/
def reportFiles (format : OutputFormat) (report : Report) : List ReportFile :=
  (if format.writesJson then [("out.json", report.toJson)] else []) ++
    (if format.writesHtml then [("out.html", report.toHtml)] else [])

/-- What would be written, with the number of bytes. -/
def announcement (directory : String) (files : List ReportFile) : String :=
  yellow "DRY RUN: Would write:" ++ "\n" ++
    String.join (files.map fun file =>
      "  " ++ Path.join directory file.1 ++ " (" ++ toString (Text.size file.2) ++ " bytes)\n")

/-- Write a file into a directory, which is created if need be. -/
def writeReport (directory : String) (file : ReportFile) (folder : Folder) :
    Except (Folder × Failure) Folder :=
  match folder.createDirectories directory with
  | .error folder => .error (folder, .directoryNotCreated directory)
  | .ok folder =>
    match folder.write? (Path.join directory file.1) file.2 with
    | none => .error (folder, .fileNotWritten (Path.join directory file.1))
    | some folder => .ok folder

/-- What a scan found, in one line. -/
def summary (switches : Switches) (directory : String) (result : ScanResult) : String :=
  let groups := result.report.groups.length
  let headline := "Found " ++ toString groups ++ " clone groups (" ++
    toString result.report.locations ++ " locations)"
  let detail := "in " ++ toString result.parsed ++ "/" ++ toString result.files.length ++
    " files, " ++ toString result.candidates ++ " candidates; results written to " ++ directory
  if switches.noColor then "✓ " ++ headline ++ " " ++ detail ++ "\n"
  else if groups = 0 then green "✓" ++ " " ++ green headline ++ " " ++ detail ++ "\n"
  else green "✓" ++ " " ++ bold (yellow headline) ++ " " ++ detail ++ "\n"

/-- Put the result of a scan where it is asked for. -/
def deliver (arguments : ScanArguments) (switches : Switches) (settings : ScanSettings)
    (folder : Folder) (result : ScanResult) : Outcome :=
  if arguments.toStdout then ⟨folder, result.report.toJson ++ "\n", none⟩
  else
    let files := reportFiles settings.format result.report
    let directory := settings.outputDirectory
    if switches.dryRun then .printed folder switches (announcement directory files)
    else
      match files.foldlM (fun folder file => writeReport directory file folder) folder with
      | .error (folder, failure) => .failed folder failure
      | .ok folder => .printed folder switches (summary switches directory result)

/-- Find clones under the configuration of the folder. -/
def runScan (context : ScanContext) (environment : List (String × String))
    (arguments : ScanArguments) (switches : Switches) (folder : Folder) : Outcome :=
  match Config.load folder environment with
  | .error _ => .failed folder .noConfiguration
  | .ok config =>
    let settings := ScanSettings.resolve arguments.request config
    match scan context settings folder arguments.path with
    | .error pattern => .failed folder (.invalidGlob pattern)
    | .ok result => deliver arguments switches settings folder result

/-! ## Setting up a configuration file -/

/-- Write the built-in configuration to a file. -/
def runInit (arguments : InitArguments) (switches : Switches) (folder : Folder) : Outcome :=
  let path := Path.join arguments.path (configFiles.headD "")
  if folder.exists? path && !arguments.force then .failed folder (.configurationExists path)
  else if switches.dryRun then
    .printed folder switches ("DRY RUN: would write " ++ path ++ ":\n" ++ defaultText ++ "\n")
  else
    match folder.write? path defaultText with
    | none => .failed folder .configurationNotWritten
    | some folder => .printed folder switches ("Created config file at " ++ path ++ "\n")

/-! ## Completions -/

/-- Write the completions of a shell. -/
def runCompletions (arguments : CompletionArguments) (switches : Switches) (folder : Folder) :
    Outcome :=
  if arguments.toStdout then ⟨folder, arguments.shell.script, none⟩
  else
    match arguments.outputDirectory with
    | none => .failed folder .noOutputDirectory
    | some directory =>
      if switches.dryRun then
        .printed folder switches
          ("DRY RUN: would write " ++ arguments.shell.name ++ " completion into " ++ directory ++
            "\n")
      else
        match folder.createDirectories directory with
        | .error folder => .failed folder .completionDirectoryNotCreated
        | .ok folder =>
          match folder.write? (Path.join directory arguments.shell.scriptName)
              arguments.shell.script with
          | none => .failed folder .completionNotWritten
          | some folder => ⟨folder, "", none⟩

/-- Run a command in a folder. -/
def Invocation.run (context : ScanContext) (environment : List (String × String))
    (invocation : Invocation) (folder : Folder) : Outcome :=
  match invocation.command with
  | .scan arguments => runScan context environment arguments invocation.switches folder
  | .init arguments => runInit arguments invocation.switches folder
  | .completions arguments => runCompletions arguments invocation.switches folder

/-- The exit code for arguments that are not accepted: asking for information is no error. -/
def UsageError.exitCode : UsageError → Nat
  | .help | .version => 0
  | _ => 2

/-- The exit code of an outcome. -/
def Outcome.exitCode (outcome : Outcome) : Nat :=
  if outcome.failure.isSome then 1 else 0

end CodeClones.Command
