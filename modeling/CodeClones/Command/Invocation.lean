import CodeClones.Command.Arguments
import CodeClones.Settings.Scan
import CodeClones.Text.Digits

/-!
# Invocations

The commands of the program, their arguments, and how an invocation is read. Three switches may
stand before the command or behind it.
-/

namespace CodeClones.Command

open Settings

/-- Switches of every command. -/
structure Switches where
  /-- Whether colours are left out. -/
  noColor : Bool := false
  /-- Whether only results are printed. -/
  quiet : Bool := false
  /-- Whether nothing is written. -/
  dryRun : Bool := false
deriving DecidableEq, Repr

/-- Switches given in either of two places. -/
def Switches.or (first second : Switches) : Switches :=
  ⟨first.noColor || second.noColor, first.quiet || second.quiet,
    first.dryRun || second.dryRun⟩

/-- Arguments of a scan. -/
structure ScanArguments where
  /-- The directory or file to scan. -/
  path : String := "."
  /-- What the scan is asked for. -/
  request : ScanRequest := {}
  /-- Whether the report is printed instead of written. -/
  toStdout : Bool := false
deriving DecidableEq, Repr

/-- Arguments for setting up a configuration file. -/
structure InitArguments where
  /-- The directory for the file. -/
  path : String := "."
  /-- Whether a file that is there is replaced. -/
  force : Bool := false
deriving DecidableEq, Repr

/-- Shells for which completions can be written. -/
inductive Shell where
  /-- The Bourne Again shell. -/
  | bash
  /-- The Z shell. -/
  | zsh
  /-- The friendly interactive shell. -/
  | fish
  /-- PowerShell. -/
  | powerShell
  /-- Elvish. -/
  | elvish
deriving DecidableEq, Repr

/-- All shells. -/
def Shell.all : List Shell := [.bash, .zsh, .fish, .powerShell, .elvish]

/-- The word for a shell on the command line. -/
def Shell.word : Shell → String
  | .bash => "bash"
  | .zsh => "zsh"
  | .fish => "fish"
  | .powerShell => "power-shell"
  | .elvish => "elvish"

/-- Arguments for writing completions. -/
structure CompletionArguments where
  /-- The shell. -/
  shell : Shell
  /-- The directory for the script. -/
  outputDirectory : Option String
  /-- Whether the script is printed instead of written. -/
  toStdout : Bool
deriving DecidableEq, Repr

/-- A command with its arguments. -/
inductive Action where
  /-- Find clones. -/
  | scan (arguments : ScanArguments)
  /-- Set up a configuration file. -/
  | init (arguments : InitArguments)
  /-- Write completions for a shell. -/
  | completions (arguments : CompletionArguments)
deriving DecidableEq, Repr

/-- A command and the switches it was given. -/
structure Invocation where
  /-- The command. -/
  command : Action
  /-- The switches. -/
  switches : Switches
deriving DecidableEq, Repr

/-! ## Values -/

/-- A number that is not negative and fits into 64 bits. -/
def naturalValue (text : String) : Except UsageError Nat :=
  match Text.boundedNat? 10 numberBound text.toList with
  | some value => .ok value
  | none => .error .malformedValue

/-- A truth value. -/
def flagValue : String → Except UsageError Bool
  | "true" => .ok true
  | "false" => .ok false
  | _ => .error .invalidValue

/-- A path, which is not empty. -/
def pathValue (text : String) : Except UsageError String :=
  if text = "" then .error .invalidValue else .ok text

/-- A value that some words stand for. -/
def wordValue {α : Type} (ofWord? : String → Option α) (text : String) : Except UsageError α :=
  match ofWord? text with
  | some value => .ok value
  | none => .error .invalidValue

/-- The shell of a word. -/
def Shell.ofWord? (word : String) : Option Shell :=
  all.find? fun shell => shell.word == word

/-! ## Signatures -/

/-- The arguments of a command together with the switches given among them. -/
structure Level (α : Type) where
  /-- The arguments. -/
  arguments : α
  /-- The switches. -/
  switches : Switches

variable {α : Type}

/-- A parameter without value that sets a flag. -/
def flag (name : String) (get : α → Bool) (set : α → α) : Parameter α :=
  ⟨name, .none, get, fun _ record => .ok (set record)⟩

/-- A parameter that takes a value of some form and is given once. -/
def setting {β : Type} (name : String) (arity : Arity) (read : String → Except UsageError β)
    (get : α → Option β) (set : β → α → α) : Parameter α :=
  ⟨name, arity, fun record => (get record).isSome,
    fun text record => do return set (← read text) record⟩

/-- A parameter of the arguments as one of the whole level. -/
def Parameter.lift (parameter : Parameter α) : Parameter (Level α) :=
  ⟨parameter.name, parameter.arity, fun level => parameter.isGiven level.arguments,
    fun text level => do
      return { level with arguments := ← parameter.store text level.arguments }⟩

/-- The switches. -/
def switchParameters : List (Parameter (Level α)) :=
  [flag "no-color" (·.switches.noColor) fun level =>
      { level with switches := { level.switches with noColor := true } },
    flag "quiet" (·.switches.quiet) fun level =>
      { level with switches := { level.switches with quiet := true } },
    flag "dry-run" (·.switches.dryRun) fun level =>
      { level with switches := { level.switches with dryRun := true } }]

/-- The signature of a command with some parameters and one argument by itself. -/
def commandSignature (named : List (Parameter α)) (positional : Parameter α) :
    Signature (Level α) :=
  ⟨named.map Parameter.lift ++ switchParameters, some positional.lift, false, .unknownArgument⟩

/-- A parameter of what a scan is asked for. -/
def requestSetting {β : Type} (name : String) (arity : Arity)
    (read : String → Except UsageError β) (get : ScanRequest → Option β)
    (set : β → ScanRequest → ScanRequest) : Parameter ScanArguments :=
  setting name arity read (fun arguments => get arguments.request) fun value arguments =>
    { arguments with request := set value arguments.request }

/-- The parameters of a scan. -/
def scanSignature : Signature (Level ScanArguments) :=
  commandSignature
    [requestSetting "threshold" .one naturalValue (·.threshold) fun value request =>
        { request with threshold := some value },
      requestSetting "scope" .one (wordValue Scope.ofWord?) (·.scope) fun value request =>
        { request with scope := some value },
      requestSetting "check-names" (.atMostOne "true") flagValue (·.checkNames)
        fun value request => { request with checkNames := some value },
      ⟨"ignore", .one, fun _ => false, fun text arguments =>
        .ok { arguments with request :=
          { arguments.request with ignore := arguments.request.ignore ++ [text] } }⟩,
      requestSetting "out-dir" .one pathValue (·.outputDirectory) fun value request =>
        { request with outputDirectory := some value },
      requestSetting "format" .one (wordValue OutputFormat.ofWord?) (·.format)
        fun value request => { request with format := some value },
      flag "stdout" (·.toStdout) fun arguments => { arguments with toStdout := true },
      requestSetting "time-budget-ms" .one naturalValue (·.timeBudget) fun value request =>
        { request with timeBudget := some value },
      requestSetting "hidden" (.atMostOne "true") flagValue (·.includeHidden)
        fun value request => { request with includeHidden := some value }]
    ⟨"PATH", .one, fun _ => false, fun text arguments => do
      return { arguments with path := ← pathValue text }⟩

/-- The parameters for setting up a configuration file. -/
def initSignature : Signature (Level InitArguments) :=
  commandSignature
    [flag "force" (·.force) fun arguments => { arguments with force := true }]
    ⟨"PATH", .one, fun _ => false, fun text arguments => do
      return { arguments with path := ← pathValue text }⟩

/-- Arguments for writing completions before it is known whether the shell is given. -/
structure CompletionDraft where
  /-- The shell. -/
  shell : Option Shell := none
  /-- The directory for the script. -/
  outputDirectory : Option String := none
  /-- Whether the script is printed instead of written. -/
  toStdout : Bool := false

/-- The parameters for writing completions. -/
def completionSignature : Signature (Level CompletionDraft) :=
  commandSignature
    [setting "out-dir" .one pathValue (·.outputDirectory) fun value draft =>
        { draft with outputDirectory := some value },
      flag "stdout" (·.toStdout) fun draft => { draft with toStdout := true }]
    ⟨"SHELL", .one, fun _ => false, fun text draft => do
      return { draft with shell := some (← wordValue Shell.ofWord? text) }⟩

/-- The parameters before the command. -/
def topSignature : Signature (Level Unit) :=
  ⟨switchParameters, none, true, .unknownCommand⟩

/-! ## Invocations -/

/-- The names of the commands, that for help included. -/
def commandNames : List String := ["scan", "init", "completions", "help"]

/-- What the arguments behind the command for help ask for: help about the program or about one
command. -/
def helpTopic : List String → UsageError
  | [] => .help
  | [name] => if commandNames.contains name then .help else .unknownCommand
  | _ => .unknownCommand

/-- Read the arguments behind the name of a command. -/
def readCommand (name : String) (arguments : List String) :
    Except UsageError (Action × Switches) :=
  match name with
  | "scan" => do
    let level ← scanSignature.read ⟨{}, {}⟩ arguments
    return (.scan level.arguments, level.switches)
  | "init" => do
    let level ← initSignature.read ⟨{}, {}⟩ arguments
    return (.init level.arguments, level.switches)
  | "completions" => do
    let level ← completionSignature.read ⟨{}, {}⟩ arguments
    match level.arguments.shell with
    | some shell =>
      return (.completions ⟨shell, level.arguments.outputDirectory, level.arguments.toStdout⟩,
        level.switches)
    | none => .error .missingArgument
  | _ => .error (helpTopic arguments)

/-- Read the arguments from the front up to the command. -/
def readFrom (progress : Progress (Level Unit)) : List String → Except UsageError Invocation
  | [] => .error (if progress.record.switches = {} then .noArguments else .missingCommand)
  | argument :: others =>
    if commandNames.contains argument then
      if progress.onlyValues then .error .unknownArgument
      else do
        let (command, switches) ← readCommand argument others
        return ⟨command, progress.record.switches.or switches⟩
    else do
      readFrom (← progress.step topSignature argument) others

/-- The invocation that a list of arguments stands for. -/
def Invocation.ofArguments (arguments : List String) : Except UsageError Invocation :=
  readFrom ⟨⟨(), {}⟩, none, false, false, false⟩ arguments

end CodeClones.Command
