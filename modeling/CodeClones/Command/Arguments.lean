/-!
# Command-line arguments

How a list of arguments is read into a record. A parameter is given by its name behind two
dashes, with its value behind an equals sign or in the next argument; one argument may stand by
itself. A value is checked only when the next known argument comes or the list ends, so an
unknown argument is reported before a bad value in front of it.
-/

namespace CodeClones.Command

/-- Why arguments are not accepted, or that only information was asked for. -/
inductive UsageError where
  /-- An argument is not known. -/
  | unknownArgument
  /-- A value is missing or not among those that are allowed. -/
  | invalidValue
  /-- A value does not have the form it must have. -/
  | malformedValue
  /-- A parameter without value is given one. -/
  | unexpectedValue
  /-- A parameter is given twice. -/
  | repeatedArgument
  /-- A required argument is missing. -/
  | missingArgument
  /-- A command is not known. -/
  | unknownCommand
  /-- There is no command. -/
  | missingCommand
  /-- There are no arguments at all. -/
  | noArguments
  /-- Help was asked for. -/
  | help
  /-- The version was asked for. -/
  | version
deriving DecidableEq, Repr

/-- How many values a parameter takes. -/
inductive Arity where
  /-- No value. -/
  | none
  /-- One value. -/
  | one
  /-- One value, or none, which then stands for the given one. -/
  | atMostOne (missing : String)
deriving DecidableEq, Repr

/-- A parameter of arguments that are read into a record. -/
structure Parameter (α : Type) where
  /-- Its name, without dashes. -/
  name : String
  /-- How many values it takes. -/
  arity : Arity
  /-- Whether the record has it already, so that it may not be given again. -/
  isGiven : α → Bool
  /-- Put a value into the record. -/
  store : String → α → Except UsageError α

/-- Give a parameter a value. -/
def Parameter.give {α : Type} (parameter : Parameter α) (value : String) (record : α) :
    Except UsageError α :=
  if parameter.isGiven record then .error .repeatedArgument else parameter.store value record

/-- Give a parameter the values that stand behind it, at most one. -/
def Parameter.giveAll {α : Type} (parameter : Parameter α) (values : List String) (record : α) :
    Except UsageError α :=
  match parameter.arity, values with
  | _, value :: _ => parameter.give value record
  | .one, [] => .error .invalidValue
  | .atMostOne missing, [] => parameter.give missing record
  | .none, [] => parameter.give "true" record

/-- The parameters of a command. -/
structure Signature (α : Type) where
  /-- Those that are given by their names. -/
  named : List (Parameter α)
  /-- The one that stands by itself, if there is one. -/
  positional : Option (Parameter α)
  /-- Whether the version can be asked for. -/
  hasVersion : Bool
  /-- What is wrong about an argument for which there is no place. -/
  surplus : UsageError

/-- What has been read of the arguments. -/
structure Progress (α : Type) where
  /-- The record so far. -/
  record : α
  /-- The last parameter, with its values, before these are checked. -/
  pending : Option (Parameter α × List String) := none
  /-- Whether the next argument may be a value of that parameter. -/
  awaitsValue : Bool := false
  /-- Whether the argument that stands by itself was given. -/
  hasPositional : Bool := false
  /-- Whether two dashes were given, behind which every argument stands by itself. -/
  onlyValues : Bool := false

namespace Progress

variable {α : Type}

/-- Check the values of the last parameter and put them into the record. -/
def settle (progress : Progress α) : Except UsageError (Progress α) :=
  match progress.pending with
  | none => .ok { progress with awaitsValue := false }
  | some (parameter, values) => do
    let record ← parameter.giveAll values progress.record
    .ok { progress with record := record, pending := none, awaitsValue := false }

/-- Read a parameter given by its name, and the value behind its equals sign if there is
one. -/
def named (progress : Progress α) (parameter : Parameter α) (value : Option String) :
    Except UsageError (Progress α) :=
  match parameter.arity, value with
  | .none, some _ => .error .unexpectedValue
  | .none, none => do
    let settled ← progress.settle
    .ok { settled with record := ← parameter.give "true" settled.record }
  | _, some value => do
    let settled ← progress.settle
    .ok { settled with record := ← parameter.give value settled.record }
  | _, none => do
    let settled ← progress.settle
    .ok { settled with pending := some (parameter, []), awaitsValue := true }

/-- Ask for information, once the last parameter is settled. -/
def ask (progress : Progress α) (information : UsageError) (value : Option String) :
    Except UsageError (Progress α) :=
  match value with
  | some _ => .error .unexpectedValue
  | none => do
    let _ ← progress.settle
    .error information

/-- Read an argument behind two dashes. -/
def long (signature : Signature α) (progress : Progress α) (name : String)
    (value : Option String) : Except UsageError (Progress α) :=
  match signature.named.find? fun parameter => parameter.name == name with
  | some parameter => progress.named parameter value
  | none =>
    if name = "help" then progress.ask .help value
    else if name = "version" && signature.hasVersion then progress.ask .version value
    else .error .unknownArgument

/-- Read an argument behind one dash; the first letter decides. -/
def short (signature : Signature α) (progress : Progress α) (letter : Char) :
    Except UsageError (Progress α) :=
  if letter = 'h' then progress.ask .help none
  else if letter = 'V' && signature.hasVersion then progress.ask .version none
  else .error .unknownArgument

/-- Read an argument without dashes, or behind two dashes alone: a value that is waited for, or
the argument that stands by itself. -/
def plain (signature : Signature α) (progress : Progress α) (argument : String) :
    Except UsageError (Progress α) :=
  match progress.awaitsValue && !progress.onlyValues, progress.pending with
  | true, some (parameter, values) =>
    .ok { progress with pending := some (parameter, values ++ [argument]), awaitsValue := false }
  | _, _ =>
    match signature.positional, progress.hasPositional with
    | some parameter, false => do
      let settled ← progress.settle
      .ok { settled with pending := some (parameter, [argument]), hasPositional := true }
    | _, _ => .error signature.surplus

/-- The name and the value of an argument behind two dashes. -/
def splitLong (characters : List Char) : String × Option String :=
  let name := String.ofList (characters.takeWhile (· != '='))
  match characters.dropWhile (· != '=') with
  | [] => (name, none)
  | _ :: value => (name, some (String.ofList value))

/-- Read one argument. -/
def step (signature : Signature α) (progress : Progress α) (argument : String) :
    Except UsageError (Progress α) :=
  if progress.onlyValues then progress.plain signature argument
  else
    match argument.toList with
    | ['-', '-'] => .ok { progress with onlyValues := true }
    | '-' :: '-' :: characters =>
      let (name, value) := splitLong characters
      progress.long signature name value
    | '-' :: letter :: _ => progress.short signature letter
    | _ => progress.plain signature argument

end Progress

/-- Read all arguments of a command into a record that holds its defaults. -/
def Signature.read {α : Type} (signature : Signature α) (record : α) (arguments : List String) :
    Except UsageError α := do
  let progress ← arguments.foldlM (Progress.step signature) ⟨record, none, false, false, false⟩
  return (← progress.settle).record

end CodeClones.Command
