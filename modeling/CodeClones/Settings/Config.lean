import CodeClones.Candidates
import CodeClones.Detection
import CodeClones.Numeric.Shortest
import CodeClones.Settings.Value
import CodeClones.Text.Digits

/-!
# The configuration

What can be configured, the values that hold when nothing is, and how a configuration is read
from a value. Two readings differ in what they accept: the strict one takes every value only in
the form it stands for, the lenient one also a number for a text, a text for a number, and
several words for a truth value.
-/

namespace CodeClones.Settings

/-- Which reports are written. -/
inductive OutputFormat where
  /-- The report for programs. -/
  | json
  /-- The report for readers. -/
  | html
  /-- Both reports. -/
  | both
deriving DecidableEq, Repr

namespace OutputFormat

/-- The word for a format. -/
def word : OutputFormat → String
  | .json => "json"
  | .html => "html"
  | .both => "both"

/-- All formats. -/
def all : List OutputFormat := [.json, .html, .both]

/-- The format of a word. -/
def ofWord? (word : String) : Option OutputFormat :=
  all.find? fun format => format.word == word

/-- Whether the report for programs is written. -/
def writesJson (format : OutputFormat) : Bool := format != .html

/-- Whether the report for readers is written. -/
def writesHtml (format : OutputFormat) : Bool := format != .json

end OutputFormat

/-- What holds for scans unless a scan is asked for otherwise. -/
structure ScanConfig where
  /-- Least length of the base of a reported group. -/
  threshold : Nat
  /-- Which nodes are compared. -/
  scope : Scope
  /-- Whether names are checked. -/
  checkNames : Bool
  /-- Which reports are written. -/
  format : OutputFormat
  /-- How many milliseconds comparing may take, if there is a limit. -/
  timeBudget : Option Nat
  /-- Whether hidden files and directories are scanned. -/
  includeHidden : Bool
deriving DecidableEq, Repr

/-- A configuration. -/
structure Config where
  /-- Globs of paths that are never scanned. -/
  ignorePatterns : List String
  /-- The directory for the reports. -/
  outputDirectory : String
  /-- What holds for scans. -/
  scan : ScanConfig
deriving DecidableEq, Repr

/-- What holds for scans when nothing is configured. -/
def ScanConfig.default : ScanConfig :=
  ⟨defaultThreshold, .statements, false, .both, none, false⟩

/-- The configuration when nothing is configured. -/
def Config.default : Config where
  ignorePatterns := ["node_modules", "**/node_modules/**", "dist", "build", "coverage",
    ".simstruct", "**/*.min.js", "**/*.d.ts"]
  outputDirectory := ".simstruct"
  scan := .default

/-! ## Readings -/

/-- How the parts of a configuration are read from values. -/
structure Reading where
  /-- A number that is not negative. -/
  natural? : Value → Option Nat
  /-- A truth value. -/
  flag? : Value → Option Bool
  /-- A text. -/
  text? : Value → Option String
  /-- One of some words. -/
  word? : List String → Value → Option String
  /-- Whether a list that stands for a record may not be longer than the record. -/
  exact : Bool

/-- One more than the greatest number that can be configured. -/
def numberBound : Nat := Nat.pow 2 64

/-- The reading that takes every value only in the form it stands for. A word may also be the
key of an empty field. -/
def Reading.strict : Reading where
  natural?
    | .integer value => if 0 ≤ value && value < numberBound then some value.toNat else none
    | _ => none
  flag?
    | .flag value => some value
    | _ => none
  text?
    | .text value => some value
    | _ => none
  word? words
    | .text value => words.find? (· == value)
    | .table [(value, .absent)] => words.find? (· == value)
    | _ => none
  exact := true

/-- The text in lower case, as far as it is ASCII. -/
def lowerCase (text : String) : String :=
  String.ofList (Text.lowerAscii text.toList)

/-- Words for the truth. -/
def trueWords : List String := ["true", "on", "yes"]

/-- Words for its opposite. -/
def falseWords : List String := ["false", "off", "no"]

/-- The number that a text stands for: its digits, or one and zero for truth values. -/
def naturalOfText? (text : String) : Option Nat :=
  if trueWords.contains (lowerCase text) then some 1
  else if falseWords.contains (lowerCase text) then some 0
  else Text.boundedNat? 10 numberBound text.toList

/-- The truth value that a text stands for. -/
def flagOfText? (text : String) : Option Bool :=
  if lowerCase text == "1" || trueWords.contains (lowerCase text) then some true
  else if lowerCase text == "0" || falseWords.contains (lowerCase text) then some false
  else none

/-- The reading that converts between numbers, truth values and texts. A word may also be the
only key of a table. -/
def Reading.lenient : Reading where
  natural?
    | .integer value => if 0 ≤ value && value < numberBound then some value.toNat else none
    | .flag value => some (if value then 1 else 0)
    | .real value => some (value.toNatBelow numberBound)
    | .text value => naturalOfText? value
    | _ => none
  flag?
    | .flag value => some value
    | .integer value => some (value != 0)
    | .real value => some !value.isZero
    | .text value => flagOfText? value
    | _ => none
  text?
    | .text value => some value
    | .flag value => some (if value then "true" else "false")
    | .integer value => some (toString value)
    | .real value => some value.text
    | _ => none
  word? words
    | .text value => words.find? (· == value)
    | .table [(value, _)] => words.find? (· == value)
    | _ => none
  exact := false

namespace Reading

/-- A number that may be absent. -/
def optionalNatural? (reading : Reading) : Value → Option (Option Nat)
  | .absent => some none
  | value => some <$> reading.natural? value

/-- A list of texts. -/
def texts? (reading : Reading) : Value → Option (List String)
  | .list items => items.mapM reading.text?
  | _ => none

/-- A scope, given by its word. -/
def scope? (reading : Reading) (value : Value) : Option Scope :=
  (reading.word? ["statements", "comparable"] value).bind Scope.ofWord?

/-- A format, given by its word. -/
def format? (reading : Reading) (value : Value) : Option OutputFormat :=
  (reading.word? (OutputFormat.all.map (·.word)) value).bind OutputFormat.ofWord?

/-- What holds for scans; fields that are missing keep their values, others do not count. -/
def scanConfig? (reading : Reading) (value : Value) : Option ScanConfig := do
  let base := ScanConfig.default
  let fields ← value.record? ["threshold", "scope", "check_names", "format", "time_budget_ms",
    "include_hidden"] reading.exact
  let threshold ← fields.read? "threshold" reading.natural? base.threshold
  let scope ← fields.read? "scope" reading.scope? base.scope
  let checkNames ← fields.read? "check_names" reading.flag? base.checkNames
  let format ← fields.read? "format" reading.format? base.format
  let timeBudget ← fields.read? "time_budget_ms" reading.optionalNatural? base.timeBudget
  let includeHidden ← fields.read? "include_hidden" reading.flag? base.includeHidden
  some ⟨threshold, scope, checkNames, format, timeBudget, includeHidden⟩

/-- A configuration; fields that are missing keep their values, others do not count. -/
def config? (reading : Reading) (value : Value) : Option Config := do
  let base := Config.default
  let fields ← value.record? ["ignore_patterns", "output_dir", "scan"] reading.exact
  let ignorePatterns ← fields.read? "ignore_patterns" reading.texts? base.ignorePatterns
  let outputDirectory ← fields.read? "output_dir" reading.text? base.outputDirectory
  let scan ← fields.read? "scan" reading.scanConfig? base.scan
  some ⟨ignorePatterns, outputDirectory, scan⟩

end Reading

/-! ## Writing -/

/-- The value of what holds for scans. -/
def ScanConfig.toValue (scan : ScanConfig) : Value :=
  .table [
    ("threshold", .integer scan.threshold),
    ("scope", .text scan.scope.word),
    ("check_names", .flag scan.checkNames),
    ("format", .text scan.format.word),
    ("time_budget_ms", (scan.timeBudget.map fun (limit : Nat) => Value.integer limit).getD .absent),
    ("include_hidden", .flag scan.includeHidden)]

/-- The value of a configuration. -/
def Config.toValue (config : Config) : Value :=
  .table [
    ("ignore_patterns", .list (config.ignorePatterns.map Value.text)),
    ("output_dir", .text config.outputDirectory),
    ("scan", config.scan.toValue)]

end CodeClones.Settings
