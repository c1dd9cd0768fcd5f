import CodeClones.Files.Folder
import CodeClones.Settings.Config
import CodeClones.Settings.Json
import CodeClones.Settings.Toml.Document
import CodeClones.Settings.Toml.Writer

/-!
# Sources of the configuration

The built-in configuration lies at the bottom. Over it comes the first configuration file that
is there, and over that come the environment variables whose names begin with the name of the
program. A name stands for a path into the configuration: keys separated by dots, behind which
positions of lists may stand in brackets. In the name of a variable two underscores take the
place of a dot.
-/

namespace CodeClones.Settings

/-- The names of configuration files; the first one that is there counts. -/
def configFiles : List String := ["simstruct.toml", ".simstruct.toml"]

/-- What the names of environment variables begin with, in lower case. -/
def variableStart : String := "simstruct__"

/-- Why no configuration could be loaded. -/
inductive ConfigError where
  /-- The configuration file is no document of its format. -/
  | unreadable
  /-- Some value has the wrong form. -/
  | unsuitable
deriving DecidableEq, Repr

/-- What is said about it. -/
def ConfigError.message : ConfigError → String
  | .unreadable => "Failed to load configuration"
  | .unsuitable => "Failed to parse configuration"

/-! ## Names -/

/-- Positions lie below this bound, and not below its negative. -/
def positionBound : Nat := Nat.pow 2 63

/-- The position between an opening bracket and the end of the characters, which is a closing
one; blanks around the number do not count. -/
def position? (characters : List Char) : Option Int :=
  match characters.reverse with
  | ']' :: inner =>
    let body := (inner.dropWhile Toml.isBlank).reverse.dropWhile Toml.isBlank
    let value : Option Int :=
      match body with
      | '-' :: digits => (Text.natOfDigits? 10 digits).map fun value => -(value : Int)
      | digits => (Text.natOfDigits? 10 digits).map fun value => value
    value.filter fun value => -(positionBound : Int) ≤ value && value < positionBound
  | _ => none

/-- The steps that a part of a name stands for: a key, then any number of positions in
brackets. -/
def stepsOf? (part : List Char) : Option (List Step) :=
  let key := part.takeWhile Toml.isKeyCharacter
  match Text.pieces '[' (part.dropWhile Toml.isKeyCharacter) with
  | [] :: positions =>
    if key.isEmpty then none
    else (positions.mapM position?).map fun indices =>
      .key (String.ofList key) :: indices.map Step.position
  | _ => none

/-- The path that a name stands for: its parts joined by dots. A name of any other form is a
key by itself. -/
def pathOf (name : String) : List Step :=
  match (Text.pieces '.' name.toList).mapM stepsOf? with
  | some steps => steps.flatten
  | none => [.key name]

/-- Lay a value under a name over another value. -/
def layOver (below : Value) (entry : String × Value) : Value :=
  entry.2.layAt (pathOf entry.1) below

/-! ## Environment variables -/

/-- Two underscores become a dot, from the front on. -/
def dotted : List Char → List Char
  | '_' :: '_' :: rest => '.' :: dotted rest
  | character :: rest => character :: dotted rest
  | [] => []

/-- The lower case of a character as far as that is ASCII: the one of an ASCII letter, and the
letter `k` for the sign of kelvins. -/
def lowerCharacter (character : Char) : Char :=
  if character.toNat = 0x212A then 'k' else character.toLower

/-- The name and value that an environment variable gives, if it concerns the program. -/
def ofVariable? (setting : String × String) : Option (String × Value) :=
  let name := setting.1.toList
  let start := variableStart.toList
  if Text.lowerAscii (name.take start.length) == start then
    let rest := (dotted (name.drop start.length)).map lowerCharacter
    some (String.ofList rest, .text setting.2)
  else none

/-! ## Configuration files -/

/-- The bytes without the byte order mark in front. -/
def withoutMark : List UInt8 → List UInt8
  | 0xEF :: 0xBB :: 0xBF :: rest => rest
  | content => content

/-- The formats of configuration files, by their extensions. -/
def formats : List (String × (String → Option Fields)) :=
  [("toml", Toml.parse?), ("json", Json.parse?)]

/-- The fields of a configuration file. When its name leads to no file, the file with one more
extension is taken, whose format that extension says. -/
def fieldsOf? (folder : Folder) (name : String) : Option Fields :=
  let candidates := (name, Toml.parse?) ::
    formats.map fun format => (name ++ "." ++ format.1, format.2)
  (candidates.findSome? fun candidate =>
    (folder.readBytes? candidate.1).map fun content =>
      candidate.2 (Text.decode (withoutMark content))).bind id

/-- The fields of the configuration file that a folder has; none without such a file. -/
def fileFields (folder : Folder) : Except ConfigError Fields :=
  match configFiles.find? folder.exists? with
  | none => .ok []
  | some name =>
    match fieldsOf? folder name with
    | some fields => .ok fields
    | none => .error .unreadable

/-- The configuration for a folder and the environment. -/
def Config.load (folder : Folder) (environment : List (String × String)) :
    Except ConfigError Config := do
  let fields ← fileFields folder
  let entries := fields ++ environment.filterMap ofVariable?
  match Reading.lenient.config? (entries.foldl layOver Config.default.toValue) with
  | some config => .ok config
  | none => .error .unsuitable

/-- The text of a configuration file that holds the built-in configuration. -/
def defaultText : String :=
  Toml.write Config.default.toValue.fields

end CodeClones.Settings
