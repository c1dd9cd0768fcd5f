import CodeClones.Numeric.Shortest
import CodeClones.Settings.Toml.Lexical
import CodeClones.Settings.Value

/-!
# TOML: writing

A table is written as a document: first the fields that are no tables, then the tables, each
under its header. A list has one item on a line. Fields that are absent are left out.
-/

namespace CodeClones.Settings.Toml

/-- A character of a text in quotes. -/
def writeCharacter (character : Char) : String :=
  if character = '"' then "\\\""
  else if character = '\\' then "\\\\"
  else if character = '\n' then "\\n"
  else if isControl character then
    let digits := Nat.toDigits 16 character.toNat
    "\\u" ++ String.ofList (List.replicate (4 - digits.length) '0' ++ digits)
  else String.singleton character

/-- A text in quotes. -/
def writeText (text : String) : String :=
  "\"" ++ String.join (text.toList.map writeCharacter) ++ "\""

mutual

/-- A value behind the equals sign; none when it is absent. -/
def write? : Value → Option String
  | .absent => none
  | .flag value => some (if value then "true" else "false")
  | .integer value => some (toString value)
  | .real value => some value.text
  | .text value => some (writeText value)
  | .list [] => some "[]"
  | .list items => some ("[\n" ++ writeItems items ++ "]")
  | .table fields => some ("\x7b " ++ ", ".intercalate (writePairs fields) ++ " \x7d")

/-- The items of a list, one on a line. -/
def writeItems : List Value → String
  | [] => ""
  | item :: others =>
    (match write? item with
    | some text => "    " ++ text ++ ",\n"
    | none => "") ++ writeItems others

/-- The pairs of a table inside a line. -/
def writePairs : List (String × Value) → List String
  | [] => []
  | (key, value) :: others =>
    (match write? value with
    | some text => [key ++ " = " ++ text]
    | none => []) ++ writePairs others

end

/-- A field that is no table, on lines of its own. -/
def writeField (field : String × Value) : String :=
  match field.2 with
  | .table _ => ""
  | value =>
    match write? value with
    | some text => field.1 ++ " = " ++ text ++ "\n"
    | none => ""

/-- A field that is a table, under its header. -/
def writeSection (field : String × Value) : String :=
  match field.2 with
  | .table fields => "\n[" ++ field.1 ++ "]\n" ++ String.join (fields.map writeField)
  | _ => ""

/-- The document of fields whose tables hold no tables. -/
def write (fields : Fields) : String :=
  String.join (fields.map writeField) ++ String.join (fields.map writeSection)

end CodeClones.Settings.Toml
