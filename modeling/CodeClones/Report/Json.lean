import CodeClones.Report.Entry

/-!
# Reports as structured data

The report as an array of groups of objects, indented by two spaces a level. A string escapes
the quote, the backslash and the control characters below the space; every other character
stands for itself.
-/

namespace CodeClones.Report

/-- One of the sixteen digits of a hexadecimal number. -/
def hexDigit (value : Nat) : Char :=
  (Nat.digitChar (value % 16))

/-- A character inside a quoted string. -/
def quotedChar (character : Char) : List Char :=
  let code := character.toNat
  if character == '"' then "\\\"".toList
  else if character == '\\' then "\\\\".toList
  else if code == 0x08 then "\\b".toList
  else if code == 0x09 then "\\t".toList
  else if code == 0x0A then "\\n".toList
  else if code == 0x0C then "\\f".toList
  else if code == 0x0D then "\\r".toList
  else if code < 0x20 then "\\u00".toList ++ [hexDigit (code / 16), hexDigit code]
  else [character]

/-- A text as a quoted string. -/
def quoted (text : String) : String :=
  String.ofList ('"' :: text.toList.flatMap quotedChar ++ ['"'])

/-- Spaces that indent a line. -/
def indentation (level : Nat) : String :=
  String.ofList (List.replicate (2 * level) ' ')

/-- Items one to a line between two brackets, or the bare brackets when there are none. -/
def bracketed (opening closing : String) (level : Nat) (items : List String) : String :=
  match items with
  | [] => opening ++ closing
  | items =>
    let inner := ",\n".intercalate (items.map fun item => indentation (level + 1) ++ item)
    opening ++ "\n" ++ inner ++ "\n" ++ indentation level ++ closing

/-- A labelled value. -/
def labelled (label value : String) : String :=
  quoted label ++ ": " ++ value

/-- An entry at an indentation level. -/
def entryJson (level : Nat) (entry : ReportEntry) : String :=
  bracketed "\x7b" "\x7d" level
    [labelled "file" (quoted entry.file),
      labelled "start" (toString entry.start),
      labelled "end" (toString entry.stop),
      labelled "start_line" (toString entry.startLine),
      labelled "end_line" (toString entry.endLine),
      labelled "snippet" (quoted entry.snippet)]

/-- The report as structured data. -/
def toJson (report : Report) : String :=
  bracketed "[" "]" 0
    (report.groups.map fun group => bracketed "[" "]" 1 (group.map (entryJson 2)))

end CodeClones.Report
