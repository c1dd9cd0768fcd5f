import CodeClones.Text.Lines
import CodeClones.Text.Whitespace

/-!
# Common indentation

A snippet starts where its code starts, so its first line carries no indentation while the
lines after it carry that of the surrounding code. `dedent` removes what those lines have in
common.
-/

namespace CodeClones.Text

/-- The characters that indent a line. -/
def isIndent (character : Char) : Bool :=
  character == ' ' || character == '\t'

/-- Number of leading spaces and tabs of a line. -/
def indentOf (line : List Char) : Nat :=
  (line.takeWhile isIndent).length

/-- The smallest number of leading spaces and tabs over the lines that are not blank; zero
when every line is blank. -/
def commonIndent (lines : List (List Char)) : Nat :=
  ((lines.filter fun line => !isBlank line).map indentOf).min?.getD 0

/-- Remove leading spaces and tabs, at most as many as given. -/
def cutIndent (indent : Nat) (line : List Char) : List Char :=
  line.drop (((line.take indent).takeWhile isIndent).length)

/-- Remove from every line but the first the indentation that they have in common. -/
def dedentLines : List (List Char) → List (List Char)
  | [] => []
  | first :: others => first :: others.map (cutIndent (commonIndent others))

/-- Remove from every line but the first the indentation that they have in common; the lines
are joined by line feeds, without one at the end. -/
def dedent (text : String) : String :=
  String.ofList (joinLines (dedentLines (lines text.toList)))

end CodeClones.Text
