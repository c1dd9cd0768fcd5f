/-!
# Text inside markup

The five characters that markup gives a meaning are written as entities, so that any text can
stand in a page.
-/

namespace CodeClones.Text

/-- A character as it is written inside markup. -/
def entity (character : Char) : List Char :=
  match character with
  | '&' => "&amp;".toList
  | '<' => "&lt;".toList
  | '>' => "&gt;".toList
  | '"' => "&quot;".toList
  | '\'' => "&#39;".toList
  | other => [other]

/-- Characters as they are written inside markup. -/
def escapeMarkupChars (characters : List Char) : List Char :=
  characters.flatMap entity

/-- A text as it is written inside markup. -/
def escapeMarkup (text : String) : String :=
  String.ofList (escapeMarkupChars text.toList)

end CodeClones.Text
