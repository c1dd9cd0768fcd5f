import CodeClones.Text.Digits
import CodeClones.Text.Decoding

/-!
# Quotes and escape sequences

The value of a string literal is its text between the quotes with every escape sequence
replaced by what it stands for. A malformed escape sequence has no value, and neither has the
literal that holds it.
-/

namespace CodeClones.Text

/-- Whether the character delimits literals. -/
def isQuote (character : Char) : Bool :=
  character == '"' || character == '\'' || character == Char.ofNat 0x60

/-- The characters between a pair of equal quotes at both ends; other texts stay whole. -/
def unquoteChars : List Char → List Char
  | [] => []
  | first :: rest =>
    if isQuote first && rest.getLast? == some first then rest.dropLast else first :: rest

/-- The text between a pair of equal quotes at both ends; other texts stay whole. -/
def unquote (text : String) : String :=
  String.ofList (unquoteChars text.toList)

/-- The character with a code; codes that are no character give the replacement character. -/
def charOfCode (code : Nat) : Char :=
  if code.isValidChar then Char.ofNat code else replacement

/-- Codes that are written with digits lie below this bound. -/
def codeBound : Nat := Nat.pow 2 32

/-- What an escape sequence contributes, and the characters after it. -/
abbrev Unescaped := List Char × List Char

/-- A code written with exactly the given number of characters. -/
def fixedEscape (width : Nat) (characters : List Char) : Option Unescaped := do
  if (characters.take width).length = width then
    let code ← boundedNat? 16 codeBound (characters.take width)
    some ([charOfCode code], characters.drop width)
  else none

/-- A code between braces; the closing brace may be missing at the end of the text. -/
def bracedEscape (characters : List Char) : Option Unescaped := do
  let code ← boundedNat? 16 codeBound (characters.takeWhile (· != '\x7d'))
  some ([charOfCode code], (characters.dropWhile (· != '\x7d')).drop 1)

/-- Whether the text goes on with a decimal digit. -/
def startsWithDigit (characters : List Char) : Bool :=
  characters.head?.any isDecimalDigit

/-- The escape sequence whose first character after the backslash is given. -/
def escapeSequence (character : Char) (rest : List Char) : Option Unescaped :=
  match character with
  | 'n' => some (['\n'], rest)
  | 't' => some (['\t'], rest)
  | 'r' => some (['\r'], rest)
  | 'b' => some ([Char.ofNat 0x08], rest)
  | 'f' => some ([Char.ofNat 0x0C], rest)
  | 'v' => some ([Char.ofNat 0x0B], rest)
  | '0' => some ([if startsWithDigit rest then '0' else Char.ofNat 0], rest)
  | '\n' => some ([], rest)
  | '\r' => some ([], if rest.head? = some '\n' then rest.drop 1 else rest)
  | 'x' => fixedEscape 2 rest
  | 'u' => if rest.head? = some '\x7b' then bracedEscape (rest.drop 1) else fixedEscape 4 rest
  | other =>
    if other.toNat == 0x2028 || other.toNat == 0x2029 then some ([], rest)
    else if isDecimalDigit other then none
    else some ([other], rest)

/-- An escape sequence never lengthens the text after it. -/
theorem escapeSequence_length_le {character : Char} {rest : List Char} {found : Unescaped}
    (read : escapeSequence character rest = some found) : found.2.length ≤ rest.length := by
  have fixed : ∀ width, fixedEscape width rest = some found → found.2.length ≤ rest.length := by
    intro width taken
    unfold fixedEscape at taken
    split at taken
    · simp only [Option.bind_eq_bind, Option.bind_eq_some_iff] at taken
      obtain ⟨_, _, same⟩ := taken
      cases same
      simp only [List.length_drop]
      omega
    · cases taken
  have braced : bracedEscape (rest.drop 1) = some found → found.2.length ≤ rest.length := by
    intro taken
    simp only [bracedEscape, Option.bind_eq_bind, Option.bind_eq_some_iff] at taken
    obtain ⟨_, _, same⟩ := taken
    cases same
    have shorter := (List.dropWhile_suffix (· != '\x7d') (l := rest.drop 1)).length_le
    simp only [List.length_drop] at shorter ⊢
    omega
  unfold escapeSequence at read
  split at read
  case h_9 =>
    cases read
    simp only
    split
    · simp only [List.length_drop]
      omega
    · exact Nat.le_refl _
  case h_10 => exact fixed 2 read
  case h_11 =>
    split at read
    · exact braced read
    · exact fixed 4 read
  case h_12 =>
    split at read
    · cases read
      exact Nat.le_refl _
    · split at read
      · cases read
      · cases read
        exact Nat.le_refl _
  all_goals
    cases read
    exact Nat.le_refl _

/-- The characters with every escape sequence replaced, after those already read, which are
kept in reverse. -/
def unescapeOnto (done : List Char) : List Char → Option (List Char)
  | [] => some done.reverse
  | first :: rest =>
    if first = '\\' then
      match rest with
      | [] => none
      | character :: rest =>
        match _found : escapeSequence character rest with
        | none => none
        | some (value, left) => unescapeOnto (value.reverse ++ done) left
    else unescapeOnto (first :: done) rest
termination_by characters => characters.length
decreasing_by
  · have shorter := escapeSequence_length_le _found
    simp only [List.length_cons] at shorter ⊢
    omega
  · simp only [List.length_cons]
    omega

/-- The characters with every escape sequence replaced; none when one is malformed. -/
def unescapeChars (characters : List Char) : Option (List Char) :=
  unescapeOnto [] characters

/-- The text with every escape sequence replaced; none when one is malformed. -/
def unescape (text : String) : Option String :=
  (unescapeChars text.toList).map String.ofList

/-- The value of a string literal; a literal with a malformed escape keeps its written text. -/
def literalValue (literal : String) : String :=
  let inner := unquote literal
  (unescape inner).getD inner

end CodeClones.Text
