import CodeClones.Text.Reader

/-!
# TOML: blanks, comments, texts and keys

The lowest level of the TOML format.
-/

namespace CodeClones.Settings.Toml

open CodeClones.Text (Reader before beforeSome codePoint?)

/-- Control characters, which neither comments nor texts may hold; a tab is none. -/
def isControl (character : Char) : Bool :=
  (character.toNat < 0x20 && character != '\t') || character.toNat == 0x7F

/-- Blanks inside a line. -/
def isBlank (character : Char) : Bool :=
  character == ' ' || character == '\t'

/-- What stands behind the end of the line that the characters begin with. -/
def newline? : List Char → Option (List Char)
  | '\n' :: rest => some rest
  | '\r' :: '\n' :: rest => some rest
  | _ => none

/-- Skip blanks and a comment, and also the ends of lines when these do not count; none when a
comment holds a control character. -/
def skip? (acrossLines inComment : Bool) : List Char → Option (List Char)
  | [] => some []
  | '\n' :: rest =>
    if acrossLines then skip? acrossLines false rest else some ('\n' :: rest)
  | '\r' :: '\n' :: rest =>
    if acrossLines then skip? acrossLines false rest else some ('\r' :: '\n' :: rest)
  | character :: rest =>
    if inComment then
      if isControl character then none else skip? acrossLines true rest
    else if isBlank character then skip? acrossLines false rest
    else if character = '#' then skip? acrossLines true rest
    else some (character :: rest)

/-- Skip blanks and a comment up to the end of the line. -/
def skipBlanks? (characters : List Char) : Option (List Char) :=
  skip? false false characters

/-- Skip blanks, comments and the ends of lines. -/
def skipLines? (characters : List Char) : Option (List Char) :=
  skip? true false characters

/-- Skip to the next line; none when anything but a comment is left on this one. -/
def endLine? (characters : List Char) : Option (List Char) := do
  match ← skipBlanks? characters with
  | [] => some []
  | rest => newline? rest

/-! ## Texts -/

/-- The character that a letter behind a backslash stands for. -/
def escaped? : Char → Option Char
  | 'b' => some (Char.ofNat 0x08)
  | 't' => some '\t'
  | 'n' => some '\n'
  | 'f' => some (Char.ofNat 0x0C)
  | 'r' => some '\r'
  | 'e' => some (Char.ofNat 0x1B)
  | '"' => some '"'
  | '\\' => some '\\'
  | _ => none

/-- Whether only blanks are left on the line. -/
def endsLine (characters : List Char) : Bool :=
  (newline? (characters.dropWhile isBlank)).isSome

/-- A text with escapes, up to its closing quotes. A text of several lines is closed by three
quotes, in front of which up to two may stand for themselves; a backslash at the end of a line
drops everything up to the next character that is no blank. -/
def quoted (severalLines dropping : Bool) : Reader (List Char)
  | [] => none
  | '"' :: rest =>
    if severalLines then
      match rest with
      | '"' :: '"' :: '"' :: '"' :: others => some (['"', '"'], others)
      | '"' :: '"' :: '"' :: others => some (['"'], others)
      | '"' :: '"' :: others => some ([], others)
      | _ => before '"' (quoted severalLines false rest)
    else some ([], rest)
  | '\\' :: 'x' :: a :: b :: rest =>
    beforeSome (codePoint? [a, b]) (quoted severalLines false rest)
  | '\\' :: 'u' :: a :: b :: c :: d :: rest =>
    beforeSome (codePoint? [a, b, c, d]) (quoted severalLines false rest)
  | '\\' :: 'U' :: a :: b :: c :: d :: e :: f :: g :: h :: rest =>
    beforeSome (codePoint? [a, b, c, d, e, f, g, h]) (quoted severalLines false rest)
  | '\\' :: character :: rest =>
    if severalLines && endsLine (character :: rest) then
      quoted severalLines true rest
    else beforeSome (escaped? character) (quoted severalLines false rest)
  | '\n' :: rest =>
    if !severalLines then none
    else if dropping then quoted severalLines true rest
    else before '\n' (quoted severalLines false rest)
  | '\r' :: '\n' :: rest =>
    if !severalLines then none
    else if dropping then quoted severalLines true rest
    else before '\r' (before '\n' (quoted severalLines false rest))
  | character :: rest =>
    if isControl character then none
    else if dropping && isBlank character then quoted severalLines true rest
    else before character (quoted severalLines false rest)

/-- A text without escapes, up to its closing apostrophes. -/
def verbatim (severalLines : Bool) : Reader (List Char)
  | [] => none
  | '\'' :: rest =>
    if severalLines then
      match rest with
      | '\'' :: '\'' :: '\'' :: '\'' :: others => some (['\'', '\''], others)
      | '\'' :: '\'' :: '\'' :: others => some (['\''], others)
      | '\'' :: '\'' :: others => some ([], others)
      | _ => before '\'' (verbatim severalLines rest)
    else some ([], rest)
  | '\n' :: rest => if severalLines then before '\n' (verbatim severalLines rest) else none
  | '\r' :: '\n' :: rest =>
    if severalLines then before '\r' (before '\n' (verbatim severalLines rest)) else none
  | character :: rest =>
    if isControl character then none else before character (verbatim severalLines rest)

/-- The characters behind the end of a line in front of them, if there is one. -/
def withoutFirstNewline (characters : List Char) : List Char :=
  (newline? characters).getD characters

/-- A text of one line, in quotes or apostrophes. -/
def lineText : Reader String
  | '"' :: rest => (quoted false false rest).map fun found => (String.ofList found.1, found.2)
  | '\'' :: rest => (verbatim false rest).map fun found => (String.ofList found.1, found.2)
  | _ => none

/-- A text of one or several lines. -/
def text : Reader String
  | '"' :: '"' :: '"' :: rest =>
    (quoted true false (withoutFirstNewline rest)).map fun found =>
      (String.ofList found.1, found.2)
  | '\'' :: '\'' :: '\'' :: rest =>
    (verbatim true (withoutFirstNewline rest)).map fun found =>
      (String.ofList found.1, found.2)
  | characters => lineText characters

/-! ## Keys -/

/-- Characters that a key may hold without quotes. -/
def isKeyCharacter (character : Char) : Bool :=
  character.isAlphanum || character == '_' || character == '-'

/-- A key, bare or as a text of one line. -/
def key : Reader String := fun characters =>
  match characters with
  | '"' :: _ | '\'' :: _ => lineText characters
  | _ =>
    match characters.takeWhile isKeyCharacter with
    | [] => none
    | bare => some (String.ofList bare, characters.dropWhile isKeyCharacter)

/-- How many keys a path may have, and how deep lists and tables in braces may be nested. -/
def nestingLimit : Nat := 80

/-- Keys joined by dots, with blanks around the dots; at most as many keys as the limit says. -/
def keysUpTo (limit : Nat) : Reader (List String) := fun characters =>
  match limit with
  | 0 => none
  | limit + 1 => do
    let (first, rest) ← key characters
    match rest.dropWhile isBlank with
    | '.' :: others =>
      let (path, rest) ← keysUpTo limit (others.dropWhile isBlank)
      some (first :: path, rest)
    | rest => some ([first], rest)

/-- A path of keys. -/
def keyPath : Reader (List String) := keysUpTo nestingLimit

end CodeClones.Settings.Toml
