/-!
# Whitespace

Two classes of characters decide what counts as blank. `isSpace` is the Unicode property
`White_Space`; text literals are trimmed with it. `isGapSpace` is the class that may stand
between two neighbouring pieces of code: it adds the byte order mark and leaves out the
next-line control character, as the escape `\s` of the scanned language does.
-/

namespace CodeClones.Text

/-- Characters with the Unicode property `White_Space`. -/
def isSpace (character : Char) : Bool :=
  let code := character.toNat
  (0x09 ≤ code && code ≤ 0x0D) || code == 0x20 || code == 0x85 || code == 0xA0 ||
    code == 0x1680 || (0x2000 ≤ code && code ≤ 0x200A) || code == 0x2028 || code == 0x2029 ||
    code == 0x202F || code == 0x205F || code == 0x3000

/-- Characters that may separate two neighbouring pieces of code. -/
def isGapSpace (character : Char) : Bool :=
  character.toNat == 0xFEFF || (isSpace character && character.toNat != 0x85)

/-- The characters without leading whitespace. -/
def trimStart (characters : List Char) : List Char :=
  characters.dropWhile isSpace

/-- The characters without trailing whitespace. -/
def trimEnd (characters : List Char) : List Char :=
  (trimStart characters.reverse).reverse

/-- The characters without leading and trailing whitespace. -/
def trimChars (characters : List Char) : List Char :=
  trimEnd (trimStart characters)

/-- The text without leading and trailing whitespace. -/
def trim (text : String) : String :=
  String.ofList (trimChars text.toList)

/-- The text with every whitespace character removed. -/
def withoutSpaces (text : String) : String :=
  String.ofList (text.toList.filter fun character => !isSpace character)

/-- Whether the characters are all whitespace. -/
def isBlank (characters : List Char) : Bool :=
  characters.all isSpace

end CodeClones.Text
