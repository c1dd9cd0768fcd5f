import CodeClones.Text.Digits

/-!
# Readers

A reader takes the front of the characters it is given and returns what it has read together
with the characters behind it, or nothing when they do not have the required form.
-/

namespace CodeClones.Text

/-- Reads from the front of a text. -/
abbrev Reader (α : Type) := List Char → Option (α × List Char)

/-- Put a character in front of a text that was read. -/
def before (character : Char) (read : Option (List Char × List Char)) :
    Option (List Char × List Char) :=
  read.map fun found => (character :: found.1, found.2)

/-- Put a character in front of a text that was read, if there is one. -/
def beforeSome (character : Option Char) (read : Option (List Char × List Char)) :
    Option (List Char × List Char) :=
  character.bind fun character => before character read

/-- The character of a code point written with hexadecimal digits. -/
def codePoint? (digits : List Char) : Option Char :=
  (natOfDigits? 16 digits).bind fun code =>
    if code.isValidChar then some (Char.ofNat code) else none

end CodeClones.Text
