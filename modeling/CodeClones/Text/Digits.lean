/-!
# Reading digits

Whole numbers written in a positional base. A plus sign may stand in front, as in every number
this library reads; at least one digit must follow it.
-/

namespace CodeClones.Text

/-- The value of a digit or of a letter that continues the digits, in either case. -/
def digitValue? (character : Char) : Option Nat :=
  let code := character.toNat
  if 0x30 ≤ code && code ≤ 0x39 then some (code - 0x30)
  else if 0x61 ≤ code && code ≤ 0x7A then some (code - 0x61 + 10)
  else if 0x41 ≤ code && code ≤ 0x5A then some (code - 0x41 + 10)
  else none

/-- The value of a character as a digit of the base. -/
def digitOf? (base : Nat) (character : Char) : Option Nat :=
  (digitValue? character).filter (· < base)

/-- Continue a number by the digits of the base; none when some character is not such a
digit. -/
def continueNat? (base : Nat) : Nat → List Char → Option Nat
  | value, [] => some value
  | value, character :: rest =>
    match digitOf? base character with
    | some digit => continueNat? base (value * base + digit) rest
    | none => none

/-- The number written by the characters: at least one digit of the base. -/
def natOfDigits? (base : Nat) : List Char → Option Nat
  | [] => none
  | characters => continueNat? base 0 characters

/-- The number written by the characters: an optional plus sign, then at least one digit of
the base. -/
def natOfChars? (base : Nat) : List Char → Option Nat
  | '+' :: digits => natOfDigits? base digits
  | digits => natOfDigits? base digits

/-- The number written by the characters when it is below the bound. -/
def boundedNat? (base bound : Nat) (characters : List Char) : Option Nat :=
  (natOfChars? base characters).filter (· < bound)

/-- Whether the character is one of the ten digits. -/
def isDecimalDigit (character : Char) : Bool :=
  (digitOf? 10 character).isSome

/-- The lower case of an ASCII letter; other characters stay as they are. -/
def lowerAscii (characters : List Char) : List Char :=
  characters.map Char.toLower

end CodeClones.Text
