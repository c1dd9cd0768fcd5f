import CodeClones.Numeric.Binary64
import CodeClones.Text.Digits

/-!
# Numeric literals

The value of a number as it is written in a program: hexadecimal, octal, binary or decimal, an
octal number behind a plain zero included. Digit separators have been removed before. A number
in a base other than ten has a value only below `wholeBound`.
-/

namespace CodeClones.Numeric

open CodeClones.Text

/-- Whole numbers of a base other than ten must stay below this bound. -/
def wholeBound : Nat := Nat.pow 2 128

/-- A decimal number in parts: the digits before and after the point, and the exponent. -/
structure DecimalParts where
  /-- Digits before the point. -/
  whole : List Char
  /-- Digits after the point. -/
  fraction : List Char
  /-- Power of ten that multiplies the number. -/
  exponent : Int

/-- The exponent behind its mark: an optional sign and at least one digit. -/
def exponentOf? : List Char → Option Int
  | '-' :: digits => (natOfDigits? 10 digits).map fun value => -(value : Int)
  | digits => (natOfChars? 10 digits).map fun value => (value : Int)

/-- Whether the character marks an exponent. -/
def isExponentMark (character : Char) : Bool :=
  character == 'e' || character == 'E'

/-- What may follow the digits of a decimal number: nothing, or an exponent. -/
def exponentPart? : List Char → Option Int
  | [] => some 0
  | mark :: rest => if isExponentMark mark then exponentOf? rest else none

/-- Split a decimal number into its parts; a digit must stand before or after the point. -/
def decimalParts? (characters : List Char) : Option DecimalParts := do
  let whole := characters.takeWhile isDecimalDigit
  let rest := characters.dropWhile isDecimalDigit
  let (fraction, rest) := match rest with
    | '.' :: more => (more.takeWhile isDecimalDigit, more.dropWhile isDecimalDigit)
    | other => ([], other)
  guard (!whole.isEmpty || !fraction.isEmpty)
  some ⟨whole, fraction, ← exponentPart? rest⟩

/-- The floating-point number nearest to a decimal number without sign, with the words for the
values that have no digits. -/
def unsignedDecimal? (negative : Bool) (characters : List Char) : Option Binary64 :=
  let word := String.ofList (lowerAscii characters)
  if word = "inf" ∨ word = "infinity" then some (.infinity negative)
  else if word = "nan" then some (.nan negative)
  else do
    let parts ← decimalParts? characters
    let digits ← continueNat? 10 0 (parts.whole ++ parts.fraction)
    some (.ofDecimal negative digits (parts.exponent - parts.fraction.length))

/-- The floating-point number nearest to a decimal number. -/
def decimal? : List Char → Option Binary64
  | '-' :: rest => unsignedDecimal? true rest
  | '+' :: rest => unsignedDecimal? false rest
  | rest => unsignedDecimal? false rest

/-- The floating-point number nearest to a whole number written in the base. -/
def whole? (base : Nat) (digits : List Char) : Option Binary64 :=
  (boundedNat? base wholeBound digits).map Binary64.ofNat

/-- Whether the characters are a zero followed by octal digits only. -/
def isLegacyOctal : List Char → Bool
  | '0' :: digit :: rest => (digit :: rest).all fun character => (digitOf? 8 character).isSome
  | _ => false

/-- The value of a numeric literal without separators. -/
def literal? (characters : List Char) : Option Binary64 :=
  match lowerAscii characters with
  | '0' :: 'x' :: digits => whole? 16 digits
  | '0' :: 'o' :: digits => whole? 8 digits
  | '0' :: 'b' :: digits => whole? 2 digits
  | lower => if isLegacyOctal lower then whole? 8 (lower.drop 1) else decimal? lower

end CodeClones.Numeric
