import CodeClones.Settings.Toml.Lexical
import CodeClones.Settings.Value
import CodeClones.Text.Lines

/-!
# TOML: numbers, truth values and moments

Scalars that are written without quotes. A moment, a date or a time or both, is kept as its
text in a uniform spelling.
-/

namespace CodeClones.Settings.Toml

open CodeClones.Text

/-! ## Numbers -/

/-- Digits of a base without the underscores between them; an underscore has a digit on either
side. -/
def digits? (base : Nat) (characters : List Char) : Option (List Char) :=
  let groups := pieces '_' characters
  if groups.all fun group => !group.isEmpty && group.all fun digit => (digitOf? base digit).isSome
  then some groups.flatten
  else none

/-- The digits of a whole number, which has no zero in front. -/
def wholeDigits? (characters : List Char) : Option (List Char) :=
  (digits? 10 characters).filter fun digits => digits == ['0'] || digits.head? != some '0'

/-- A number without its sign, and whether it is negative. -/
def sign : List Char → Bool × List Char
  | '+' :: rest => (false, rest)
  | '-' :: rest => (true, rest)
  | characters => (false, characters)

/-- The number that digits of a base write. -/
def natural? (base : Nat) (characters : List Char) : Option Nat :=
  (digits? base characters).bind (natOfDigits? base)

/-- Whole numbers lie below this bound, and not below its negative. -/
def integerBound : Nat := Nat.pow 2 63

/-- A whole number, in base ten or behind the mark of another base. -/
def integer? (characters : List Char) : Option Int :=
  let value : Option Int :=
    match characters with
    | '0' :: 'x' :: digits => (natural? 16 digits).map fun value => value
    | '0' :: 'o' :: digits => (natural? 8 digits).map fun value => value
    | '0' :: 'b' :: digits => (natural? 2 digits).map fun value => value
    | _ =>
      let (negative, body) := sign characters
      ((wholeDigits? body).bind (natOfDigits? 10)).map fun value =>
        if negative then -(value : Int) else value
  value.filter fun value => -(integerBound : Int) ≤ value && value < integerBound

/-- The characters before and behind the first one that passes a test. -/
def splitAt? (test : Char → Bool) (characters : List Char) : Option (List Char × List Char) :=
  match characters.dropWhile fun character => !test character with
  | [] => none
  | _ :: behind => some (characters.takeWhile fun character => !test character, behind)

/-- The exponent of a floating-point number. -/
def exponent? (characters : List Char) : Option Int :=
  let (negative, body) := sign characters
  (natural? 10 body).map fun value => if negative then -(value : Int) else value

/-- A floating-point number of digits: it has a point, an exponent, or both. -/
def decimal? (negative : Bool) (characters : List Char) : Option Binary64 := do
  let (mantissa, exponent, hasExponent) ←
    match splitAt? (fun character => character == 'e' || character == 'E') characters with
    | some (mantissa, exponent) => (exponent? exponent).map fun value => (mantissa, value, true)
    | none => some (characters, 0, false)
  let (whole, places, hasPoint) ←
    match splitAt? (· == '.') mantissa with
    | some (whole, places) => (digits? 10 places).map fun digits => (whole, digits, true)
    | none => some (mantissa, [], false)
  let whole ← wholeDigits? whole
  let digits ← natOfDigits? 10 (whole ++ places)
  let value := Binary64.ofDecimal negative digits (exponent - (places.length : Int))
  if (hasExponent || hasPoint) && value.magnitude != Binary64.infinityBits then some value
  else none

/-- A floating-point number. -/
def real? (characters : List Char) : Option Binary64 :=
  let (negative, body) := sign characters
  if body = ['i', 'n', 'f'] then some (.infinity negative)
  else if body = ['n', 'a', 'n'] then some (.nan negative)
  else decimal? negative body

/-! ## Moments -/

/-- The number of days of a month. -/
def daysIn (year month : Nat) : Nat :=
  if month == 2 then
    if year % 4 == 0 && (year % 100 != 0 || year % 400 == 0) then 29 else 28
  else if [4, 6, 9, 11].contains month then 30 else 31

/-- Two digits that write a number up to a bound. -/
def twoDigits? (bound : Nat) (first second : Char) : Option Nat :=
  (natOfDigits? 10 [first, second]).filter (· ≤ bound)

/-- A date at the front. -/
def date? : Reader (List Char)
  | a :: b :: c :: d :: '-' :: e :: f :: '-' :: g :: h :: rest => do
    let year ← natOfDigits? 10 [a, b, c, d]
    let month ← twoDigits? 12 e f
    let day ← twoDigits? (daysIn year month) g h
    if month = 0 || day = 0 then none
    else some ([a, b, c, d, '-', e, f, '-', g, h], rest)
  | _ => none

/-- The fraction of a second with its point: at most nine places, no zeros at the end but the
only one. -/
def fractionText (digits : List Char) : List Char :=
  match ((digits.take 9).reverse.dropWhile (· == '0')).reverse with
  | [] => ['.', '0']
  | kept => '.' :: kept

/-- The seconds of a time, with their fraction. -/
def seconds? : Reader (List Char)
  | ':' :: a :: b :: rest => do
    let _ ← twoDigits? 60 a b
    match rest with
    | '.' :: behind =>
      let digits := behind.takeWhile isDecimalDigit
      if digits.isEmpty then none
      else some ([':', a, b] ++ fractionText digits, behind.dropWhile isDecimalDigit)
    | _ => some ([':', a, b], rest)
  | ':' :: _ => none
  | rest => some ([], rest)

/-- A time of day at the front. -/
def time? : Reader (List Char)
  | a :: b :: ':' :: c :: d :: rest => do
    let _ ← twoDigits? 23 a b
    let _ ← twoDigits? 59 c d
    let (seconds, rest) ← seconds? rest
    some ([a, b, ':', c, d] ++ seconds, rest)
  | _ => none

/-- The distance from universal time that is left of a moment; no distance has a plus sign. -/
def offset? : List Char → Option (List Char)
  | [] => some []
  | ['Z'] | ['z'] => some ['Z']
  | [direction, a, b, ':', c, d] => do
    let hours ← twoDigits? 23 a b
    let minutes ← twoDigits? 59 c d
    if direction = '+' || (direction = '-' && hours + minutes = 0) then
      some ['+', a, b, ':', c, d]
    else if direction = '-' then some ['-', a, b, ':', c, d]
    else none
  | _ => none

/-- A moment in its uniform spelling. -/
def moment? (characters : List Char) : Option String :=
  match date? characters with
  | some (date, []) => some (String.ofList date)
  | some (date, separator :: rest) =>
    if separator = 'T' || separator = 't' || separator = ' ' then do
      let (time, rest) ← time? rest
      let offset ← offset? rest
      some (String.ofList (date ++ 'T' :: time ++ offset))
    else none
  | none =>
    match time? characters with
    | some (time, []) => some (String.ofList time)
    | _ => none

/-! ## All scalars -/

/-- Characters of scalars without quotes. -/
def isScalarCharacter (character : Char) : Bool :=
  character.isAlphanum || ['+', '-', '_', '.', ':'].contains character

/-- The characters of a scalar. A blank between a date and a time belongs to the scalar. -/
def scalarRun (characters : List Char) : List Char × List Char :=
  let run := characters.takeWhile isScalarCharacter
  match characters.dropWhile isScalarCharacter with
  | ' ' :: digit :: rest =>
    if isDecimalDigit digit && (date? run).any (·.2.isEmpty) then
      (run ++ ' ' :: (digit :: rest).takeWhile isScalarCharacter,
        (digit :: rest).dropWhile isScalarCharacter)
    else (run, ' ' :: digit :: rest)
  | rest => (run, rest)

/-- The value of a scalar. -/
def scalarValue? (run : List Char) : Option Value :=
  match String.ofList run with
  | "true" => some (.flag true)
  | "false" => some (.flag false)
  | _ =>
    (((integer? run).map Value.integer).or ((real? run).map Value.real)).or
      ((moment? run).map Value.text)

/-- A scalar without quotes. -/
def scalar : Reader Value := fun characters =>
  let (run, rest) := scalarRun characters
  (scalarValue? run).map fun value => (value, rest)

end CodeClones.Settings.Toml
