import CodeClones.Settings.Value
import CodeClones.Text.Reader

/-!
# JSON documents

Reads the fields of a document in the JSON format. Of several fields with one key the last
counts. A whole number that does not fit into sixty-four bits with a sign is read as a
floating-point number. Floating-point numbers are read in three steps that round: to a
significand, to the floating-point number of it, and to its product with a power of ten.
-/

namespace CodeClones.Settings.Json

open CodeClones.Text (Reader before beforeSome codePoint? isDecimalDigit natOfDigits?)

/-- Blanks between the parts of a document. -/
def isBlank (character : Char) : Bool :=
  [' ', '\t', '\n', '\r'].contains character

/-! ## Texts -/

/-- The character that a letter behind a backslash stands for. -/
def escaped? : Char → Option Char
  | '"' => some '"'
  | '\\' => some '\\'
  | '/' => some '/'
  | 'b' => some (Char.ofNat 0x08)
  | 'f' => some (Char.ofNat 0x0C)
  | 'n' => some '\n'
  | 'r' => some '\r'
  | 't' => some '\t'
  | _ => none

/-- Whether hexadecimal digits write the upper half of a character. -/
def isUpperHalf (digits : List Char) : Bool :=
  (natOfDigits? 16 digits).any fun code => 0xD800 ≤ code && code < 0xDC00

/-- The character that two halves, both written with hexadecimal digits, make up. -/
def joined? (upper lower : List Char) : Option Char := do
  let high ← natOfDigits? 16 upper
  let low ← natOfDigits? 16 lower
  if 0xD800 ≤ high && high < 0xDC00 && 0xDC00 ≤ low && low < 0xE000 then
    some (Char.ofNat (0x10000 + (high - 0xD800) * 0x400 + (low - 0xDC00)))
  else none

/-- A text up to its closing quote, after the upper half of a character if one is given. -/
def quoted : (upper : Option (List Char)) → Reader (List Char)
  | none, '"' :: rest => some ([], rest)
  | none, '\\' :: 'u' :: a :: b :: c :: d :: rest =>
    if isUpperHalf [a, b, c, d] then quoted (some [a, b, c, d]) rest
    else beforeSome (codePoint? [a, b, c, d]) (quoted none rest)
  | none, '\\' :: character :: rest => beforeSome (escaped? character) (quoted none rest)
  | none, character :: rest =>
    if character.toNat < 0x20 then none else before character (quoted none rest)
  | some upper, '\\' :: 'u' :: a :: b :: c :: d :: rest =>
    beforeSome (joined? upper [a, b, c, d]) (quoted none rest)
  | _, _ => none

/-! ## Numbers -/

/-- At least one digit. -/
def digits : Reader (List Char) := fun characters =>
  match characters.takeWhile isDecimalDigit with
  | [] => none
  | found => some (found, characters.dropWhile isDecimalDigit)

/-- The places behind the point, if there is one. -/
def places : Reader (Option (List Char))
  | '.' :: rest => (digits rest).map fun found => (some found.1, found.2)
  | rest => some (none, rest)

/-- The exponent, if there is one. -/
def exponent : Reader (Option Int)
  | mark :: rest =>
    if mark = 'e' || mark = 'E' then do
      let (negative, rest) := match rest with
        | '-' :: rest => (true, rest)
        | '+' :: rest => (false, rest)
        | _ => (false, rest)
      let (found, rest) ← digits rest
      let value ← natOfDigits? 10 found
      some (some (if negative then -(value : Int) else value), rest)
    else some (none, mark :: rest)
  | [] => some (none, [])

/-- Whole numbers lie below this bound, and not below its negative. -/
def integerBound : Nat := Nat.pow 2 63

/-- The significand of a number lies below this bound. -/
def significandBound : Nat := Nat.pow 2 64

/-- Continue a significand by digits as long as it stays below its bound; the digits from the
first one that does not fit on are left. -/
def accumulate (significand : Nat) : List Char → Nat × List Char
  | [] => (significand, [])
  | digit :: rest =>
    let next := significand * 10 + (Text.digitOf? 10 digit).getD 0
    if next < significandBound then accumulate next rest else (significand, digit :: rest)

/-- The greatest exponent of a power of ten that is a floating-point number. -/
def powerLimit : Nat := 308

/-- The magnitude bits of a power of ten. -/
def powerOfTen (exponent : Nat) : Nat :=
  (Binary64.ofDecimal false 1 exponent).magnitude

/-- Divide a magnitude by a power of ten, in steps that are powers of ten themselves; every
step rounds. -/
def lowered (steps magnitude exponent : Nat) : Nat :=
  match steps with
  | 0 => Binary64.quotient magnitude (powerOfTen exponent)
  | steps + 1 =>
    if exponent ≤ powerLimit then Binary64.quotient magnitude (powerOfTen exponent)
    else if magnitude = 0 then 0
    else lowered steps (Binary64.quotient magnitude (powerOfTen powerLimit))
      (exponent - powerLimit)

/-- The magnitude bits of a significand times a power of ten, the significand and the result
being rounded one after the other; none when they would be infinite. -/
def scaled? (significand : Nat) (exponent : Int) : Option Nat :=
  let magnitude := (Binary64.ofNat significand).magnitude
  if exponent < 0 then some (lowered (exponent.natAbs / powerLimit) magnitude exponent.natAbs)
  else if magnitude = 0 then some 0
  else if powerLimit < exponent.natAbs then none
  else
    (some (Binary64.product magnitude (powerOfTen exponent.natAbs))).filter
      (· < Binary64.infinityBits)

/-- A whole number; too large ones and the negative zero are floating-point numbers. -/
def whole (negative : Bool) (value : Nat) : Value :=
  let signed : Int := if negative then -(value : Int) else value
  if -(integerBound : Int) ≤ signed && signed < integerBound && !(negative && value == 0) then
    .integer signed
  else .real (.ofDecimal negative value 0)

/-- A number. Only a single zero may stand in front. Digits that the significand has no room
for count as zeros before the point, and do not count behind it. -/
def number : Reader Value := fun characters => do
  let (negative, body) := match characters with
    | '-' :: rest => (true, rest)
    | _ => (false, characters)
  let (front, rest) ← digits body
  let (behind, rest) ← places rest
  let (power, rest) ← exponent rest
  if front.head? = some '0' && front ≠ ['0'] then none
  else
    let (significand, dropped) := accumulate 0 front
    if behind.isNone && power.isNone && dropped.isEmpty then
      some (whole negative significand, rest)
    else
      let (significand, ignored) := accumulate significand (behind.getD [])
      let kept : Int := (behind.getD []).length - ignored.length
      let magnitude ← scaled? significand (power.getD 0 + dropped.length - kept)
      some (.real (.ofMagnitude negative magnitude), rest)

/-! ## Values -/

/-- How deep lists and tables may be nested. -/
def nestingLimit : Nat := 127

/-- The fields of a table from its pairs. -/
def fieldsOf (pairs : List (String × Value)) : Fields :=
  pairs.foldl (fun fields pair => Fields.put fields pair.1 pair.2) []

mutual

/-- A value behind blanks, within which lists and tables may be nested as deep as said; the
fuel bounds the number of steps. -/
def value (fuel depth : Nat) : Reader Value := fun characters =>
  match fuel with
  | 0 => none
  | fuel + 1 =>
    match characters.dropWhile isBlank, depth with
    | 'n' :: 'u' :: 'l' :: 'l' :: rest, _ => some (.absent, rest)
    | 't' :: 'r' :: 'u' :: 'e' :: rest, _ => some (.flag true, rest)
    | 'f' :: 'a' :: 'l' :: 's' :: 'e' :: rest, _ => some (.flag false, rest)
    | '"' :: rest, _ =>
      (quoted none rest).map fun found => (.text (String.ofList found.1), found.2)
    | '[' :: rest, depth + 1 =>
      (items fuel depth true rest).map fun found => (.list found.1, found.2)
    | '{' :: rest, depth + 1 =>
      (pairs fuel depth true rest).map fun found => (.table (fieldsOf found.1), found.2)
    | characters, _ => number characters

/-- The items of a list up to its closing bracket, which cannot follow a comma. -/
def items (fuel depth : Nat) (mayEnd : Bool) : Reader (List Value) := fun characters =>
  match fuel with
  | 0 => none
  | fuel + 1 =>
    match characters.dropWhile isBlank with
    | ']' :: rest => if mayEnd then some ([], rest) else none
    | characters => do
      let (first, rest) ← value fuel depth characters
      match rest.dropWhile isBlank with
      | ']' :: rest => some ([first], rest)
      | ',' :: rest =>
        let (others, rest) ← items fuel depth false rest
        some (first :: others, rest)
      | _ => none

/-- The pairs of a table up to its closing brace, which cannot follow a comma. -/
def pairs (fuel depth : Nat) (mayEnd : Bool) : Reader (List (String × Value)) :=
  fun characters =>
  match fuel with
  | 0 => none
  | fuel + 1 =>
    match characters.dropWhile isBlank with
    | '}' :: rest => if mayEnd then some ([], rest) else none
    | '"' :: rest => do
      let (key, rest) ← quoted none rest
      match rest.dropWhile isBlank with
      | ':' :: rest =>
        let (found, rest) ← value fuel depth rest
        match rest.dropWhile isBlank with
        | '}' :: rest => some ([(String.ofList key, found)], rest)
        | ',' :: rest =>
          let (others, rest) ← pairs fuel depth false rest
          some ((String.ofList key, found) :: others, rest)
        | _ => none
      | _ => none
    | _ => none

end

/-- The fields of the document that a text writes. Every item and every level of nesting takes
at least one character, so the length of the text is fuel enough. -/
def parse? (source : String) : Option Fields :=
  match value (2 * source.length + 2) nestingLimit source.toList with
  | some (.table fields, rest) => if rest.all isBlank then some fields else none
  | _ => none

end CodeClones.Settings.Json
