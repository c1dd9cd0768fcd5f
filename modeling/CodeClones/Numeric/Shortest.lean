import CodeClones.Numeric.Binary64

/-!
# Shortest decimal texts

A floating-point number is written with the fewest digits that read back as the same number;
among texts of that many digits the one nearest to the number is taken, and of two equally near
ones the greater magnitude. No exponent is written, and a whole number has no point.
-/

namespace CodeClones.Binary64

/-- A fraction in units of a power of ten, as a fraction again. -/
def inUnits (value : Nat × Nat) (exponent : Int) : Nat × Nat :=
  if 0 ≤ exponent then (value.1, value.2 * Nat.pow 10 exponent.toNat)
  else (value.1 * Nat.pow 10 (-exponent).toNat, value.2)

/-- The decimal of the given unit that is nearest to the number among those that read back as
it, the upper one if two are equally near; none if no neighbour does. -/
def nearest? (magnitude : Nat) (exponent : Int) : Option Nat :=
  let (numerator, denominator) := inUnits (fraction magnitude) exponent
  let below := numerator / denominator
  let ordered :=
    if denominator ≤ 2 * (numerator % denominator) then [below + 1, below]
    else [below, below + 1]
  ordered.find? fun digits => (ofDecimal false digits exponent).magnitude == magnitude

/-- The least number of digits before the point of a decimal that is at least the fraction. -/
def leadingExponent (value : Nat × Nat) : Int :=
  let whole := value.1 / value.2
  if whole ≠ 0 then (Nat.toDigits 10 whole).length
  else 1 - ((Nat.toDigits 10 (value.2 / value.1)).length : Int)

/-- The digits and the exponent of the shortest decimal of a positive magnitude. Seventeen
digits are always enough; the search begins one digit early, since the leading digit may be a
zero. -/
def shortest (magnitude : Nat) : Nat × Int :=
  let leading := leadingExponent (fraction magnitude)
  ((List.range 20).findSome? fun (width : Nat) =>
    let exponent := leading - (width : Int)
    (nearest? magnitude exponent).bind fun digits =>
      if digits = 0 then none else some (digits, exponent)).getD (0, 0)

/-- The text of a decimal without exponent. -/
def positional (digits : Nat) (exponent : Int) : String :=
  let written := Nat.toDigits 10 digits
  if 0 ≤ exponent then String.ofList (written ++ List.replicate exponent.toNat '0')
  else
    let places := (-exponent).toNat
    let padded := List.replicate (places + 1 - written.length) '0' ++ written
    let whole := padded.take (padded.length - places)
    String.ofList (whole ++ '.' :: padded.drop (padded.length - places))

/-- The text of a number. -/
def text (value : Binary64) : String :=
  let magnitude := value.magnitude
  if value.isNaN then "NaN"
  else
    let sign := if signBit ≤ value.bits.toNat then "-" else ""
    if magnitude = infinityBits then sign ++ "inf"
    else if magnitude = 0 then sign ++ "0"
    else
      let (digits, exponent) := shortest magnitude
      sign ++ positional digits exponent

/-- The number rounded to a whole number, a half away from zero; what is negative or no number
becomes zero, and what is not below the bound becomes the greatest number below it. -/
def toNatBelow (bound : Nat) (value : Binary64) : Nat :=
  if value.isNaN || signBit ≤ value.bits.toNat then 0
  else if infinityBits ≤ value.magnitude then bound - 1
  else
    let (numerator, denominator) := fraction value.magnitude
    min ((2 * numerator + denominator) / (2 * denominator)) (bound - 1)

end CodeClones.Binary64
