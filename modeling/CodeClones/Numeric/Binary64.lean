/-!
# Binary floating-point numbers of 64 bits

A number is its 64 bits: a sign, eleven bits of exponent and fifty-two of fraction. The
library does no arithmetic on them. It rounds exact fractions to the nearest such number, a tie
going to the even neighbour, and compares two of them by value: a number that is not a number
differs from everything, itself included, and the two zeros are equal.
-/

namespace CodeClones

/-- A floating-point number, given by its bits. -/
structure Binary64 where
  /-- Sign, exponent and fraction, from the highest bit down. -/
  bits : UInt64
deriving DecidableEq

namespace Binary64

/-- The bits of positive infinity; larger bits, the sign apart, are not numbers. -/
def infinityBits : Nat := 0x7FF0000000000000

/-- The weight of the sign bit. -/
def signBit : Nat := Nat.pow 2 63

/-- The bits without the sign. -/
def magnitude (value : Binary64) : Nat :=
  value.bits.toNat % signBit

/-- Whether the bits stand for no number. -/
def isNaN (value : Binary64) : Bool :=
  infinityBits < value.magnitude

/-- Whether the value is one of the two zeros. -/
def isZero (value : Binary64) : Bool :=
  value.magnitude == 0

/-- Equality of values: never of a non-number, and the two zeros are equal. -/
def sameValue (left right : Binary64) : Bool :=
  !left.isNaN && !right.isNaN && (left.bits == right.bits || (left.isZero && right.isZero))

/-- The number with the given magnitude and sign. -/
def ofMagnitude (negative : Bool) (magnitude : Nat) : Binary64 :=
  ⟨UInt64.ofNat (magnitude + if negative then signBit else 0)⟩

/-- An infinity. -/
def infinity (negative : Bool) : Binary64 :=
  ofMagnitude negative infinityBits

/-- A value that is not a number. -/
def nan (negative : Bool) : Binary64 :=
  ofMagnitude negative (infinityBits + Nat.pow 2 51)

/-- The quotient rounded to the nearest whole number, a tie going to the even one. -/
def roundQuotient (numerator denominator : Nat) : Nat :=
  let quotient := numerator / denominator
  let twice := 2 * (numerator % denominator)
  if denominator < twice || (twice == denominator && quotient % 2 == 1) then quotient + 1
  else quotient

/-- The exponent of the last of the bits that are kept of a positive fraction: fifty-three
significant bits, or fewer so that it does not fall below the smallest positive number. -/
def unitExponent (numerator denominator : Nat) : Int :=
  let guess : Int := (numerator.log2 : Int) - (denominator.log2 : Int)
  let leading : Int :=
    if (if 0 ≤ guess then denominator * Nat.pow 2 guess.toNat ≤ numerator
        else denominator ≤ numerator * Nat.pow 2 (-guess).toNat) then guess
    else guess - 1
  max (leading - 52) (-1074)

/-- The magnitude bits of a fraction, rounded to the nearest number; a fraction too large for
every number becomes infinite. -/
def roundMagnitude (numerator denominator : Nat) : Nat :=
  if numerator = 0 then 0
  else
    let unit := unitExponent numerator denominator
    let significand :=
      if 0 ≤ unit then roundQuotient numerator (denominator * Nat.pow 2 unit.toNat)
      else roundQuotient (numerator * Nat.pow 2 (-unit).toNat) denominator
    min ((unit + 1074).toNat * Nat.pow 2 52 + significand) infinityBits

/-- A whole number rounded to the nearest floating-point number. -/
def ofNat (value : Nat) : Binary64 :=
  ofMagnitude false (roundMagnitude value 1)

/-- A number in decimal scientific form, `digits` times ten to the power `exponent`, rounded to
the nearest floating-point number. -/
def ofDecimal (negative : Bool) (digits : Nat) (exponent : Int) : Binary64 :=
  let width : Int := (Nat.toDigits 10 digits).length
  if digits = 0 ∨ width + exponent < -330 then ofMagnitude negative 0
  else if 310 < width + exponent then infinity negative
  else if 0 ≤ exponent then
    ofMagnitude negative (roundMagnitude (digits * Nat.pow 10 exponent.toNat) 1)
  else ofMagnitude negative (roundMagnitude digits (Nat.pow 10 (-exponent).toNat))

/-- The exact value of a finite magnitude, as a fraction. -/
def fraction (magnitude : Nat) : Nat × Nat :=
  let exponent := magnitude / Nat.pow 2 52
  let significand :=
    if exponent = 0 then magnitude else magnitude % Nat.pow 2 52 + Nat.pow 2 52
  let power := max exponent 1
  if 1075 ≤ power then (significand * Nat.pow 2 (power - 1075), 1)
  else (significand, Nat.pow 2 (1075 - power))

/-- The magnitude bits of the product of two finite magnitudes, rounded to the nearest. -/
def product (left right : Nat) : Nat :=
  let first := fraction left
  let second := fraction right
  roundMagnitude (first.1 * second.1) (first.2 * second.2)

/-- The magnitude bits of the quotient of two finite magnitudes, rounded to the nearest. -/
def quotient (left right : Nat) : Nat :=
  let first := fraction left
  let second := fraction right
  roundMagnitude (first.1 * second.2) (first.2 * second.1)

end Binary64

end CodeClones
