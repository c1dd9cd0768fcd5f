import CodeClones.Numeric.Binary64
import Mathlib.Data.Nat.Dist
import Mathlib.Data.Nat.Log
import Mathlib.Order.Monotone.Basic

/-!
# Whole numbers rounded to floating point

The value of a finite magnitude is a whole number of units, the unit being the smallest positive
number, and so is every whole number; distances are compared there, exactly. A whole number that
is not too large is rounded to the finite number that is closest to it, and of two that are
equally close to the one whose last bit is zero.
-/

namespace CodeClones.Binary64

/-- The smallest positive number is one divided by this power of two. -/
def unitBits : Nat := 1074

/-- How many units of the smallest positive number make one. -/
def unitsInOne : Nat := 2 ^ unitBits

/-- The value of a finite magnitude, in units of the smallest positive number. -/
def scaled (magnitude : Nat) : Nat :=
  if magnitude / 2 ^ 52 = 0 then magnitude
  else (magnitude % 2 ^ 52 + 2 ^ 52) * 2 ^ (magnitude / 2 ^ 52 - 1)

/-- The number is the whole number rounded to the nearest: positive and finite, no finite number
is closer, and when another one is as close, the last bit of this one is zero. -/
structure Nearest (value : Nat) (number : Binary64) : Prop where
  /-- The sign is not set and the magnitude is finite. -/
  finite : number.bits.toNat < infinityBits
  /-- No finite magnitude is closer. -/
  closest : ∀ other < infinityBits,
    Nat.dist (scaled number.bits.toNat) (value * unitsInOne) ≤
      Nat.dist (scaled other) (value * unitsInOne)
  /-- A tie goes to the even magnitude. -/
  even : ∀ other < infinityBits, other ≠ number.bits.toNat →
    Nat.dist (scaled number.bits.toNat) (value * unitsInOne) =
      Nat.dist (scaled other) (value * unitsInOne) → number.bits.toNat % 2 = 0

/-! ## The value of a magnitude -/

/-- A significand of fifty-three bits counts units of its exponent; one more than the largest is
already written with the next exponent. -/
theorem scaled_normal {exponent significand : Nat} (low : 2 ^ 52 ≤ significand)
    (high : significand ≤ 2 ^ 53) :
    scaled (exponent * 2 ^ 52 + significand) = significand * 2 ^ exponent := by
  rcases high.lt_or_eq with below | rfl
  · have quotient : (exponent * 2 ^ 52 + significand) / 2 ^ 52 = exponent + 1 := by omega
    have rest : (exponent * 2 ^ 52 + significand) % 2 ^ 52 + 2 ^ 52 = significand := by omega
    rw [scaled, quotient, rest, if_neg (Nat.succ_ne_zero _), Nat.add_sub_cancel]
  · have quotient : (exponent * 2 ^ 52 + 2 ^ 53) / 2 ^ 52 = exponent + 2 := by omega
    have rest : (exponent * 2 ^ 52 + 2 ^ 53) % 2 ^ 52 = 0 := by omega
    rw [scaled, quotient, rest, if_neg (Nat.succ_ne_zero _), show exponent + 2 - 1 = exponent + 1
      from rfl, Nat.pow_succ']
    omega

/-- Up to the least normal number, a magnitude is its number of units. -/
theorem scaled_subnormal {magnitude : Nat} (small : magnitude ≤ 2 ^ 52) :
    scaled magnitude = magnitude := by
  rcases small.lt_or_eq with below | rfl
  · rw [scaled, if_pos (Nat.div_eq_of_lt below)]
  · have normal : scaled (0 * 2 ^ 52 + 2 ^ 52) = 2 ^ 52 * 2 ^ 0 :=
      scaled_normal le_rfl (by omega)
    simpa using normal

/-- A larger magnitude has a larger value. -/
theorem scaled_strictMono : StrictMono scaled := by
  refine strictMono_nat_of_lt_succ fun magnitude => ?_
  by_cases small : magnitude < 2 ^ 52
  · rw [scaled_subnormal small.le, scaled_subnormal small]
    exact Nat.lt_succ_self _
  · -- One more in the last bit is one more unit of the exponent.
    obtain ⟨exponent, significand, low, high, rfl⟩ : ∃ exponent significand,
        2 ^ 52 ≤ significand ∧ significand < 2 ^ 53 ∧
          magnitude = exponent * 2 ^ 52 + significand :=
      ⟨magnitude / 2 ^ 52 - 1, magnitude % 2 ^ 52 + 2 ^ 52, by omega, by omega, by omega⟩
    rw [Nat.add_assoc, scaled_normal low high.le, scaled_normal (by omega) high]
    exact Nat.mul_lt_mul_of_pos_right (Nat.lt_succ_self _) (Nat.two_pow_pos _)

/-! ## The rounded quotient -/

/-- The quotient is rounded down below a half, up above it, and to the even side at a half. -/
theorem roundQuotient_cases (numerator denominator : Nat) :
    (roundQuotient numerator denominator = numerator / denominator ∧
      (2 * (numerator % denominator) < denominator ∨
        2 * (numerator % denominator) = denominator ∧ numerator / denominator % 2 = 0)) ∨
    (roundQuotient numerator denominator = numerator / denominator + 1 ∧
      (denominator < 2 * (numerator % denominator) ∨
        2 * (numerator % denominator) = denominator ∧ numerator / denominator % 2 = 1)) := by
  simp only [roundQuotient, Bool.or_eq_true, decide_eq_true_eq, Bool.and_eq_true, beq_iff_eq]
  split <;> omega

/-- The rounded quotient depends on the fraction only. -/
theorem roundQuotient_mul_right {factor : Nat} (positive : 0 < factor)
    (numerator denominator : Nat) :
    roundQuotient (numerator * factor) (denominator * factor) =
      roundQuotient numerator denominator := by
  have twice : 2 * (numerator % denominator * factor) = 2 * (numerator % denominator) * factor :=
    (Nat.mul_assoc _ _ _).symm
  simp only [roundQuotient, Nat.mul_div_mul_right _ _ positive, Nat.mul_mod_mul_right, twice,
    Nat.mul_lt_mul_right positive, beq_eq_decide, Nat.mul_right_cancel_iff positive]

/-! ## The rounded whole number -/

/-- One is a positive number of units. -/
theorem unitsInOne_pos : 0 < unitsInOne :=
  Nat.two_pow_pos _

/-- The number of units that the last bit kept of a positive whole number stands for. -/
def lastUnit (value : Nat) : Nat := 2 ^ (value.log2 + 1022)

/-- The last bit kept stands for some units. -/
theorem lastUnit_pos (value : Nat) : 0 < lastUnit value :=
  Nat.two_pow_pos _

/-- The last unit of a number of more than fifty-two bits is a whole number. -/
theorem lastUnit_of_long {value extra : Nat} (width : value.log2 = extra + 52) :
    lastUnit value = 2 ^ extra * unitsInOne := by
  rw [lastUnit, width, Nat.add_assoc]
  exact Nat.pow_add 2 extra unitBits

/-- The last unit of a shorter number is a fraction of one. -/
theorem unitsInOne_of_short {value lack : Nat} (width : value.log2 + lack = 52) :
    unitsInOne = 2 ^ lack * lastUnit value := by
  have exponents : unitBits = lack + (value.log2 + 1022) := by
    rw [unitBits]
    omega
  calc unitsInOne = 2 ^ (lack + (value.log2 + 1022)) := congrArg (2 ^ ·) exponents
    _ = 2 ^ lack * lastUnit value := Nat.pow_add 2 lack (value.log2 + 1022)

/-- The last bit kept of a whole number stands for the power of two that is fifty-two below its
first bit. -/
theorem unitExponent_one {value : Nat} (positive : value ≠ 0) :
    unitExponent value 1 = (value.log2 : Int) - 52 := by
  have leading : 1 * Nat.pow 2 value.log2 ≤ value := by
    rw [Nat.one_mul]
    exact Nat.log2_self_le positive
  have guess : (value.log2 : Int) - (Nat.log2 1 : Int) = value.log2 := by
    rw [show Nat.log2 1 = 0 by decide]
    omega
  rw [unitExponent, guess]
  simp only [Int.natCast_nonneg, if_true, Int.toNat_natCast, leading]
  omega

/-- A positive whole number is rounded to a multiple of its last unit. -/
theorem roundMagnitude_one {value : Nat} (positive : value ≠ 0) :
    roundMagnitude value 1 =
      min ((value.log2 + 1022) * 2 ^ 52 +
        roundQuotient (value * unitsInOne) (lastUnit value)) infinityBits := by
  have significand :
      (if 0 ≤ (value.log2 : Int) - 52 then
        roundQuotient value (1 * Nat.pow 2 ((value.log2 : Int) - 52).toNat)
      else roundQuotient (value * Nat.pow 2 (-((value.log2 : Int) - 52)).toNat) 1) =
        roundQuotient (value * unitsInOne) (lastUnit value) := by
    split
    · obtain ⟨extra, width⟩ : ∃ extra, value.log2 = extra + 52 := ⟨value.log2 - 52, by omega⟩
      rw [lastUnit_of_long width, roundQuotient_mul_right unitsInOne_pos, Nat.one_mul,
        show ((value.log2 : Int) - 52).toNat = extra by omega, Nat.pow_eq]
    · obtain ⟨lack, width⟩ : ∃ lack, value.log2 + lack = 52 := ⟨52 - value.log2, by omega⟩
      have scale := roundQuotient_mul_right (lastUnit_pos value) (value * 2 ^ lack) 1
      rw [unitsInOne_of_short width, ← Nat.mul_assoc,
        show (-((value.log2 : Int) - 52)).toNat = lack by omega, Nat.pow_eq, ← scale, Nat.one_mul]
  have exponent : ((value.log2 : Int) - 52 + 1074).toNat = value.log2 + 1022 := by omega
  rw [roundMagnitude, if_neg positive]
  simp only [unitExponent_one positive]
  rw [significand, exponent, Nat.pow_eq]

/-- Fifty-three bits of a positive whole number stand before its last unit. -/
theorem quotient_lastUnit {value : Nat} (positive : value ≠ 0) :
    2 ^ 52 ≤ value * unitsInOne / lastUnit value ∧
      value * unitsInOne / lastUnit value < 2 ^ 53 := by
  have units : lastUnit value * 2 ^ 52 = 2 ^ value.log2 * unitsInOne := by
    calc lastUnit value * 2 ^ 52 = 2 ^ (value.log2 + 1022 + 52) :=
          (Nat.pow_add 2 (value.log2 + 1022) 52).symm
      _ = 2 ^ value.log2 * unitsInOne := Nat.pow_add 2 value.log2 unitBits
  have low : 2 ^ value.log2 * unitsInOne ≤ value * unitsInOne :=
    Nat.mul_le_mul_right _ (Nat.log2_self_le positive)
  have high : value * unitsInOne < 2 * (2 ^ value.log2 * unitsInOne) := by
    rw [← Nat.mul_assoc, ← Nat.pow_succ']
    exact Nat.mul_lt_mul_of_pos_right Nat.lt_log2_self unitsInOne_pos
  rw [← units] at low high
  constructor
  · rw [Nat.le_div_iff_mul_le (lastUnit_pos value), Nat.mul_comm]
    exact low
  · rw [Nat.div_lt_iff_lt_mul (lastUnit_pos value)]
    omega

/-- The bits of a rounded whole number are its magnitude. -/
theorem toNat_bits_ofNat (value : Nat) : (ofNat value).bits.toNat = roundMagnitude value 1 := by
  have bounded : roundMagnitude value 1 ≤ infinityBits := by
    unfold roundMagnitude
    split
    · exact Nat.zero_le _
    · exact Nat.min_le_right _ _
  have fits : infinityBits < 2 ^ 64 := by decide
  rw [ofNat, ofMagnitude, if_neg Bool.false_ne_true, Nat.add_zero, UInt64.toNat_ofNat']
  exact Nat.mod_eq_of_lt (by omega)

/-- A magnitude is nearest when it is one of the two neighbours of the value: the lower one below
the middle between them, the upper one above it, and the even one in the middle. -/
theorem nearest_of_neighbours {value : Nat} {number : Binary64} (lower : Nat)
    (finite : number.bits.toNat < infinityBits)
    (above : scaled lower ≤ value * unitsInOne)
    (below : value * unitsInOne < scaled (lower + 1))
    (chosen : number.bits.toNat = lower ∧
        (2 * (value * unitsInOne) < scaled lower + scaled (lower + 1) ∨
          2 * (value * unitsInOne) = scaled lower + scaled (lower + 1) ∧ lower % 2 = 0) ∨
      number.bits.toNat = lower + 1 ∧
        (scaled lower + scaled (lower + 1) < 2 * (value * unitsInOne) ∨
          2 * (value * unitsInOne) = scaled lower + scaled (lower + 1) ∧ lower % 2 = 1)) :
    Nearest value number := by
  -- Every other magnitude lies beyond one of the two neighbours.
  have beyond : ∀ other, other < lower ∧ scaled other < scaled lower ∨ other = lower ∨
      other = lower + 1 ∨ lower + 1 < other ∧ scaled (lower + 1) < scaled other := by
    intro other
    rcases lt_trichotomy other lower with less | same | more
    · exact .inl ⟨less, scaled_strictMono less⟩
    · exact .inr (.inl same)
    · rcases Nat.eq_or_lt_of_le (Nat.succ_le_of_lt more) with next | further
      · exact .inr (.inr (.inl next.symm))
      · exact .inr (.inr (.inr ⟨further, scaled_strictMono further⟩))
  refine ⟨finite, fun other _ => ?_, fun other _ different tie => ?_⟩
  · rcases chosen with ⟨bits, side⟩ | ⟨bits, side⟩ <;>
      rcases beyond other with ⟨_, further⟩ | rfl | rfl | ⟨_, further⟩ <;>
      simp only [bits, Nat.dist] <;> omega
  · rcases chosen with ⟨bits, side⟩ | ⟨bits, side⟩ <;>
      rcases beyond other with ⟨_, further⟩ | rfl | rfl | ⟨_, further⟩ <;>
      simp only [bits, Nat.dist] at tie <;> omega

/-- A whole number that is not too large is rounded to the nearest floating-point number. -/
theorem ofNat_nearest {value : Nat} (bounded : value.log2 < 1023) :
    Nearest value (ofNat value) := by
  rcases Nat.eq_zero_or_pos value with rfl | positive
  · have zero : (ofNat 0).bits.toNat = 0 := by decide
    have noDistance : Nat.dist (scaled 0) (0 * unitsInOne) = 0 := by simp [scaled]
    constructor
    · rw [zero]
      decide
    · intro other _
      rw [zero, noDistance]
      exact Nat.zero_le _
    · intro other _ _ _
      rw [zero]
  · have nonzero : value ≠ 0 := positive.ne'
    obtain ⟨low, high⟩ := quotient_lastUnit nonzero
    have division := Nat.div_add_mod (value * unitsInOne) (lastUnit value)
    have remainder := Nat.mod_lt (value * unitsInOne) (lastUnit_pos value)
    have rounded := roundQuotient_cases (value * unitsInOne) (lastUnit value)
    have magnitude := roundMagnitude_one nonzero
    generalize value * unitsInOne / lastUnit value = quotient at *
    generalize roundQuotient (value * unitsInOne) (lastUnit value) = significand at *
    have lowerScaled : scaled ((value.log2 + 1022) * 2 ^ 52 + quotient) =
        lastUnit value * quotient := by
      rw [scaled_normal low high.le, lastUnit, Nat.mul_comm]
    have upperScaled : scaled ((value.log2 + 1022) * 2 ^ 52 + quotient + 1) =
        lastUnit value * quotient + lastUnit value := by
      rw [Nat.add_assoc, scaled_normal (by omega) high, ← lastUnit, Nat.succ_mul, Nat.mul_comm]
    have limit : infinityBits = 2046 * 2 ^ 52 + 2 ^ 52 := by decide
    have finite : (value.log2 + 1022) * 2 ^ 52 + significand < infinityBits := by omega
    have bits : (ofNat value).bits.toNat = (value.log2 + 1022) * 2 ^ 52 + significand := by
      rw [toNat_bits_ofNat, magnitude, Nat.min_eq_left finite.le]
    apply nearest_of_neighbours ((value.log2 + 1022) * 2 ^ 52 + quotient) <;> omega

end CodeClones.Binary64
