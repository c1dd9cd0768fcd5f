import CodeClones.Lowering.Rules
import CodeClones.Proofs.Numeric.Rounding
import CodeClones.Proofs.Text.Escapes
import Mathlib.Data.Nat.Digits.Defs

/-!
# Whole numbers in a base other than ten

A literal in a base other than ten is a mark and then at least one digit of the base, both in
either case, with separators anywhere. It is lowered to the floating-point number nearest to its
exact value when that value lies below the bound of whole numbers. From the bound on it has no
value at all and is not modelled, however it is written.
-/

namespace CodeClones.Numeric

open Syntax Concrete Lowering Text

/-! ## Literals -/

/-- The ways to write a whole number in a base other than ten. -/
inductive Radix where
  /-- Base sixteen, marked by an `x`. -/
  | hexadecimal
  /-- Base eight, marked by an `o`. -/
  | octal
  /-- Base two, marked by a `b`. -/
  | binary
  /-- Base eight, marked by a zero only. -/
  | legacyOctal

namespace Radix

/-- The base of the digits. -/
def base : Radix → Nat
  | hexadecimal => 16
  | octal | legacyOctal => 8
  | binary => 2

/-- What may stand before the digits. -/
def marks : Radix → List (List Char)
  | hexadecimal => [['0', 'x'], ['0', 'X']]
  | octal => [['0', 'o'], ['0', 'O']]
  | binary => [['0', 'b'], ['0', 'B']]
  | legacyOctal => [['0']]

end Radix

/-- A literal in a base other than ten, without separators. -/
structure RadixLiteral where
  /-- How it is written. -/
  radix : Radix
  /-- What stands before the digits. -/
  mark : List Char
  /-- The digits, the highest first. -/
  digits : List Char
  /-- The mark is one for the base. -/
  marked : mark ∈ radix.marks
  /-- There is a digit. -/
  digits_ne_nil : digits ≠ []
  /-- All digits are digits of the base. -/
  isSome_of_mem : ∀ digit ∈ digits, (digitOf? radix.base digit).isSome = true

/-- The number that digits of a base stand for, the highest first. -/
def digitsValue (base : Nat) (digits : List Char) : Nat :=
  Nat.ofDigits base (digits.reverse.map fun digit => (digitOf? base digit).getD 0)

namespace RadixLiteral

/-- The characters of a literal. -/
def characters (literal : RadixLiteral) : List Char :=
  literal.mark ++ literal.digits

/-- The exact value of a literal. -/
def value (literal : RadixLiteral) : Nat :=
  digitsValue literal.radix.base literal.digits

/-- The text is the literal with separators put in. -/
def WrittenAs (literal : RadixLiteral) (text : String) : Prop :=
  text.toList.filter (· != '_') = literal.characters

instance (literal : RadixLiteral) (text : String) : Decidable (literal.WrittenAs text) :=
  inferInstanceAs (Decidable (_ = _))

end RadixLiteral

/-! ## Digits -/

/-- A small letter has the code of its capital one and thirty-two more; other codes stay. -/
theorem toNat_toLower (character : Char) :
    character.toLower.toNat =
      if 0x41 ≤ character.toNat ∧ character.toNat ≤ 0x5A then character.toNat + 0x20
      else character.toNat := by
  by_cases capital : character.val ≥ 'A'.val ∧ character.val ≤ 'Z'.val
  · have bounds : 0x41 ≤ character.toNat ∧ character.toNat ≤ 0x5A := capital
    have lowered : character.toLower.toNat = (character.toNat + 0x20) % 2 ^ 32 :=
      congrArg Char.toNat (dif_pos capital)
    rw [lowered, if_pos bounds]
    omega
  · have bounds : ¬ (0x41 ≤ character.toNat ∧ character.toNat ≤ 0x5A) := capital
    have same : character.toLower = character := dif_neg capital
    rw [same, if_neg bounds]

/-- A letter stands for the same digit in either case. -/
theorem digitOf?_toLower (base : Nat) (character : Char) :
    digitOf? base character.toLower = digitOf? base character := by
  have value : digitValue? character.toLower = digitValue? character := by
    simp only [digitValue?, toNat_toLower, Bool.and_eq_true, decide_eq_true_eq]
    split_ifs <;> first | omega | rfl
  rw [digitOf?, digitOf?, value]

/-- Digits stand for the same number in capital and in small letters. -/
theorem digitsValue_lowerAscii (base : Nat) (digits : List Char) :
    digitsValue base (lowerAscii digits) = digitsValue base digits := by
  simp [digitsValue, lowerAscii, ← List.map_reverse, Function.comp_def, digitOf?_toLower]

/-- Lower case keeps the digits of a base. -/
theorem isSome_of_mem_lowerAscii {base : Nat} {digits : List Char}
    (all : ∀ digit ∈ digits, (digitOf? base digit).isSome = true) :
    ∀ digit ∈ lowerAscii digits, (digitOf? base digit).isSome = true := by
  intro digit member
  obtain ⟨original, found, rfl⟩ := List.mem_map.mp member
  rw [digitOf?_toLower]
  exact all original found

/-- Digits read from the highest on give the number they stand for. -/
theorem foldl_digits (base : Nat) (digits : List Char) :
    digits.foldl (fun value digit => value * base + (digitOf? base digit).getD 0) 0 =
      digitsValue base digits := by
  rw [digitsValue, Nat.ofDigits_eq_foldr, List.foldr_map, List.foldr_reverse]
  congr 1
  funext value digit
  rw [Nat.cast_id, Nat.add_comm, Nat.mul_comm]

/-- Digits of the base are read as the number they stand for when it lies below the bound, and
not at all from the bound on. -/
theorem boundedNat?_of_digits {base bound : Nat} {digits : List Char} (nonempty : digits ≠ [])
    (all : ∀ digit ∈ digits, (digitOf? base digit).isSome = true) :
    boundedNat? base bound digits =
      if digitsValue base digits < bound then some (digitsValue base digits) else none := by
  have signless : natOfChars? base digits = continueNat? base 0 digits := by
    cases digits with
    | nil => exact absurd rfl nonempty
    | cons first others =>
      have digit := all first List.mem_cons_self
      unfold natOfChars?
      split
      case h_1 _ plus =>
        obtain ⟨rfl, -⟩ := List.cons.inj plus
        cases digit
      case h_2 => rfl
  have read : continueNat? base 0 digits = some (digitsValue base digits) :=
    continueNat?_eq_some_iff.mpr ⟨all, foldl_digits base digits⟩
  rw [boundedNat?, signless, read, Option.filter_some]
  simp only [decide_eq_true_eq]

/-! ## Literals read -/

/-- Behind a zero, octal digits are read as such. -/
theorem literal?_of_octal {digits : List Char} (nonempty : digits ≠ [])
    (all : ∀ digit ∈ digits, (digitOf? 8 digit).isSome = true) :
    literal? ('0' :: digits) = whole? 8 (lowerAscii digits) := by
  obtain ⟨first, others, rfl⟩ := List.exists_cons_of_ne_nil nonempty
  have octal := isSome_of_mem_lowerAscii all
  have digit := octal first.toLower List.mem_cons_self
  -- None of the letters that mark a base is an octal digit.
  have unmarked : ∀ letter ∈ ['x', 'o', 'b'], first.toLower ≠ letter := by
    intro letter member same
    have letters : (['x', 'o', 'b'].all fun letter => (digitOf? 8 letter).isNone) = true := by decide
    rw [same, Option.isNone_iff_eq_none.mp (List.all_eq_true.mp letters letter member)] at digit
    cases digit
  have lowered : lowerAscii ('0' :: first :: others) =
      '0' :: first.toLower :: lowerAscii others := rfl
  have legacy : isLegacyOctal ('0' :: first.toLower :: lowerAscii others) = true :=
    List.all_eq_true.mpr octal
  unfold literal?
  rw [lowered]
  split
  case h_1 letter =>
    obtain ⟨-, rest⟩ := List.cons.inj letter
    exact absurd (List.cons.inj rest).1 (unmarked 'x' (by decide))
  case h_2 letter =>
    obtain ⟨-, rest⟩ := List.cons.inj letter
    exact absurd (List.cons.inj rest).1 (unmarked 'o' (by decide))
  case h_3 letter =>
    obtain ⟨-, rest⟩ := List.cons.inj letter
    exact absurd (List.cons.inj rest).1 (unmarked 'b' (by decide))
  case h_4 =>
    rw [if_pos legacy]
    rfl

namespace RadixLiteral

variable (literal : RadixLiteral)

/-- No digit of a base other than ten is the suffix of an integer of any size. -/
theorem getLast?_characters : literal.characters.getLast? ≠ some 'n' := by
  intro suffix
  rw [characters, List.getLast?_append, List.getLast?_eq_some_getLast literal.digits_ne_nil,
    Option.some_or, Option.some.injEq] at suffix
  have digit := literal.isSome_of_mem _ (List.getLast_mem literal.digits_ne_nil)
  rw [suffix] at digit
  revert digit
  cases literal.radix <;> decide

/-- The mark, in either case, says in which base the digits are read. -/
theorem literal?_characters :
    literal? literal.characters = whole? literal.radix.base (lowerAscii literal.digits) := by
  obtain ⟨radix, mark, digits, marked, nonempty, all⟩ := literal
  cases radix with
  | hexadecimal | octal | binary =>
    simp only [Radix.marks, List.mem_cons, List.not_mem_nil, or_false] at marked
    rcases marked with rfl | rfl <;> rfl
  | legacyOctal =>
    obtain rfl : mark = ['0'] := List.mem_singleton.mp marked
    exact literal?_of_octal nonempty all

/-- A literal has its value, rounded, below the bound of whole numbers, and none from there on. -/
theorem literal?_eq :
    literal? literal.characters =
      if literal.value < wholeBound then some (Binary64.ofNat literal.value) else none := by
  have nonempty : lowerAscii literal.digits ≠ [] :=
    fun empty => literal.digits_ne_nil (List.map_eq_nil_iff.mp empty)
  rw [literal?_characters, whole?,
    boundedNat?_of_digits nonempty (isSome_of_mem_lowerAscii literal.isSome_of_mem),
    digitsValue_lowerAscii, ← value]
  split <;> rfl

end RadixLiteral

/-- A whole number below the bound has a nearest floating-point number. -/
theorem nearest_of_lt_wholeBound {value : Nat} (below : value < wholeBound) :
    Binary64.Nearest value (Binary64.ofNat value) := by
  apply Binary64.ofNat_nearest
  rcases Nat.eq_zero_or_pos value with rfl | positive
  · decide
  · have short : value.log2 < 128 := (Nat.log2_lt positive.ne').mpr below
    omega

/-! ## Literals lowered -/

/-- The node of a literal in a base other than ten, wherever its separators are. -/
theorem numberNode_eq (tree : Tree) (literal : RadixLiteral) {text : String}
    (written : literal.WrittenAs text) :
    numberNode tree text =
      if literal.value < wholeBound then
        place tree .numberLiteral (.attribute (Binary64.ofNat literal.value) .done)
      else unmodelled tree := by
  rw [RadixLiteral.WrittenAs] at written
  simp only [numberNode, written, literal.getLast?_characters, literal.literal?_eq, if_false]
  by_cases below : literal.value < wholeBound
  · simp only [below, if_true]
  · simp only [below, if_false]

/-- The literal in a base other than ten that a tree of the source writes is lowered to the
floating-point number nearest to its exact value when that value lies below two to the power 128,
and is not modelled from there on. -/
theorem lower_radixLiteral (source : String) (levels : Nat) (tree : Tree) (literal : RadixLiteral)
    (text : String) (number : tree.kind = "number")
    (covered : slice? source tree.start tree.stop = some text)
    (written : literal.WrittenAs text) :
    (literal.value < 2 ^ 128 →
      ∃ nearest, Binary64.Nearest literal.value nearest ∧
        lower source (levels + 1) tree =
          pure (place tree .numberLiteral (.attribute nearest .done))) ∧
    (2 ^ 128 ≤ literal.value → lower source (levels + 1) tree = pure (unmodelled tree)) := by
  have bound : wholeBound = 2 ^ 128 := rfl
  have rule : rule? "number" =
      some fun context tree => pure (numberNode tree (context.textOf tree)) := rfl
  have lowered : lower source (levels + 1) tree = pure (numberNode tree text) := by
    rw [lower, applyRule, number, rule]
    simp only [Context.textOf, covered, Option.getD_some]
  rw [lowered, numberNode_eq tree literal written, bound]
  constructor
  · intro below
    refine ⟨Binary64.ofNat literal.value, nearest_of_lt_wholeBound below, ?_⟩
    rw [if_pos below]
  · intro beyond
    rw [if_neg (Nat.not_lt.mpr beyond)]

/-- A numeric literal of the given length at the start of the source. -/
def leadingNumber (length : Nat) : Tree :=
  .node ⟨0, "number", ⟨0, length⟩, true, none, false, false, false, []⟩ []

/-- Two hundred and fifty-five, in capitals and small letters. -/
def mixedLiteral : RadixLiteral where
  radix := .hexadecimal
  mark := ['0', 'X']
  digits := ['f', 'F']
  marked := by decide
  digits_ne_nil := by decide
  isSome_of_mem := List.all_eq_true.mp (by decide)

/-- A literal in letters of both cases and with a separator has its exact value. -/
theorem lower_radixLiteral_mixedLiteral :
    (leadingNumber 5).kind = "number" ∧
    slice? "0Xf_F" (leadingNumber 5).start (leadingNumber 5).stop = some "0Xf_F" ∧
    mixedLiteral.WrittenAs "0Xf_F" ∧
    mixedLiteral.value = 255 ∧
    ∃ nearest, Binary64.Nearest 255 nearest ∧
      lower "0Xf_F" 1 (leadingNumber 5) =
        pure (place (leadingNumber 5) .numberLiteral (.attribute nearest .done)) := by
  have covered : slice? "0Xf_F" (leadingNumber 5).start (leadingNumber 5).stop = some "0Xf_F" := by
    decide +kernel
  have written : mixedLiteral.WrittenAs "0Xf_F" := by decide +kernel
  have value : mixedLiteral.value = 255 := by decide +kernel
  refine ⟨rfl, covered, written, value, ?_⟩
  rw [← value]
  exact (lower_radixLiteral "0Xf_F" 0 (leadingNumber 5) mixedLiteral "0Xf_F" rfl covered
    written).1 (by rw [value]; decide)

/-- Two to the power 128, the least whole number without a value. -/
def wideLiteral : RadixLiteral where
  radix := .hexadecimal
  mark := ['0', 'x']
  digits := '1' :: List.replicate 32 '0'
  marked := by decide
  digits_ne_nil := by decide
  isSome_of_mem := List.all_eq_true.mp (by decide)

/-- A literal too wide for its bound becomes no number, although there is one with its value. -/
theorem lower_wideLiteral :
    wideLiteral.WrittenAs "0x100000000000000000000000000000000" ∧
    wideLiteral.value = 2 ^ 128 ∧
    Binary64.Nearest (2 ^ 128) ⟨0x47F0000000000000⟩ ∧
    ∀ number, lower "0x100000000000000000000000000000000" 1 (leadingNumber 35) ≠
      pure (place (leadingNumber 35) .numberLiteral (.attribute number .done)) := by
  have nearest : Binary64.Nearest (2 ^ 128) (Binary64.ofNat (2 ^ 128)) :=
    Binary64.ofNat_nearest (by decide +kernel)
  have bits : Binary64.ofNat (2 ^ 128) = ⟨0x47F0000000000000⟩ := by decide +kernel
  have kind : (lower "0x100000000000000000000000000000000" 1 (leadingNumber 35)).value.kind =
      .unmodelled := by decide +kernel
  refine ⟨by decide +kernel, by decide +kernel, bits ▸ nearest, fun number same => ?_⟩
  rw [same] at kind
  cases kind

end CodeClones.Numeric
