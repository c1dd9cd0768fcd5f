import CodeClones.Text.Escapes
import Mathlib.Algebra.Group.Nat.Defs
import Mathlib.Data.List.Induction

/-!
# Escape sequences and what is read as one

The escape sequences that are well-formed are given by a relation between the way a sequence is
written behind its backslash, what it stands for, and the text behind it. Every other text behind
a backslash is malformed, in one of five ways. Decoding rejects a text whose escape sequences are
malformed, except that it reads some of them all the same: a zero before a digit, a plus sign
before hexadecimal digits, codes beyond the last character, and a missing brace at the end of the
text. Apart from these it rejects exactly the texts in which some backslash starts no well-formed
sequence.
-/

namespace CodeClones.Text

/-! ## Hexadecimal digits -/

/-- Whether the character is a hexadecimal digit, in either case. -/
def isHexDigit (character : Char) : Bool :=
  (digitOf? 16 character).isSome

/-- The number that hexadecimal digits stand for. -/
def hexValue (digits : List Char) : Nat :=
  digits.foldl (fun value digit => value * 16 + (digitOf? 16 digit).getD 0) 0

/-- One or more hexadecimal digits. -/
structure HexDigits (digits : List Char) : Prop where
  /-- There is a digit. -/
  ne_nil : digits ≠ []
  /-- All of them are hexadecimal. -/
  all : ∀ digit ∈ digits, isHexDigit digit = true

/-- What the reader checks of digits makes them hexadecimal digits. -/
theorem HexDigits.of_all {digits : List Char}
    (given : (!digits.isEmpty && digits.all isHexDigit) = true) : HexDigits digits := by
  rw [Bool.and_eq_true, Bool.not_eq_true', List.isEmpty_eq_false_iff, List.all_eq_true] at given
  exact ⟨given.1, given.2⟩

/-- What may stand before the digits of a code that is read: nothing or a plus sign. -/
def IsSign (sign : List Char) : Prop :=
  sign = [] ∨ sign = ['+']

variable {sign digits characters left : List Char} {character : Char}

/-- Reading goes on to a number exactly if all characters are digits, whose values it takes in turn.
-/
theorem continueNat?_eq_some_iff {base value code : Nat} :
    continueNat? base value characters = some code ↔
      (∀ digit ∈ characters, (digitOf? base digit).isSome = true) ∧
        characters.foldl (fun value digit => value * base + (digitOf? base digit).getD 0) value =
          code := by
  induction characters generalizing value with
  | nil => simp [continueNat?]
  | cons first others ih =>
    rw [continueNat?]
    cases found : digitOf? base first with
    | none => simp [found]
    | some digit => simp [found, ih]

/-- A number is read exactly from hexadecimal digits, and it is their value. -/
theorem natOfDigits?_eq_some_iff {code : Nat} :
    natOfDigits? 16 digits = some code ↔ HexDigits digits ∧ hexValue digits = code := by
  cases digits with
  | nil => simpa [natOfDigits?] using fun hex : HexDigits [] => absurd rfl hex.ne_nil
  | cons first others =>
    rw [natOfDigits?]
    · rw [continueNat?_eq_some_iff]
      exact and_congr_left fun _ => ⟨fun all => ⟨List.cons_ne_nil _ _, all⟩, HexDigits.all⟩
    · exact List.cons_ne_nil _ _

/-- A code below the bound is written with hexadecimal digits and maybe a plus sign before
them. -/
theorem boundedNat?_eq_some_iff {bound code : Nat} :
    boundedNat? 16 bound characters = some code ↔
      ∃ sign digits, characters = sign ++ digits ∧ IsSign sign ∧
        HexDigits digits ∧ hexValue digits = code ∧ code < bound := by
  have noSign : ∀ digits : List Char, ¬ HexDigits ('+' :: digits) := by
    intro digits hex
    have plus := hex.all '+' List.mem_cons_self
    revert plus
    decide
  rw [boundedNat?, Option.filter_eq_some_iff, decide_eq_true_iff]
  constructor
  · rintro ⟨read, below⟩
    unfold natOfChars? at read
    split at read
    · rename_i digits
      obtain ⟨hex, value⟩ := natOfDigits?_eq_some_iff.mp read
      exact ⟨['+'], digits, rfl, .inr rfl, hex, value, below⟩
    · obtain ⟨hex, value⟩ := natOfDigits?_eq_some_iff.mp read
      exact ⟨[], characters, rfl, .inl rfl, hex, value, below⟩
  · rintro ⟨sign, digits, rfl, signed, hex, value, below⟩
    refine ⟨?_, below⟩
    have read := natOfDigits?_eq_some_iff.mpr ⟨hex, value⟩
    rcases signed with rfl | rfl
    · rw [List.nil_append]
      unfold natOfChars?
      split
      · exact absurd hex (noSign _)
      · exact read
    · exact read

/-- Digits stand for a number below the power of sixteen that they can count up to. -/
theorem hexValue_lt (digits : List Char) : hexValue digits < 16 ^ digits.length := by
  have digit_lt : ∀ digit : Char, (digitOf? 16 digit).getD 0 < 16 := by
    intro digit
    cases found : digitOf? 16 digit with
    | none => decide
    | some value =>
      rw [digitOf?, Option.filter_eq_some_iff, decide_eq_true_iff] at found
      exact found.2
  induction digits using List.reverseRecOn with
  | nil => decide
  | append_singleton digits last ih =>
    have step : hexValue (digits ++ [last]) = hexValue digits * 16 + (digitOf? 16 last).getD 0 :=
      List.foldl_append
    rw [step, List.length_append, List.length_singleton, Nat.pow_succ]
    have last_lt := digit_lt last
    omega

/-- A sign is no closing brace. -/
theorem IsSign.ne_brace (signed : IsSign sign) :
    ∀ character ∈ sign, (character != '\x7d') = true := by
  rcases signed with rfl | rfl
  · exact List.forall_mem_nil _
  · exact List.forall_mem_singleton.mpr rfl

/-- A closing brace is no hexadecimal digit. -/
theorem HexDigits.ne_brace (hex : HexDigits digits) :
    ∀ digit ∈ digits, (digit != '\x7d') = true := by
  intro digit mem
  rw [bne_iff_ne]
  rintro rfl
  have brace := hex.all '\x7d' mem
  revert brace
  decide

/-! ## Well-formed sequences -/

/-- The letters that stand for a control character, with that character. -/
def controls : List (Char × Char) :=
  [('n', '\n'), ('t', '\t'), ('r', '\r'), ('b', Char.ofNat 0x08), ('f', Char.ofNat 0x0C),
    ('v', Char.ofNat 0x0B)]

/-- The characters other than a carriage return that break a line. -/
def lineBreaks : List Char :=
  ['\n', Char.ofNat 0x2028, Char.ofNat 0x2029]

/-- The largest code of a character. -/
def lastCode : Nat := 0x10FFFF

/-- Whether the character means something else than itself behind a backslash. -/
def isSpecial (character : Char) : Bool :=
  isDecimalDigit character || (controls.map (·.1)).contains character ||
    lineBreaks.contains character || ['\r', 'x', 'u'].contains character

/-- The well-formed escape sequences: how one is written behind its backslash, what it stands
for, and the characters behind it. -/
inductive Escape : (spelling value left : List Char) → Prop
  | control {letter value : Char} {left : List Char} (mem : (letter, value) ∈ controls) :
    Escape [letter] [value] left
  | nul {left : List Char} (alone : startsWithDigit left = false) :
    Escape ['0'] [Char.ofNat 0] left
  | continuation {lineBreak : Char} {left : List Char} (mem : lineBreak ∈ lineBreaks) :
    Escape [lineBreak] [] left
  | returnFeed {left : List Char} : Escape ['\r', '\n'] [] left
  | returnAlone {left : List Char} (alone : left.head? ≠ some '\n') : Escape ['\r'] [] left
  | byte {digits left : List Char} (hex : HexDigits digits) (two : digits.length = 2) :
    Escape ('x' :: digits) [charOfCode (hexValue digits)] left
  | unit {digits left : List Char} (hex : HexDigits digits) (four : digits.length = 4) :
    Escape ('u' :: digits) [charOfCode (hexValue digits)] left
  | braced {digits left : List Char} (hex : HexDigits digits)
      (inRange : hexValue digits ≤ lastCode) :
    Escape ('u' :: '\x7b' :: (digits ++ ['\x7d'])) [charOfCode (hexValue digits)] left
  | literal {character : Char} {left : List Char} (plain : isSpecial character = false) :
    Escape [character] [character] left

/-- Whether a well-formed sequence can be written this way before the characters left. -/
def WellFormed (spelling left : List Char) : Prop :=
  ∃ value, Escape spelling value left

/-- The malformed spellings that are read all the same, each with the characters behind it: a
zero before a digit, a sign in place of a digit, a code beyond the last character, and a code
whose closing brace the end of the text replaces. -/
inductive Tolerated : (spelling left : List Char) → Prop
  | nulDigit {left : List Char} (follows : startsWithDigit left = true) : Tolerated ['0'] left
  | signedByte {digits left : List Char} (hex : HexDigits digits) (one : digits.length = 1) :
    Tolerated ('x' :: '+' :: digits) left
  | signedUnit {digits left : List Char} (hex : HexDigits digits) (three : digits.length = 3) :
    Tolerated ('u' :: '+' :: digits) left
  | signedCode {digits left : List Char} (hex : HexDigits digits)
      (bounded : hexValue digits < codeBound) :
    Tolerated ('u' :: '\x7b' :: '+' :: (digits ++ ['\x7d'])) left
  | largeCode {digits left : List Char} (hex : HexDigits digits)
      (beyond : lastCode < hexValue digits) (bounded : hexValue digits < codeBound) :
    Tolerated ('u' :: '\x7b' :: (digits ++ ['\x7d'])) left
  | unclosed {sign digits : List Char} (signed : IsSign sign)
      (hex : HexDigits digits) (bounded : hexValue digits < codeBound) :
    Tolerated ('u' :: '\x7b' :: (sign ++ digits)) []

/-- The spellings that decoding reads. -/
def Readable (spelling left : List Char) : Prop :=
  WellFormed spelling left ∨ Tolerated spelling left

/-- The characters behind a backslash that start no well-formed escape sequence. -/
inductive Malformed : List Char → Prop
  | atEnd : Malformed []
  | digit {character : Char} {rest : List Char} (decimal : isDecimalDigit character = true)
      (notZero : character ≠ '0') : Malformed (character :: rest)
  | nulDigit {rest : List Char} (follows : startsWithDigit rest = true) : Malformed ('0' :: rest)
  | byte {rest : List Char}
      (noByte : ∀ digits left, rest = digits ++ left → HexDigits digits → digits.length ≠ 2) :
    Malformed ('x' :: rest)
  | unit {rest : List Char}
      (noUnit : ∀ digits left, rest = digits ++ left → HexDigits digits → digits.length ≠ 4)
      (noCode : ∀ digits left, rest = '\x7b' :: (digits ++ '\x7d' :: left) → HexDigits digits →
        lastCode < hexValue digits) :
    Malformed ('u' :: rest)

/-- Read from the left, with spellings that are accepted behind each backslash on the way, the
characters come to a backslash before the rest. -/
inductive Reaches (accepts : List Char → List Char → Prop) : List Char → List Char → Prop
  | here {rest : List Char} : Reaches accepts ('\\' :: rest) rest
  | plain {character : Char} {characters rest : List Char} (other : character ≠ '\\')
      (later : Reaches accepts characters rest) : Reaches accepts (character :: characters) rest
  | escape {spelling left rest : List Char} (accepted : accepts spelling left)
      (later : Reaches accepts left rest) : Reaches accepts ('\\' :: (spelling ++ left)) rest

variable {spelling behind value rest done : List Char}

/-- No escape is spelled by nothing. -/
theorem Escape.ne_nil (escape : Escape spelling value left) : spelling ≠ [] := by
  cases escape <;> exact List.cons_ne_nil _ _

/-- Of the decimal digits only a zero starts a sequence, and no digit follows it. -/
theorem Escape.eq_zero_of_digit (escape : Escape (character :: behind) value left)
    (decimal : isDecimalDigit character = true) :
    character = '0' ∧ behind = [] ∧ startsWithDigit left = false := by
  have noControl : ∀ entry ∈ controls, isDecimalDigit entry.1 = false := by decide
  have noBreak : ∀ lineBreak ∈ lineBreaks, isDecimalDigit lineBreak = false := by
    have none : lineBreaks.any isDecimalDigit = false := by decide
    simpa using none
  cases escape with
  | nul alone => exact ⟨rfl, rfl, alone⟩
  | control mem => exact absurd decimal (by simp [noControl _ mem])
  | continuation mem => exact absurd decimal (by simp [noBreak _ mem])
  | literal plain => exact absurd decimal (by simp_all [isSpecial])
  | returnFeed | returnAlone | byte | unit | braced => exact absurd decimal (by decide)

/-- An escape by a byte has two hexadecimal digits. -/
theorem Escape.digits_of_byte (escape : Escape ('x' :: behind) value left) :
    HexDigits behind ∧ behind.length = 2 := by
  cases escape with
  | byte hex two => exact ⟨hex, two⟩
  | control mem => simp [controls] at mem
  | continuation mem => exact absurd mem (by decide)
  | literal plain => exact absurd plain (by decide)

/-- An escape by a code has four hexadecimal digits, or any in braces up to the last code. -/
theorem Escape.digits_of_unit (escape : Escape ('u' :: behind) value left) :
    (HexDigits behind ∧ behind.length = 4) ∨
      ∃ digits, behind = '\x7b' :: (digits ++ ['\x7d']) ∧ HexDigits digits ∧
        hexValue digits ≤ lastCode := by
  cases escape with
  | unit hex four => exact .inl ⟨hex, four⟩
  | braced hex inRange => exact .inr ⟨_, rfl, hex, inRange⟩
  | control mem => simp [controls] at mem
  | continuation mem => exact absurd mem (by decide)
  | literal plain => exact absurd plain (by decide)

/-- A character that is neither a digit nor one of the two letters before a code starts a
sequence, whatever follows. -/
theorem exists_escape_of_plain (notDigit : isDecimalDigit character = false)
    (notX : character ≠ 'x') (notU : character ≠ 'u') (rest : List Char) :
    ∃ spelling value left, character :: rest = spelling ++ left ∧ Escape spelling value left := by
  by_cases control : (controls.map (·.1)).contains character = true
  · obtain ⟨⟨letter, value⟩, mem, rfl⟩ := List.mem_map.mp (List.contains_iff_mem.mp control)
    exact ⟨_, _, rest, rfl, .control mem⟩
  by_cases lineBreak : lineBreaks.contains character = true
  · exact ⟨_, _, rest, rfl, .continuation (List.contains_iff_mem.mp lineBreak)⟩
  by_cases feed : character = '\r'
  · subst feed
    by_cases follows : rest.head? = some '\n'
    · obtain ⟨left, rfl⟩ := List.head?_eq_some_iff.mp follows
      exact ⟨_, _, left, rfl, .returnFeed⟩
    · exact ⟨_, _, rest, rfl, .returnAlone follows⟩
  · refine ⟨[character], _, rest, rfl, .literal ?_⟩
    simp_all [isSpecial]

/-- The malformed beginnings are those that no well-formed sequence has. -/
theorem malformed_iff :
    Malformed rest ↔ ∀ spelling left, rest = spelling ++ left → ¬ WellFormed spelling left := by
  constructor
  · rintro malformed spelling left split ⟨value, escape⟩
    obtain ⟨first, behind, rfl⟩ := List.exists_cons_of_ne_nil escape.ne_nil
    cases malformed with
    | atEnd => cases split
    | digit decimal notZero =>
      obtain ⟨rfl, -⟩ := List.cons.inj split
      exact notZero (escape.eq_zero_of_digit decimal).1
    | nulDigit follows =>
      obtain ⟨rfl, rfl⟩ := List.cons.inj split
      obtain ⟨-, rfl, alone⟩ := escape.eq_zero_of_digit (by decide)
      exact absurd follows (by simp [alone])
    | byte noByte =>
      obtain ⟨rfl, rfl⟩ := List.cons.inj split
      exact noByte behind left rfl escape.digits_of_byte.1 escape.digits_of_byte.2
    | unit noUnit noCode =>
      obtain ⟨rfl, rfl⟩ := List.cons.inj split
      rcases escape.digits_of_unit with ⟨hex, four⟩ | ⟨digits, rfl, hex, inRange⟩
      · exact noUnit behind left rfl hex four
      · exact absurd (noCode digits left (by simp) hex) (by omega)
  · intro refused
    have never : ∀ {spelling value} left, Escape spelling value left → rest ≠ spelling ++ left :=
      fun left escape split => refused _ left split ⟨_, escape⟩
    cases rest with
    | nil => exact .atEnd
    | cons first rest =>
      by_cases decimal : isDecimalDigit first = true
      · by_cases zero : first = '0'
        · subst zero
          cases follows : startsWithDigit rest with
          | true => exact .nulDigit follows
          | false => exact absurd rfl (never rest (.nul follows))
        · exact .digit decimal zero
      by_cases isX : first = 'x'
      · subst isX
        refine .byte fun digits left split hex two => ?_
        subst split
        exact never left (.byte hex two) rfl
      by_cases isU : first = 'u'
      · subst isU
        refine .unit (fun digits left split hex four => ?_) fun digits left split hex => ?_
        · subst split
          exact never left (.unit hex four) rfl
        · by_contra inRange
          exact never left (.braced hex (Nat.le_of_not_lt inRange)) (by simp [split])
      · obtain ⟨spelling, value, left, split, escape⟩ :=
          exists_escape_of_plain (Bool.eq_false_iff.mpr decimal) isX isU rest
        exact absurd split (never left escape)

/-- A text that starts with hexadecimal digits has one in front. -/
theorem HexDigits.isHexDigit_first {first : Char} (hex : HexDigits digits)
    (split : first :: rest = digits ++ left) : isHexDigit first = true := by
  obtain ⟨digit, others, rfl⟩ := List.exists_cons_of_ne_nil hex.ne_nil
  obtain ⟨rfl, -⟩ := List.cons.inj split
  exact hex.all first List.mem_cons_self

/-- Hexadecimal digits reach up to the closing brace behind them. -/
theorem HexDigits.takeWhile_ne_brace (hex : HexDigits digits) (left : List Char) :
    (digits ++ '\x7d' :: left).takeWhile (· != '\x7d') = digits := by
  rw [List.takeWhile_append_of_pos hex.ne_brace]
  exact List.append_nil digits

/-- What is tolerated is malformed. -/
theorem Tolerated.malformed (tolerated : Tolerated spelling left) :
    Malformed (spelling ++ left) := by
  have noDigit : ∀ {first rest digits left}, isHexDigit first = false →
      first :: rest = digits ++ left → ¬ HexDigits digits := by
    intro first rest digits left other split hex
    exact absurd (hex.isHexDigit_first split) (by simp [other])
  cases tolerated with
  | nulDigit follows => exact .nulDigit follows
  | signedByte hex one => exact .byte fun _ _ split hex => absurd hex (noDigit (by decide) split)
  | signedUnit hex three =>
    exact .unit (fun _ _ split hex => absurd hex (noDigit (by decide) split)) nofun
  | signedCode hex bounded =>
    refine .unit (fun _ _ split hex => absurd hex (noDigit (by decide) split)) ?_
    exact fun _ _ split hex => absurd hex (noDigit (by decide) (List.cons.inj split).2)
  | @largeCode digits _ hex beyond bounded =>
    refine .unit (fun _ _ split hex => absurd hex (noDigit (by decide) split)) ?_
    intro others left split otherHex
    have same : digits = others := by
      rw [← hex.takeWhile_ne_brace, ← otherHex.takeWhile_ne_brace]
      simpa using congrArg (List.takeWhile (· != '\x7d')) (List.cons.inj split).2
    exact same ▸ beyond
  | @unclosed sign digits signed hex bounded =>
    refine .unit (fun _ _ split hex => absurd hex (noDigit (by decide) split)) ?_
    intro others left split otherHex
    have whole : sign ++ digits = others ++ '\x7d' :: left :=
      (List.append_nil _).symm.trans (List.cons.inj split).2
    have brace : '\x7d' ∈ sign ++ digits :=
      whole ▸ List.mem_append_right _ List.mem_cons_self
    rcases List.mem_append.mp brace with mem | mem
    · exact absurd (signed.ne_brace _ mem) (by decide)
    · exact absurd (hex.ne_brace _ mem) (by decide)

/-! ## Reading a sequence -/

/-- A code of fixed width is read when digits, maybe behind a sign, fill the width. -/
theorem fixedEscape_eq_some_iff {width : Nat} (narrow : 16 ^ width ≤ codeBound) :
    fixedEscape width rest = some (value, left) ↔
      ∃ sign digits, rest = sign ++ digits ++ left ∧ IsSign sign ∧ HexDigits digits ∧
        (sign ++ digits).length = width ∧ value = [charOfCode (hexValue digits)] := by
  constructor
  · intro read
    unfold fixedEscape at read
    split at read
    · rename_i full
      obtain ⟨code, coded, same⟩ := Option.bind_eq_some_iff.mp read
      obtain ⟨sign, digits, split, signed, hex, rfl, -⟩ := boundedNat?_eq_some_iff.mp coded
      cases same
      refine ⟨sign, digits, ?_, signed, hex, split ▸ full, rfl⟩
      rw [← split, List.take_append_drop]
    · cases read
  · rintro ⟨sign, digits, rfl, signed, hex, rfl, rfl⟩
    have bounded : hexValue digits < codeBound :=
      calc
        hexValue digits < 16 ^ digits.length := hexValue_lt digits
        _ ≤ 16 ^ (sign ++ digits).length := Nat.pow_le_pow_right (by decide) (by simp)
        _ ≤ codeBound := narrow
    have coded : boundedNat? 16 codeBound (sign ++ digits) = some (hexValue digits) :=
      boundedNat?_eq_some_iff.mpr ⟨sign, digits, rfl, signed, hex, rfl, bounded⟩
    unfold fixedEscape
    rw [List.take_left, List.drop_left, if_pos rfl, coded]
    rfl

/-- A code between braces is read when digits, maybe behind a sign, stand before the closing
brace or before the end of the text. -/
theorem bracedEscape_eq_some_iff :
    bracedEscape rest = some (value, left) ↔
      ∃ sign digits closing, rest = sign ++ digits ++ (closing ++ left) ∧
        (closing = ['\x7d'] ∨ closing = [] ∧ left = []) ∧ IsSign sign ∧ HexDigits digits ∧
        hexValue digits < codeBound ∧ value = [charOfCode (hexValue digits)] := by
  constructor
  · intro read
    obtain ⟨code, coded, same⟩ := Option.bind_eq_some_iff.mp read
    obtain ⟨sign, digits, split, signed, hex, rfl, bounded⟩ := boundedNat?_eq_some_iff.mp coded
    have whole := List.takeWhile_append_dropWhile (p := (· != '\x7d')) (l := rest)
    rw [split] at whole
    cases same
    cases ending : rest.dropWhile (· != '\x7d') with
    | nil =>
      rw [ending] at whole
      exact ⟨sign, digits, [], whole.symm, .inr ⟨rfl, rfl⟩, signed, hex, bounded, rfl⟩
    | cons brace left =>
      have stops := List.head?_dropWhile_not (p := (· != '\x7d')) rest
      simp only [ending, List.head?_cons, bne_eq_false_iff_eq] at stops
      rw [ending, stops] at whole
      exact ⟨sign, digits, ['\x7d'], whole.symm, .inl rfl, signed, hex, bounded, rfl⟩
  · rintro ⟨sign, digits, closing, rfl, closed, signed, hex, bounded, rfl⟩
    have inside : ∀ character ∈ sign ++ digits, (character != '\x7d') = true := by
      intro character mem
      exact (List.mem_append.mp mem).elim (signed.ne_brace character) (hex.ne_brace character)
    have ends : (closing ++ left).takeWhile (· != '\x7d') = [] ∧
        ((closing ++ left).dropWhile (· != '\x7d')).drop 1 = left := by
      rcases closed with rfl | ⟨rfl, rfl⟩ <;> exact ⟨rfl, rfl⟩
    have coded : boundedNat? 16 codeBound (sign ++ digits) = some (hexValue digits) :=
      boundedNat?_eq_some_iff.mpr ⟨sign, digits, rfl, signed, hex, rfl, bounded⟩
    unfold bracedEscape
    rw [List.takeWhile_append_of_pos inside, List.dropWhile_append_of_pos inside, ends.1, ends.2,
      List.append_nil, coded]
    rfl

/-- The digits of a code, maybe behind a sign, do not start like a code between braces. -/
theorem escapeSequence_unit (signed : IsSign sign) (hex : HexDigits digits) (left : List Char) :
    escapeSequence 'u' (sign ++ digits ++ left) = fixedEscape 4 (sign ++ digits ++ left) := by
  refine if_neg ?_
  obtain ⟨first, others, rfl⟩ := List.exists_cons_of_ne_nil hex.ne_nil
  rcases signed with rfl | rfl
  · rintro ⟨⟩
    have brace := hex.all '\x7b' List.mem_cons_self
    revert brace
    decide
  · rintro ⟨⟩

/-- The codes of the two separators tell them from all other characters. -/
theorem isSeparator_iff :
    (character.toNat == 0x2028 || character.toNat == 0x2029) = true ↔
      character = Char.ofNat 0x2028 ∨ character = Char.ofNat 0x2029 := by
  have coded : ∀ code : Nat, code.isValidChar →
      ((character.toNat == code) = true ↔ character = Char.ofNat code) := by
    intro code valid
    rw [beq_iff_eq]
    constructor
    · rintro rfl
      exact (Char.ofNat_toNat character).symm
    · rintro rfl
      rw [Char.ofNat, dif_pos valid]
      rfl
  rw [Bool.or_eq_true, coded _ (by decide), coded _ (by decide)]

/-- What is read for a sequence is a well-formed spelling of it or one of the tolerated ones. -/
theorem readable_of_escapeSequence (read : escapeSequence character rest = some (value, left)) :
    ∃ spelling, character :: rest = spelling ++ left ∧ Readable spelling left := by
  have alone : ∀ {shown}, Escape [character] shown rest → some (shown, rest) = some (value, left) →
      ∃ spelling, character :: rest = spelling ++ left ∧ Readable spelling left := by
    rintro shown escape ⟨⟩
    exact ⟨[character], rfl, .inl ⟨_, escape⟩⟩
  unfold escapeSequence at read
  split at read
  case h_7 =>
    cases read
    cases follows : startsWithDigit left with
    | true => exact ⟨['0'], rfl, .inr (.nulDigit follows)⟩
    | false => exact ⟨['0'], rfl, .inl ⟨_, .nul follows⟩⟩
  case h_9 =>
    split at read
    · rename_i follows
      obtain ⟨left, rfl⟩ := List.head?_eq_some_iff.mp follows
      cases read
      exact ⟨['\r', '\n'], rfl, .inl ⟨_, .returnFeed⟩⟩
    · rename_i follows
      exact alone (.returnAlone follows) read
  case h_10 =>
    obtain ⟨sign, digits, rfl, rfl | rfl, hex, width, rfl⟩ :=
      (fixedEscape_eq_some_iff (by decide)).mp read
    · exact ⟨'x' :: digits, rfl, .inl ⟨_, .byte hex width⟩⟩
    · exact ⟨'x' :: '+' :: digits, rfl, .inr (.signedByte hex (Nat.succ.inj width))⟩
  case h_11 =>
    split at read
    · rename_i follows
      obtain ⟨rest, rfl⟩ := List.head?_eq_some_iff.mp follows
      obtain ⟨sign, digits, closing, split, closed, signed, hex, bounded, rfl⟩ :=
        bracedEscape_eq_some_iff.mp read
      simp only [List.drop_succ_cons, List.drop_zero] at split
      refine ⟨'u' :: '\x7b' :: (sign ++ digits ++ closing), by simp [split], ?_⟩
      rcases closed with rfl | ⟨rfl, rfl⟩
      · rcases signed with rfl | rfl
        · rcases Nat.lt_or_ge lastCode (hexValue digits) with beyond | inRange
          · exact .inr (.largeCode hex beyond bounded)
          · exact .inl ⟨_, .braced hex inRange⟩
        · exact .inr (.signedCode hex bounded)
      · rw [List.append_nil]
        exact .inr (.unclosed signed hex bounded)
    · obtain ⟨sign, digits, rfl, rfl | rfl, hex, width, rfl⟩ :=
        (fixedEscape_eq_some_iff (by decide)).mp read
      · exact ⟨'u' :: digits, rfl, .inl ⟨_, .unit hex width⟩⟩
      · exact ⟨'u' :: '+' :: digits, rfl, .inr (.signedUnit hex (Nat.succ.inj width))⟩
  case h_12 n t r b f v zero feed ret x u =>
    split at read
    · rename_i separator
      refine alone (.continuation ?_) read
      rcases isSeparator_iff.mp separator with rfl | rfl <;> decide
    · rename_i separator
      split at read
      · cases read
      · rename_i notDigit
        refine alone (.literal ?_) read
        rw [isSeparator_iff, not_or] at separator
        simp_all [isSpecial, controls, lineBreaks]
  case h_8 => exact alone (.continuation (by decide)) read
  all_goals exact alone (.control (by decide)) read

/-- A well-formed sequence is read for what it stands for, up to the characters behind it. -/
theorem escapeSequence_of_escape (escape : Escape (character :: behind) value left) :
    escapeSequence character (behind ++ left) = some (value, left) := by
  cases escape with
  | control mem =>
    simp only [controls, List.mem_cons, Prod.mk.injEq, List.not_mem_nil, or_false] at mem
    rcases mem with mem | mem | mem | mem | mem | mem <;> obtain ⟨rfl, rfl⟩ := mem <;> rfl
  | nul alone => simp [escapeSequence, alone]
  | continuation mem =>
    simp only [lineBreaks, List.mem_cons, List.not_mem_nil, or_false] at mem
    rcases mem with rfl | rfl | rfl <;> rfl
  | returnFeed => rfl
  | returnAlone alone => simp [escapeSequence, alone]
  | byte hex two =>
    exact (fixedEscape_eq_some_iff (by decide)).mpr ⟨[], behind, rfl, .inl rfl, hex, two, rfl⟩
  | unit hex four =>
    exact (escapeSequence_unit (.inl rfl) hex left).trans
      ((fixedEscape_eq_some_iff (by decide)).mpr ⟨[], behind, rfl, .inl rfl, hex, four, rfl⟩)
  | @braced digits _ hex inRange =>
    have bounded : hexValue digits < codeBound := Nat.lt_of_le_of_lt inRange (by decide)
    exact bracedEscape_eq_some_iff.mpr
      ⟨[], digits, ['\x7d'], by simp, .inl rfl, .inl rfl, hex, bounded, rfl⟩
  | literal plain =>
    have separator : ¬ (character.toNat == 0x2028 || character.toNat == 0x2029) = true := by
      rw [isSeparator_iff]
      rintro (rfl | rfl) <;> exact absurd plain (by decide)
    have notDigit : ¬ isDecimalDigit character = true := by
      intro decimal
      simp [isSpecial, decimal] at plain
    unfold escapeSequence
    split
    case h_12 => rw [if_neg separator, if_neg notDigit]; rfl
    all_goals exact absurd plain (by decide)

/-- A tolerated spelling is read, with what is behind it left. -/
theorem escapeSequence_of_tolerated (tolerated : Tolerated (character :: behind) left) :
    ∃ value, escapeSequence character (behind ++ left) = some (value, left) := by
  cases tolerated with
  | nulDigit follows => exact ⟨_, rfl⟩
  | @signedByte digits _ hex one =>
    exact ⟨_, (fixedEscape_eq_some_iff (by decide)).mpr
      ⟨['+'], digits, rfl, .inr rfl, hex, congrArg Nat.succ one, rfl⟩⟩
  | @signedUnit digits _ hex three =>
    exact ⟨_, (escapeSequence_unit (.inr rfl) hex left).trans
      ((fixedEscape_eq_some_iff (by decide)).mpr
        ⟨['+'], digits, rfl, .inr rfl, hex, congrArg Nat.succ three, rfl⟩)⟩
  | @signedCode digits _ hex bounded =>
    exact ⟨_, bracedEscape_eq_some_iff.mpr
      ⟨['+'], digits, ['\x7d'], by simp, .inl rfl, .inr rfl, hex, bounded, rfl⟩⟩
  | @largeCode digits _ hex beyond bounded =>
    exact ⟨_, bracedEscape_eq_some_iff.mpr
      ⟨[], digits, ['\x7d'], by simp, .inl rfl, .inl rfl, hex, bounded, rfl⟩⟩
  | @unclosed sign digits signed hex bounded =>
    exact ⟨_, bracedEscape_eq_some_iff.mpr
      ⟨sign, digits, [], by simp, .inr ⟨rfl, rfl⟩, signed, hex, bounded, rfl⟩⟩

/-- The first character of a spelling that is read leads to the characters behind it. -/
theorem Readable.escapeSequence (readable : Readable spelling left) :
    ∃ character behind value, spelling = character :: behind ∧
      escapeSequence character (behind ++ left) = some (value, left) := by
  cases spelling with
  | nil =>
    rcases readable with ⟨_, escape⟩ | tolerated
    · exact absurd rfl escape.ne_nil
    · cases tolerated
  | cons character behind =>
    rcases readable with ⟨value, escape⟩ | tolerated
    · exact ⟨character, behind, value, rfl, escapeSequence_of_escape escape⟩
    · obtain ⟨value, read⟩ := escapeSequence_of_tolerated tolerated
      exact ⟨character, behind, value, rfl, read⟩

/-! ## Reading a text -/

/-- At a backslash the reading stops, or it goes on behind an accepted spelling. -/
theorem Reaches.of_backslash {accepts : List Char → List Char → Prop}
    (reached : Reaches accepts ('\\' :: characters) rest) :
    rest = characters ∨ ∃ spelling left, characters = spelling ++ left ∧
      accepts spelling left ∧ Reaches accepts left rest := by
  generalize whole : '\\' :: characters = text at reached
  cases reached with
  | here => exact .inl (List.cons.inj whole).2.symm
  | plain other => exact absurd (List.cons.inj whole).1.symm other
  | escape accepted later => exact .inr ⟨_, _, (List.cons.inj whole).2, accepted, later⟩

/-- Characters have no value exactly when reading them comes to a backslash that starts nothing
that is read. -/
theorem unescapeOnto_eq_none_iff (done characters : List Char) :
    unescapeOnto done characters = none ↔
      ∃ rest, Reaches Readable characters rest ∧
        ∀ spelling left, rest = spelling ++ left → ¬ Readable spelling left := by
  fun_induction unescapeOnto done characters with
  | case1 done => exact iff_of_false (Option.some_ne_none _) nofun
  | case2 done =>
    refine iff_of_true rfl ⟨[], .here, fun spelling left split readable => ?_⟩
    obtain ⟨_, _, _, rfl, -⟩ := readable.escapeSequence
    cases split
  | case3 done character rest unread =>
    refine iff_of_true rfl ⟨_, .here, fun spelling left split readable => ?_⟩
    obtain ⟨_, _, value, rfl, read⟩ := readable.escapeSequence
    obtain ⟨rfl, rfl⟩ := List.cons.inj split
    exact Option.some_ne_none _ (read.symm.trans unread)
  | case4 done character rest value left read ih =>
    obtain ⟨spelling, split, readable⟩ := readable_of_escapeSequence read
    rw [ih]
    constructor
    · rintro ⟨rest, reached, refused⟩
      exact ⟨rest, split ▸ .escape readable reached, refused⟩
    · rintro ⟨stop, reached, refused⟩
      rcases reached.of_backslash with rfl | ⟨others, behind, otherSplit, accepted, later⟩
      · exact absurd readable (refused spelling left split)
      · obtain ⟨_, _, _, rfl, otherRead⟩ := accepted.escapeSequence
        obtain ⟨rfl, rfl⟩ := List.cons.inj otherSplit
        obtain ⟨-, rfl⟩ := Prod.mk.inj (Option.some.inj (read.symm.trans otherRead))
        exact ⟨stop, later, refused⟩
  | case5 done character rest other ih =>
    rw [ih]
    constructor
    · rintro ⟨rest, reached, refused⟩
      exact ⟨rest, .plain other reached, refused⟩
    · rintro ⟨stop, reached, refused⟩
      cases reached with
      | here => exact absurd rfl other
      | plain _ later => exact ⟨stop, later, refused⟩
      | escape => exact absurd rfl other

/-- A text has no value exactly when reading it from the left comes to a backslash before a
malformed beginning that is not tolerated. -/
theorem unescape_eq_none_iff (text : String) :
    unescape text = none ↔
      ∃ rest, Reaches Readable text.toList rest ∧ Malformed rest ∧
        ∀ spelling left, rest = spelling ++ left → ¬ Tolerated spelling left := by
  rw [unescape, unescapeChars, Option.map_eq_none_iff, unescapeOnto_eq_none_iff]
  simp only [Readable, not_or, malformed_iff]
  refine exists_congr fun rest => and_congr_right fun _ => ?_
  exact ⟨fun refused => ⟨fun spelling left split => (refused spelling left split).1,
    fun spelling left split => (refused spelling left split).2⟩,
    fun refused spelling left split =>
      ⟨refused.1 spelling left split, refused.2 spelling left split⟩⟩

/-- The text is read as a value although one of its escape sequences is malformed. -/
def ReadThough (text value : String) : Prop :=
  (∃ rest, Reaches WellFormed text.toList rest ∧ Malformed rest) ∧ unescape text = some value

/-- Texts with a malformed escape sequence that have a value all the same: a zero before a digit,
a code beyond the last character, a code without its closing brace, and codes behind a sign. -/
theorem unescape_malformed_eq_some :
    ReadThough "\\08" "08" ∧ ReadThough "\\u\x7b110000\x7d" "\ufffd" ∧
      ReadThough "\\u\x7b41" "A" ∧ ReadThough "\\x+f" "\x0f" ∧ ReadThough "\\u+041" "A" ∧
      ReadThough "\\u\x7b+41\x7d" "A" := by
  have malformed : ∀ {text : String} {spelling left}, Tolerated spelling left →
      text.toList = '\\' :: (spelling ++ left) →
      ∃ rest, Reaches WellFormed text.toList rest ∧ Malformed rest := by
    intro text spelling left tolerated written
    exact ⟨spelling ++ left, written ▸ .here, tolerated.malformed⟩
  refine ⟨⟨?_, by decide +kernel⟩, ⟨?_, by decide +kernel⟩, ⟨?_, by decide +kernel⟩,
    ⟨?_, by decide +kernel⟩, ⟨?_, by decide +kernel⟩, ⟨?_, by decide +kernel⟩⟩
  · exact malformed (@Tolerated.nulDigit ['8'] (by decide)) rfl
  · exact malformed (@Tolerated.largeCode ['1', '1', '0', '0', '0', '0'] []
      (.of_all (by decide)) (by decide) (by decide)) rfl
  · exact malformed (@Tolerated.unclosed [] ['4', '1'] (.inl rfl) (.of_all (by decide))
      (by decide)) rfl
  · exact malformed (@Tolerated.signedByte ['f'] [] (.of_all (by decide)) rfl) rfl
  · exact malformed (@Tolerated.signedUnit ['0', '4', '1'] [] (.of_all (by decide)) rfl) rfl
  · exact malformed (@Tolerated.signedCode ['4', '1'] [] (.of_all (by decide)) (by decide)) rfl

end CodeClones.Text
