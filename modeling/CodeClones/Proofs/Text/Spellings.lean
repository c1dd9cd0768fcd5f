import CodeClones.Proofs.Text.Escapes

/-!
# Spellings of a text

A text between quotes is written in units: plain characters, and escape sequences that stand for a
character or, as continuations of a line, for nothing. Whether a unit is well-formed may depend on
what is written behind it, and nothing else does: every sequence of well-formed units is decoded
to what its units stand for, one after the other. So a text can be read back however its characters
were spelled, and each of them can be spelled as an escape sequence.
-/

namespace CodeClones.Text

/-! ## Codes of characters -/

/-- Up to the last code, only the surrogates have no character. -/
theorem charOfCode_eq {code : Nat} (inRange : code ≤ lastCode) :
    charOfCode code =
      if 0xD800 ≤ code ∧ code ≤ 0xDFFF then Char.ofNat 0xFFFD else Char.ofNat code := by
  have bounded : code ≤ 0x10FFFF := inRange
  have valid : code.isValidChar ↔ ¬ (0xD800 ≤ code ∧ code ≤ 0xDFFF) := by
    unfold Nat.isValidChar
    omega
  by_cases surrogate : 0xD800 ≤ code ∧ code ≤ 0xDFFF
  · rw [if_pos surrogate, charOfCode, if_neg (fun given => valid.mp given surrogate)]
    rfl
  · rw [if_neg surrogate, charOfCode, if_pos (valid.mpr surrogate)]

/-- A character is what its code stands for. -/
theorem charOfCode_toNat (character : Char) : charOfCode character.toNat = character := by
  have valid : character.toNat.isValidChar := character.valid
  rw [charOfCode, if_pos valid, Char.ofNat_toNat]

/-- The code of a character is at most the last one. -/
theorem toNat_le_lastCode (character : Char) : character.toNat ≤ lastCode := by
  have valid : character.toNat.isValidChar := character.valid
  unfold Nat.isValidChar at valid
  unfold lastCode
  omega

/-- The digit for a number below sixteen has this number as its value. -/
theorem digitOf?_digitChar : ∀ value < 16, digitOf? 16 (Nat.digitChar value) = some value := by
  decide

/-- The hexadecimal digits of a number are hexadecimal digits, and stand for this number. -/
theorem hexDigits_toDigits (number : Nat) :
    HexDigits (Nat.toDigits 16 number) ∧ hexValue (Nat.toDigits 16 number) = number := by
  induction number using Nat.strongRecOn with
  | ind number ih =>
    rw [Nat.toDigits_eq_if (by decide)]
    split
    · rename_i small
      have digit := digitOf?_digitChar number small
      exact ⟨⟨List.cons_ne_nil _ _, by simp [isHexDigit, digit]⟩, by simp [hexValue, digit]⟩
    · rename_i large
      obtain ⟨hex, value⟩ := ih (number / 16) (by omega)
      have digit := digitOf?_digitChar (number % 16) (Nat.mod_lt _ (by decide))
      refine ⟨⟨List.concat_ne_nil _ _, ?_⟩, ?_⟩
      · intro character member
        rcases List.mem_append.mp member with member | member
        · exact hex.all character member
        · rw [List.mem_singleton.mp member, isHexDigit, digit, Option.isSome_some]
      · have step : hexValue (Nat.toDigits 16 (number / 16) ++ [Nat.digitChar (number % 16)]) =
            hexValue (Nat.toDigits 16 (number / 16)) * 16 +
              (digitOf? 16 (Nat.digitChar (number % 16))).getD 0 := List.foldl_append
        rw [step, value, digit, Option.getD_some]
        omega

/-! ## Units -/

/-- A unit of a written text. -/
structure TextUnit where
  /-- The characters of the unit. -/
  written : List Char
  /-- What the unit stands for. -/
  value : List Char

namespace TextUnit

/-- The unit is a plain character, or a backslash with a sequence that is well-formed before the
characters behind it. -/
inductive Formed : TextUnit → (behind : List Char) → Prop
  | plain {character : Char} {behind : List Char} (other : character ≠ '\\') :
    Formed ⟨[character], [character]⟩ behind
  | escape {spelling value behind : List Char} (escape : Escape spelling value behind) :
    Formed ⟨'\\' :: spelling, value⟩ behind

/-- The characters of the units, one unit behind the other. -/
def writing (units : List TextUnit) : List Char :=
  units.flatMap (·.written)

/-- What the units stand for, one after the other. -/
def meaning (units : List TextUnit) : List Char :=
  units.flatMap (·.value)

/-- Every unit is well-formed before the units behind it. -/
def AllFormed : List TextUnit → Prop
  | [] => True
  | unit :: others => unit.Formed (writing others) ∧ AllFormed others

/-- The units spell the text: each of them stands for one of its characters. -/
structure Spells (units : List TextUnit) (text : String) : Prop where
  /-- The units are well-formed. -/
  formed : AllFormed units
  /-- They stand for the characters of the text in order. -/
  values : units.map (·.value) = text.toList.map fun character => [character]

/-! ## Decoding -/

/-- A well-formed unit is read for what it stands for, up to what is written behind it. -/
theorem Formed.unescapeOnto {unit : TextUnit} {behind : List Char} (formed : unit.Formed behind)
    (done : List Char) :
    unescapeOnto done (unit.written ++ behind) =
      unescapeOnto (unit.value.reverse ++ done) behind := by
  cases formed with
  | plain other =>
    rw [List.singleton_append, Text.unescapeOnto.eq_def]
    exact if_neg other
  | @escape spelling value _ escape =>
    obtain ⟨character, rest, rfl⟩ := List.exists_cons_of_ne_nil escape.ne_nil
    have read := escapeSequence_of_escape escape
    rw [List.cons_append, List.cons_append, Text.unescapeOnto.eq_def]
    simp only [if_true]
    split
    · rename_i unread
      exact absurd (read.symm.trans unread) (Option.some_ne_none _)
    · rename_i found
      cases read.symm.trans found
      rfl

/-- Well-formed units are read for what they stand for, behind what has been read before. -/
theorem AllFormed.unescapeOnto {units : List TextUnit} (formed : AllFormed units)
    (done : List Char) :
    unescapeOnto done (writing units) = some (done.reverse ++ meaning units) := by
  induction units generalizing done with
  | nil => simp [writing, meaning, Text.unescapeOnto]
  | cons unit others ih =>
    calc Text.unescapeOnto done (writing (unit :: others))
        = Text.unescapeOnto (unit.value.reverse ++ done) (writing others) :=
          formed.1.unescapeOnto done
      _ = some ((unit.value.reverse ++ done).reverse ++ meaning others) := ih formed.2 _
      _ = some (done.reverse ++ meaning (unit :: others)) := by simp [meaning]

/-- A text that is written in well-formed units has the value that they stand for. -/
theorem AllFormed.unescape {units : List TextUnit} (formed : AllFormed units) :
    unescape (String.ofList (writing units)) = some (String.ofList (meaning units)) := by
  rw [Text.unescape, unescapeChars, String.toList_ofList, formed.unescapeOnto]
  rfl

/-- Units that spell a text stand for it. -/
theorem Spells.ofList_meaning {units : List TextUnit} {text : String} (spells : Spells units text) :
    String.ofList (meaning units) = text := by
  have joined : meaning units = (units.map (·.value)).flatten := List.flatMap_def
  rw [joined, spells.values, ← List.flatMap_def, List.flatMap_singleton', String.ofList_toList]

/-! ## Characters as codes -/

/-- A character written as its code between braces. -/
def ofCode (character : Char) : TextUnit :=
  ⟨'\\' :: 'u' :: '\x7b' :: (Nat.toDigits 16 character.toNat ++ ['\x7d']), [character]⟩

/-- A code between braces is formed well before anything. -/
theorem formed_ofCode (character : Char) (behind : List Char) :
    (ofCode character).Formed behind := by
  obtain ⟨hex, value⟩ := hexDigits_toDigits character.toNat
  have inRange : hexValue (Nat.toDigits 16 character.toNat) ≤ lastCode :=
    value.symm ▸ toNat_le_lastCode character
  have escape := @Escape.braced _ behind hex inRange
  rw [value, charOfCode_toNat] at escape
  exact .escape escape

/-- The codes of its characters spell every text. -/
theorem spells_ofCode (text : String) : Spells (text.toList.map ofCode) text := by
  refine ⟨?_, by simp [ofCode]⟩
  induction text.toList with
  | nil => trivial
  | cons character others ih => exact ⟨formed_ofCode character _, ih⟩

/-! ## All spellings -/

/-- Every sequence of well-formed units is decoded to what they stand for, where the codes that
are no character stand for the replacement character; every text is decoded back from each of its
spellings, and it has one in which all of its characters are escaped. -/
theorem unescape_units :
    (∀ units, AllFormed units →
      Text.unescape (String.ofList (writing units)) = some (String.ofList (meaning units))) ∧
    (∀ code ≤ lastCode, charOfCode code =
      if 0xD800 ≤ code ∧ code ≤ 0xDFFF then Char.ofNat 0xFFFD else Char.ofNat code) ∧
    ∀ text : String,
      (∀ units, Spells units text → Text.unescape (String.ofList (writing units)) = some text) ∧
      ∃ units, Spells units text ∧ ∀ unit ∈ units, unit.written.head? = some '\\' := by
  refine ⟨fun units formed => formed.unescape, fun code => charOfCode_eq, fun text => ⟨?_, ?_⟩⟩
  · intro units spells
    rw [spells.formed.unescape, spells.ofList_meaning]
  · refine ⟨text.toList.map ofCode, spells_ofCode text, ?_⟩
    intro unit member
    obtain ⟨character, -, rfl⟩ := List.mem_map.mp member
    rfl

/-- Units of every kind: a null before a backslash, both continuations behind a carriage return, a
lone surrogate and a code with leading zeros are among them. -/
def everyKind : List TextUnit :=
  [⟨['a'], ['a']⟩, ⟨['\\', 'n'], ['\n']⟩, ⟨['\\', '0'], [Char.ofNat 0]⟩,
    ⟨['\\', '\r', '\n'], []⟩, ⟨['\\', '\r'], []⟩, ⟨['\\', 'x', '4', '1'], ['A']⟩,
    ⟨['\\', 'u', 'D', '8', '3', 'D'], [Char.ofNat 0xFFFD]⟩,
    ⟨['\\', 'u', '\x7b', '0', '0', '1', 'F', '6', '0', '0', '\x7d'], ['😀']⟩,
    ⟨['\\', '\''], ['\'']⟩]

/-- Units of every kind are decoded to what they stand for. -/
theorem unescape_units_everyKind :
    AllFormed everyKind ∧
    String.ofList (writing everyKind) =
      "a\\n\\0\\\r\n\\\r\\x41\\uD83D\\u\x7b001F600\x7d\\'" ∧
    Text.unescape (String.ofList (writing everyKind)) = some (String.ofList (meaning everyKind)) ∧
    String.ofList (meaning everyKind) = "a\n\x00A\ufffd😀'" := by
  have formed : AllFormed everyKind :=
    ⟨.plain (by decide), .escape (.control (by decide)), .escape (.nul (by decide)),
      .escape .returnFeed, .escape (.returnAlone (by decide)),
      .escape (@Escape.byte ['4', '1'] _ (.of_all (by decide)) rfl),
      .escape (@Escape.unit ['D', '8', '3', 'D'] _ (.of_all (by decide)) rfl),
      .escape (@Escape.braced ['0', '0', '1', 'F', '6', '0', '0'] _ (.of_all (by decide))
        (by decide)),
      .escape (.literal (by decide)), trivial⟩
  exact ⟨formed, by decide +kernel, unescape_units.1 _ formed, by decide +kernel⟩

end TextUnit

end CodeClones.Text
