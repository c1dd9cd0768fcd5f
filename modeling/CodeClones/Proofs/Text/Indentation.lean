import CodeClones.Proofs.Text.Lines
import Mathlib.Data.List.Forall2
import Mathlib.Data.List.TakeWhile

/-!
# Common indentation is removed once

How much is removed is decided by the lines that are not blank, and what is removed is cut from all
lines but the first. The main statement says what each line of a text loses, and that nothing is
left to lose afterwards. Two facts carry it. The lines of a text that ends in something visible can
be joined and cut apart again, since none of them ends the text as an empty line. And a cut takes
spaces and tabs only, so that it makes no line blank.
-/

namespace CodeClones.Text

variable {indent : Nat} {line : List Char} {characters : List Char} {found : List (List Char)}

/-! ## One line -/

/-- What indents is white space. -/
theorem isSpace_of_isIndent {character : Char} (indents : isIndent character = true) :
    isSpace character = true := by
  rcases (Bool.or_eq_true _ _).mp indents with blank | tab
  · rw [beq_iff_eq.mp blank]
    decide
  · rw [beq_iff_eq.mp tab]
    decide

/-- What is cut from a line is its indentation, or the first part of it. -/
theorem length_takeWhile_take (indent : Nat) (line : List Char) :
    ((line.take indent).takeWhile isIndent).length = min indent (indentOf line) := by
  unfold indentOf
  induction line generalizing indent with
  | nil => simp
  | cons character others ih =>
    cases indent with
    | zero => simp
    | succ indent =>
      rw [List.take_succ_cons, List.takeWhile_cons, List.takeWhile_cons]
      by_cases indents : isIndent character = true
      · rw [if_pos indents, if_pos indents, List.length_cons, List.length_cons, ih]
        omega
      · rw [if_neg indents, if_neg indents, List.length_nil, Nat.min_zero]

/-- A line loses the indentation at hand, up to the given number. -/
theorem cutIndent_eq_drop (indent : Nat) (line : List Char) :
    cutIndent indent line = line.drop (min indent (indentOf line)) := by
  rw [cutIndent, length_takeWhile_take]

/-- Without an indentation to lose a line stays as it is. -/
theorem cutIndent_zero (line : List Char) : cutIndent 0 line = line := by
  rw [cutIndent_eq_drop, Nat.zero_min, List.drop_zero]

/-- The characters before the end of the indentation are spaces and tabs. -/
theorem isIndent_of_mem_take {character : Char}
    (member : character ∈ line.take (min indent (indentOf line))) : isIndent character = true := by
  have front : line.take (indentOf line) = line.takeWhile isIndent :=
    List.prefix_iff_eq_take.mp (List.takeWhile_prefix isIndent) |>.symm
  have shorter : min indent (indentOf line) ≤ indentOf line := Nat.min_le_right _ _
  have inside := (List.take_sublist_take_left shorter).subset member
  rw [front] at inside
  exact List.mem_takeWhile_imp inside

/-- The indentation of a line gets smaller by what it loses. -/
theorem indentOf_cutIndent (indent : Nat) (line : List Char) :
    indentOf (cutIndent indent line) = indentOf line - indent := by
  rw [cutIndent_eq_drop]
  unfold indentOf
  induction line generalizing indent with
  | nil => simp
  | cons character others ih =>
    rw [List.takeWhile_cons]
    by_cases indents : isIndent character = true
    · rw [if_pos indents]
      cases indent with
      | zero => simp [indents]
      | succ indent =>
        rw [List.length_cons, Nat.add_min_add_right, List.drop_succ_cons, ih]
        omega
    · rw [if_neg indents]
      simp [indents]

/-- A cut takes nothing visible. -/
theorem isBlank_cutIndent (indent : Nat) (line : List Char) :
    isBlank (cutIndent indent line) = isBlank line := by
  have blank : isBlank (line.take (min indent (indentOf line))) = true :=
    List.all_eq_true.mpr fun _ member => isSpace_of_isIndent (isIndent_of_mem_take member)
  rw [cutIndent_eq_drop]
  calc isBlank (line.drop (min indent (indentOf line)))
      = (isBlank (line.take (min indent (indentOf line))) &&
          isBlank (line.drop (min indent (indentOf line)))) := by rw [blank, Bool.true_and]
    _ = isBlank line := by
        rw [isBlank, isBlank, ← List.all_append, List.take_append_drop, ← isBlank]

/-! ## The smallest indentation -/

/-- The number is the smallest indentation of the lines that are not blank, or zero if there are
none. -/
structure LeastIndent (found : List (List Char)) (indent : Nat) : Prop where
  /-- No line that is not blank has less. -/
  le_indentOf : ∀ line ∈ found, isBlank line = false → indent ≤ indentOf line
  /-- Some line that is not blank has it, or the number is zero and all lines are blank. -/
  attained : (∃ line ∈ found, isBlank line = false ∧ indentOf line = indent) ∨
    (indent = 0 ∧ ∀ line ∈ found, isBlank line = true)

/-- Lines have only one least indentation. -/
theorem LeastIndent.unique {other : Nat} (least : LeastIndent found indent)
    (least' : LeastIndent found other) : indent = other := by
  rcases least.attained with ⟨line, member, filled, same⟩ | ⟨zero, blank⟩
  · have atMost := least'.le_indentOf line member filled
    rcases least'.attained with ⟨line', member', filled', same'⟩ | ⟨zero', blank'⟩
    · have atLeast := least.le_indentOf line' member' filled'
      omega
    · rw [blank' line member] at filled
      contradiction
  · rcases least'.attained with ⟨line', member', filled', -⟩ | ⟨zero', -⟩
    · rw [blank line' member'] at filled'
      contradiction
    · rw [zero, zero']

/-- The common indentation is the least one. -/
theorem leastIndent_commonIndent (found : List (List Char)) :
    LeastIndent found (commonIndent found) := by
  have visible : ∀ {line}, line ∈ found → isBlank line = false →
      indentOf line ∈ (found.filter fun line => !isBlank line).map indentOf := by
    intro line member filled
    exact List.mem_map_of_mem (List.mem_filter.mpr ⟨member, by rw [filled]; rfl⟩)
  unfold commonIndent
  cases least : ((found.filter fun line => !isBlank line).map indentOf).min? with
  | none =>
    have nothing := List.min?_eq_none_iff.mp least
    refine ⟨fun _ _ _ => Nat.zero_le _, .inr ⟨rfl, fun line member => ?_⟩⟩
    by_contra filled
    have among := visible member (Bool.eq_false_iff.mpr filled)
    rw [nothing] at among
    exact List.not_mem_nil among
  | some indent =>
    obtain ⟨attained, smallest⟩ := List.min?_eq_some_iff.mp least
    refine ⟨fun line member filled => smallest _ (visible member filled), .inl ?_⟩
    obtain ⟨line, among, same⟩ := List.mem_map.mp attained
    obtain ⟨member, filled⟩ := List.mem_filter.mp among
    exact ⟨line, member, by simpa using filled, same⟩

/-- Lines without their common indentation have none in common. -/
theorem commonIndent_map_cutIndent (found : List (List Char)) :
    commonIndent (found.map (cutIndent (commonIndent found))) = 0 := by
  obtain ⟨_, attained⟩ := leastIndent_commonIndent found
  obtain ⟨smallest, attained'⟩ :=
    leastIndent_commonIndent (found.map (cutIndent (commonIndent found)))
  rcases attained with ⟨line, member, filled, same⟩ | ⟨-, blank⟩
  · -- The line that has no more than the common indentation has none afterwards.
    have cut := smallest _ (List.mem_map_of_mem member) (by rw [isBlank_cutIndent, filled])
    rw [indentOf_cutIndent, same] at cut
    omega
  · rcases attained' with ⟨line, member, filled, -⟩ | ⟨none, -⟩
    · obtain ⟨before, inside, rfl⟩ := List.mem_map.mp member
      rw [isBlank_cutIndent, blank before inside] at filled
      contradiction
    · exact none

/-- Lines that have lost their common indentation lose nothing more. -/
theorem dedentLines_dedentLines (found : List (List Char)) :
    dedentLines (dedentLines found) = dedentLines found := by
  cases found with
  | nil => rfl
  | cons first others =>
    rw [dedentLines, dedentLines, commonIndent_map_cutIndent]
    simp [cutIndent_zero]

/-! ## Lines that can be joined -/

/-- The lines hold no part of a line ending, and the last of them is not blank. -/
structure Joinable (found : List (List Char)) : Prop where
  /-- No line holds a line feed. -/
  feedless : ∀ line ∈ found, '\n' ∉ line
  /-- No line holds a carriage return. -/
  returnless : ∀ line ∈ found, '\r' ∉ line
  /-- The last line is not blank. -/
  closed : ∀ line, found.getLast? = some line → isBlank line = false

/-- A line without a carriage return stays as it is. -/
theorem withoutReturn_of_notMem (returnless : '\r' ∉ line) : withoutReturn line = line := by
  unfold withoutReturn
  rw [if_neg]
  intro last
  exact returnless (List.mem_of_getLast? last)

/-- Joined lines are cut apart at the same places. -/
theorem Joinable.lines_joinLines (joinable : Joinable found) : lines (joinLines found) = found := by
  rcases List.eq_nil_or_concat found with rfl | ⟨ended, last, split⟩
  · rfl
  rw [List.concat_eq_append] at split
  have cut : pieces '\n' (joinLines found) = ended ++ [last] := by
    rw [pieces_eq_splitOn, joinLines_eq_intercalate,
      List.splitOn_intercalate '\n' joinable.feedless (by simp [split]), split]
  have kept : ended.map withoutReturn = ended := by
    have unchanged : ∀ line ∈ ended, withoutReturn line = id line := fun line member =>
      withoutReturn_of_notMem (joinable.returnless line (split ▸ List.mem_append_left _ member))
    rw [List.map_congr_left unchanged, List.map_id]
  have filled := joinable.closed last (by rw [split]; exact List.getLast?_concat)
  cases last with
  | nil => cases filled
  | cons first others =>
    rw [lines, cut, split]
    simp [kept]

/-- The characters of a line are in the joined lines. -/
theorem mem_joinLines {character : Char} (inside : character ∈ line) (member : line ∈ found) :
    character ∈ joinLines found := by
  induction found with
  | nil => cases member
  | cons first others ih =>
    by_cases alone : others = []
    · subst alone
      rw [List.mem_singleton.mp member] at inside
      exact inside
    · rw [joinLines_cons_of_ne_nil first alone, List.mem_append, List.mem_cons]
      rcases List.mem_cons.mp member with rfl | later
      · exact .inl inside
      · exact .inr (.inr (ih later))

/-- Joined lines end as the last of them does, if it is not empty. -/
theorem getLast?_joinLines (ended : List (List Char)) {last : List Char} {character : Char}
    (ends : last.getLast? = some character) :
    (joinLines (ended ++ [last])).getLast? = some character := by
  induction ended with
  | nil => exact ends
  | cons first others ih =>
    rw [List.cons_append, joinLines_cons_of_ne_nil first (List.concat_ne_nil _ _),
      List.getLast?_append, List.getLast?_cons, ih]
    rfl

/-- The lines of a text can be joined if it has no carriage return and its last character is
visible. -/
theorem joinable_lines (returnless : '\r' ∉ characters)
    (closed : ∀ character, characters.getLast? = some character → isSpace character = false) :
    Joinable (lines characters) := by
  by_cases nothing : characters = []
  · subst nothing
    exact ⟨nofun, nofun, nofun⟩
  have joinable : Joinable (pieces '\n' characters) := by
    refine ⟨fun _ => notMem_of_mem_pieces, fun piece member inside => ?_, fun last ends => ?_⟩
    · apply returnless
      rw [← joinLines_pieces characters]
      exact mem_joinLines inside member
    · obtain ⟨ended, split⟩ := List.getLast?_eq_some_iff.mp ends
      have joined := joinLines_pieces characters
      rw [split] at joined
      cases final : last.getLast? with
      | none =>
        -- The text would be empty or end in a line feed.
        rw [List.getLast?_eq_none_iff.mp final] at joined
        rcases joinLines_concat_nil ended with none | feed
        · exact absurd (joined.symm.trans none) nothing
        · have visible := closed '\n' (joined ▸ feed)
          contradiction
      | some character =>
        have visible := closed character (joined ▸ getLast?_joinLines ended final)
        by_contra blank
        have space := List.all_eq_true.mp (Bool.not_eq_false _ ▸ blank) character
          (List.mem_of_getLast? final)
        rw [visible] at space
        contradiction
  have cut := joinable.lines_joinLines
  rw [joinLines_pieces] at cut
  rw [cut]
  exact joinable

/-- Lines that can be joined can be joined without their common indentation as well. -/
theorem Joinable.dedentLines (joinable : Joinable found) : Joinable (dedentLines found) := by
  refine ⟨fun line member inside => ?_, fun line member inside => ?_, fun last ends => ?_⟩
  · obtain ⟨before, kept, among⟩ := exists_sublist_of_mem_dedentLines member
    exact joinable.feedless before kept (among.subset inside)
  · obtain ⟨before, kept, among⟩ := exists_sublist_of_mem_dedentLines member
    exact joinable.returnless before kept (among.subset inside)
  · cases found with
    | nil => cases ends
    | cons first others =>
      rcases List.eq_nil_or_concat others with rfl | ⟨ended, final, split⟩
      · exact joinable.closed last ends
      · rw [List.concat_eq_append] at split
        have visible := joinable.closed final
          (by rw [split, ← List.cons_append, List.getLast?_concat])
        have same : cutIndent (commonIndent others) final = last := by
          rw [Text.dedentLines, split, List.map_append, List.map_singleton, ← List.cons_append,
            List.getLast?_concat] at ends
          rw [split]
          exact Option.some.inj ends
        rw [← same, isBlank_cutIndent, visible]

/-! ## Texts -/

/-- What a line has lost are spaces and tabs at its front: a line that is not blank has lost the
given number of them, a blank one as many as it has up to this number. -/
def LosesIndent (indent : Nat) (before after : List Char) : Prop :=
  ∃ lost, before = lost ++ after ∧ (∀ character ∈ lost, isIndent character = true) ∧
    lost.length = if isBlank before then min indent (indentOf before) else indent

/-- A line that has the indentation to lose loses just this. -/
theorem losesIndent_cutIndent (le : isBlank line = false → indent ≤ indentOf line) :
    LosesIndent indent line (cutIndent indent line) := by
  refine ⟨line.take (min indent (indentOf line)), ?_, fun _ => isIndent_of_mem_take, ?_⟩
  · rw [cutIndent_eq_drop, List.take_append_drop]
  · have short : indentOf line ≤ line.length := (List.takeWhile_sublist isIndent).length_le
    rw [List.length_take]
    cases blank : isBlank line with
    | true => simp only [↓reduceIte]; omega
    | false =>
      have := le blank
      simp only [Bool.false_eq_true, ↓reduceIte]
      omega

/-- A text without carriage returns whose last character is visible keeps the number of its lines
and its first line. Of the later lines, those that are not blank lose as many leading spaces and
tabs as each of them has, and the blank ones no more than that. Removing the common indentation
again changes nothing. -/
theorem dedent_losesIndent {text : String} (returnless : '\r' ∉ text.toList)
    (closed : ∀ character, text.toList.getLast? = some character → isSpace character = false) :
    (lines (dedent text).toList).length = (lines text.toList).length ∧
    (lines (dedent text).toList).head? = (lines text.toList).head? ∧
    (∃ indent, LeastIndent (lines text.toList).tail indent ∧
      List.Forall₂ (LosesIndent indent) (lines text.toList).tail
        (lines (dedent text).toList).tail) ∧
    dedent (dedent text) = dedent text := by
  have joinable := joinable_lines returnless closed
  have cut : lines (dedent text).toList = dedentLines (lines text.toList) := by
    rw [dedent, String.toList_ofList, joinable.dedentLines.lines_joinLines]
  refine ⟨?_, ?_, ?_, ?_⟩
  · rw [cut, length_dedentLines]
  · rw [cut]
    cases lines text.toList with
    | nil => rfl
    | cons first others => rfl
  · have least := leastIndent_commonIndent (lines text.toList).tail
    refine ⟨commonIndent (lines text.toList).tail, least, ?_⟩
    rw [cut]
    cases split : lines text.toList with
    | nil => exact .nil
    | cons first others =>
      rw [split] at least
      change List.Forall₂ _ others (others.map (cutIndent (commonIndent others)))
      rw [List.forall₂_map_right_iff, List.forall₂_same]
      exact fun line member => losesIndent_cutIndent (least.le_indentOf line member)
  · calc dedent (dedent text)
        = String.ofList (joinLines (dedentLines (lines (dedent text).toList))) := rfl
      _ = String.ofList (joinLines (dedentLines (lines text.toList))) := by
          rw [cut, dedentLines_dedentLines]
      _ = dedent text := rfl

/-- A block whose lines are indented by a tab and spaces, with a blank line that is shorter than the
indentation and one that has a space of another kind only. -/
def indentedBlock : String := "f \x7b\n\t  a\n \n\u00a0\n\t \x7d"

/-- Of a block with blank lines the two lines that are not blank lose two characters each, and the
blank ones what they have. -/
theorem dedent_losesIndent_indentedBlock :
    '\r' ∉ indentedBlock.toList ∧
    (∀ character, indentedBlock.toList.getLast? = some character → isSpace character = false) ∧
    dedent indentedBlock = "f \x7b\n a\n\n\u00a0\n\x7d" ∧
    List.Forall₂ (LosesIndent 2) (lines indentedBlock.toList).tail
      (lines (dedent indentedBlock).toList).tail ∧
    dedent (dedent indentedBlock) = dedent indentedBlock := by
  have returnless : '\r' ∉ indentedBlock.toList := by decide
  have closed : ∀ character, indentedBlock.toList.getLast? = some character →
      isSpace character = false := by
    intro character ends
    rw [show indentedBlock.toList.getLast? = some '\x7d' by decide] at ends
    rw [← Option.some.inj ends]
    decide
  have two : LeastIndent (lines indentedBlock.toList).tail 2 :=
    ⟨by decide, .inl ⟨['\t', ' ', '\x7d'], by decide, by decide, by decide⟩⟩
  obtain ⟨-, -, ⟨indent, least, loses⟩, again⟩ := dedent_losesIndent returnless closed
  rw [least.unique two] at loses
  exact ⟨returnless, closed, by decide, loses, again⟩

end CodeClones.Text
