import CodeClones.Report.Html

/-!
# Reports cannot break their page

A page is put together from fixed tags and from texts that come out of the scanned files. The main
statement compares two reports: as long as their groups have the same sizes, the angle brackets of
their pages are the same, whatever the files are called and whatever stands in them. Indeed the
brackets of every page are those of complete tags, one after another, and their number is a sum over
the sizes. Texts are written so that reading the entities once from the left gives them back; so no
two texts are written alike.
-/

namespace CodeClones.Text

/-! ## Texts inside markup -/

/-- Whether a character opens or closes a tag. -/
def isBracket (character : Char) : Bool :=
  character == '<' || character == '>'

/-- A bracket is one of the two characters around a tag. -/
theorem isBracket_iff {character : Char} :
    isBracket character = true ↔ character = '<' ∨ character = '>' := by
  rw [isBracket, Bool.or_eq_true, beq_iff_eq, beq_iff_eq]

/-- The brackets of a text in order. -/
def brackets (text : String) : List Char :=
  text.toList.filter isBracket

/-- The brackets of tags that follow one another. -/
def tags (count : Nat) : List Char :=
  (List.replicate count ['<', '>']).flatten

/-- Tags in two rows are tags in one. -/
theorem tags_append (first second : Nat) : tags first ++ tags second = tags (first + second) := by
  rw [tags, tags, ← List.flatten_append, List.replicate_append_replicate, tags]

/-- The brackets of a literal are found among its characters, without decoding its bytes. -/
theorem brackets_literal {characters found : List Char}
    (filtered : characters.filter isBracket = found) :
    brackets (String.ofList characters) = found := by
  rw [brackets, String.toList_ofList, filtered]

/-- The brackets of a text follow those of the text before it. -/
theorem brackets_append (front back : String) :
    brackets (front ++ back) = brackets front ++ brackets back := by
  rw [brackets, String.toList_append, List.filter_append, brackets, brackets]

/-- Numbers have no brackets. -/
theorem brackets_toString (number : Nat) : brackets (toString number) = [] := by
  rw [brackets, List.filter_eq_nil_iff]
  intro character member bracket
  have digit : character.isDigit = true := by
    rw [show toString number = number.repr from rfl, Nat.toList_repr] at member
    exact Nat.isDigit_of_mem_toDigits (by decide) (by decide) member
  rcases isBracket_iff.mp bracket with rfl | rfl
  · exact absurd digit (by decide)
  · exact absurd digit (by decide)

/-- The characters that are written as entities. -/
def specials : List Char := ['&', '<', '>', '"', '\'']

/-- A character that is not special is written as itself. -/
theorem entity_of_plain {character : Char} (plain : character ∉ specials) :
    entity character = [character] := by
  unfold entity
  split <;> first | rfl | exact absurd (by decide) plain

/-- A character is written without brackets. -/
theorem filter_entity (character : Char) : (entity character).filter isBracket = [] := by
  by_cases special : character ∈ specials
  · simp only [specials, List.mem_cons, List.not_mem_nil, or_false] at special
    rcases special with rfl | rfl | rfl | rfl | rfl <;> rfl
  · have plain : ¬ isBracket character = true := by
      intro bracket
      rcases isBracket_iff.mp bracket with rfl | rfl
      · exact special (by decide)
      · exact special (by decide)
    rw [entity_of_plain special, List.filter_cons_of_neg plain, List.filter_nil]

/-- No bracket of a text is left when it is escaped. -/
theorem brackets_escapeMarkup (text : String) : brackets (escapeMarkup text) = [] := by
  rw [brackets, escapeMarkup, String.toList_ofList, escapeMarkupChars, List.filter_flatMap]
  simp [filter_entity]

/-! ## Entities read back -/

/-- Replace entities by the characters that they stand for, in one pass from the left. -/
def resolveEntities : List Char → List Char
  | '&' :: 'a' :: 'm' :: 'p' :: ';' :: others => '&' :: resolveEntities others
  | '&' :: 'l' :: 't' :: ';' :: others => '<' :: resolveEntities others
  | '&' :: 'g' :: 't' :: ';' :: others => '>' :: resolveEntities others
  | '&' :: 'q' :: 'u' :: 'o' :: 't' :: ';' :: others => '"' :: resolveEntities others
  | '&' :: '#' :: '3' :: '9' :: ';' :: others => '\'' :: resolveEntities others
  | character :: others => character :: resolveEntities others
  | [] => []

/-- Replace the entities of a text by the characters that they stand for. -/
def resolveMarkup (text : String) : String :=
  String.ofList (resolveEntities text.toList)

/-- What does not begin an entity stands for itself. -/
theorem resolveEntities_cons {character : Char} (plain : character ≠ '&') (others : List Char) :
    resolveEntities (character :: others) = character :: resolveEntities others := by
  rw [resolveEntities]
  all_goals
    intro behind opens
    exact absurd opens plain

/-- What is written for a character is read as the character, whatever stands behind it. -/
theorem resolveEntities_entity (character : Char) (others : List Char) :
    resolveEntities (entity character ++ others) = character :: resolveEntities others := by
  by_cases special : character ∈ specials
  · simp only [specials, List.mem_cons, List.not_mem_nil, or_false] at special
    rcases special with rfl | rfl | rfl | rfl | rfl <;> rfl
  · have plain : character ≠ '&' := by
      rintro rfl
      exact special List.mem_cons_self
    rw [entity_of_plain special, List.singleton_append, resolveEntities_cons plain]

/-- Resolving the entities of an escaped text gives the text back. -/
theorem resolveMarkup_escapeMarkup (text : String) : resolveMarkup (escapeMarkup text) = text := by
  have resolved : ∀ characters, resolveEntities (escapeMarkupChars characters) = characters := by
    intro characters
    induction characters with
    | nil => rfl
    | cons character others ih =>
      rw [escapeMarkupChars, List.flatMap_cons, resolveEntities_entity, ← escapeMarkupChars, ih]
  rw [resolveMarkup, escapeMarkup, String.toList_ofList, resolved, String.ofList_toList]

end CodeClones.Text

namespace CodeClones.Report

open Text

/-! ## Pages -/

/-- The style of the page has no brackets. -/
theorem brackets_style : brackets style = [] := by
  unfold style
  have pieces : ∀ {front back : String}, brackets front = [] → brackets back = [] →
      brackets (front ++ back) = [] := by
    intro front back first second
    rw [brackets_append, first, second, List.append_nil]
  refine pieces (pieces (pieces ?_ ?_) ?_) ?_
  all_goals exact brackets_literal (by decide)

/-- The block of an entry has six tags, whatever the entry is. -/
theorem brackets_entryBlock (entry : ReportEntry) : brackets (entryBlock entry) = tags 6 := by
  have opening : brackets "<pre><code><span class=\"file\"># " = tags 3 :=
    brackets_literal (by decide)
  have colon : brackets ":" = tags 0 := by decide
  have dash : brackets "-" = tags 0 := by decide
  have heading : brackets "</span>\n\n" = tags 1 := brackets_literal (by decide)
  have closing : brackets "</code></pre>\n" = tags 2 := brackets_literal (by decide)
  -- Each literal is counted on its own, so that the whole block is never evaluated.
  unfold entryBlock
  simp only [brackets_append, brackets_escapeMarkup, brackets_toString, opening, colon, dash,
    heading, closing, List.append_nil, tags_append]

/-- The section of a group has four tags around those of its entries. -/
theorem brackets_groupSection (number : Nat) (group : List ReportEntry) :
    brackets (groupSection number group) = tags (4 + 6 * group.length) := by
  have blocks : brackets (String.join (group.map entryBlock)) = tags (6 * group.length) := by
    induction group with
    | nil => rfl
    | cons entry others ih =>
      rw [List.map_cons, String.join_cons, brackets_append, brackets_entryBlock, ih, tags_append,
        List.length_cons, Nat.mul_succ, Nat.add_comm]
  have opening : brackets "<section class=\"group\">\n<h2>Clone " = tags 2 :=
    brackets_literal (by decide)
  have between : brackets " (" = tags 0 := by decide
  have heading : brackets " locations)</h2>\n" = tags 1 := brackets_literal (by decide)
  have closing : brackets "</section>\n" = tags 1 := brackets_literal (by decide)
  unfold groupSection
  simp only [brackets_append, brackets_toString, opening, between, heading, closing, blocks,
    List.append_nil, tags_append]
  exact congrArg tags (by omega)

/-- Number of tags of the sections of groups by their sizes: those of each group, and a rule between
every two neighbours; without groups, those of a paragraph. -/
def sectionTags : List Nat → Nat
  | [] => 2
  | [size] => 4 + 6 * size
  | size :: sizes => 4 + 6 * size + 1 + sectionTags sizes

/-- The sections of groups have as many tags as their sizes say, from whatever number on they are
counted. -/
theorem brackets_intercalate (first : Nat) (group : List ReportEntry)
    (groups : List (List ReportEntry)) :
    brackets ("<hr>\n".intercalate
        (((group :: groups).zipIdx first).map fun (group, position) =>
          groupSection (position + 1) group)) =
      tags (sectionTags ((group :: groups).map List.length)) := by
  -- The number of a section differs from step to step, but a number has no brackets.
  induction groups generalizing first group with
  | nil => exact brackets_groupSection _ _
  | cons next others ih =>
    have rule : brackets "<hr>\n" = tags 1 := brackets_literal (by decide)
    have rest := ih (first + 1) next
    rw [List.zipIdx_cons, List.map_cons, String.intercalate_cons_of_ne_nil (by simp),
      brackets_append, brackets_append, rest, rule, brackets_groupSection, tags_append, tags_append]
    rfl

/-- The brackets of all sections are those of their tags, by the sizes of the groups. -/
theorem brackets_sections (report : Report) :
    brackets report.sections = tags (sectionTags (report.groups.map List.length)) := by
  unfold sections isEmpty
  cases report.groups with
  | nil => decide +kernel
  | cons group groups => exact brackets_intercalate 0 group groups

/-- The brackets of a page are those of complete tags, whose number depends on the sizes of the
groups alone. -/
theorem brackets_toHtml (report : Report) :
    brackets report.toHtml = tags (sectionTags (report.groups.map List.length) + 14) := by
  have opening : brackets
      "<!DOCTYPE html>\n<html>\n<head>\n<meta charset=\"utf-8\">\n<title>simstruct report</title>\n"
      = tags 6 := brackets_literal (by decide)
  have styling : brackets "<style>" = tags 1 := brackets_literal (by decide)
  have heading : brackets "</style>\n</head>\n<body>\n" = tags 3 := brackets_literal (by decide)
  have title : brackets "<h1>Detected structural duplications</h1>\n" = tags 2 :=
    brackets_literal (by decide)
  have closing : brackets "</body>\n</html>\n" = tags 2 := brackets_literal (by decide)
  unfold toHtml
  simp only [brackets_append, brackets_style, opening, styling, heading, title, closing,
    brackets_sections, List.append_nil, tags_append]
  exact congrArg tags (by omega)

/-- The brackets of a page are the same for every two reports whose groups have the same sizes,
whatever files, lines and snippets they show. And reading the entities of a text inside markup once
from the left gives the text back, so that different texts are written differently. -/
theorem toHtml_unbroken :
    (∀ report other : Report,
      report.groups.map List.length = other.groups.map List.length →
        brackets report.toHtml = brackets other.toHtml) ∧
    (∀ text, resolveMarkup (escapeMarkup text) = text) ∧
    Function.Injective escapeMarkup := by
  refine ⟨fun report other same => ?_, resolveMarkup_escapeMarkup, ?_⟩
  · rw [brackets_toHtml, brackets_toHtml, same]
  · intro text other written
    rw [← resolveMarkup_escapeMarkup text, written, resolveMarkup_escapeMarkup]

/-- A report of one group whose file is named after a tag and whose snippet ends the block. -/
def hostileReport : Report :=
  ⟨[[⟨"<b>.ts", 0, 16, 1, 1, "</code></pre>&lt;"⟩, ⟨"\"'>", 3, 9, 2, 10, "<script>&"⟩]]⟩

/-- A report of one group with nothing to hide. -/
def plainReport : Report :=
  ⟨[[⟨"a.ts", 0, 1, 1, 1, "a"⟩, ⟨"b.ts", 0, 1, 1, 1, "a"⟩]]⟩

/-- Files and snippets that are full of markup add no bracket to the page. -/
theorem toHtml_unbroken_hostile :
    hostileReport.groups.map List.length = plainReport.groups.map List.length ∧
    brackets hostileReport.toHtml = brackets plainReport.toHtml ∧
    escapeMarkup "</code></pre>&lt;" = "&lt;/code&gt;&lt;/pre&gt;&amp;lt;" ∧
    resolveMarkup "&lt;/code&gt;&lt;/pre&gt;&amp;lt;" = "</code></pre>&lt;" := by
  have sizes : hostileReport.groups.map List.length = plainReport.groups.map List.length := rfl
  have written : escapeMarkup "</code></pre>&lt;" = "&lt;/code&gt;&lt;/pre&gt;&amp;lt;" := by
    decide +kernel
  obtain ⟨unbroken, resolved, -⟩ := toHtml_unbroken
  refine ⟨sizes, unbroken _ _ sizes, written, ?_⟩
  rw [← written]
  exact resolved _

end CodeClones.Report
