import CodeClones.Proofs.Report.Excerpts
import CodeClones.Proofs.Text.Lines

/-!
# Lines of report entries

A report names the lines of a location and shows its text, and computes the two apart: the lines
by looking up both ends in an index of the file, the snippet by cutting the text of the location
into lines and joining what is left of them. For a location whose text does not end in a line feed
both agree with the file, and so with each other.
-/

namespace CodeClones

open Text

namespace ReportEntry

/-- The location that is reported. -/
def location (entry : ReportEntry) : Location :=
  ⟨entry.file, entry.start, entry.stop⟩

/-- The lines of the entry are those of its ends in the text of the file, and its snippet has as
many lines as they say. -/
structure Agrees (content : String) (entry : ReportEntry) : Prop where
  /-- The first line is behind the line feeds before the location. -/
  startLine_eq : entry.startLine = feedsBefore content entry.start + 1
  /-- The last line is behind the line feeds before the last byte of the location. -/
  endLine_eq : entry.endLine = feedsBefore content (entry.stop - 1) + 1
  /-- Lines are counted from one. -/
  one_le_startLine : 1 ≤ entry.startLine
  /-- The lines are in order. -/
  startLine_le_endLine : entry.startLine ≤ entry.endLine
  /-- The last line is a line of the file. -/
  endLine_le_lineCount : entry.endLine ≤ (LineIndex.ofText content).lineCount
  /-- The snippet has a line feed between every two of its lines. -/
  count_snippet : entry.snippet.toList.count '\n' = entry.endLine - entry.startLine

variable {content text : String} {start stop : Nat}

/-- A slice of at least one byte is not empty, and the text has bytes as well. -/
theorem nonempty_of_slice? (filled : start < stop)
    (sliced : slice? content start stop = some text) :
    text.toList ≠ [] ∧ Text.size content ≠ 0 := by
  obtain ⟨front, back, rfl, rfl, total⟩ := slice?_eq_some_iff.mp sliced
  have positive : Text.size text ≠ 0 := by omega
  refine ⟨?_, ?_⟩
  · intro nothing
    rw [String.toList_eq_nil_iff.mp nothing] at positive
    exact positive rfl
  · rw [size_append, size_append]
    omega

/-- The line feeds before the last byte of a slice are those before the slice and its own, if it
does not end in one. -/
theorem feedsBefore_pred_stop (filled : start < stop)
    (sliced : slice? content start stop = some text)
    (unended : text.toList.getLast? ≠ some '\n') :
    feedsBefore content (stop - 1) = feedsBefore content start + text.toList.count '\n' := by
  obtain ⟨nonempty, -⟩ := nonempty_of_slice? filled sliced
  obtain ⟨front, back, rfl, rfl, rfl⟩ := slice?_eq_some_iff.mp sliced
  have whole : (front ++ text).toList.getLast? ≠ some '\n' := by
    rw [String.toList_append, List.getLast?_append_of_ne_nil _ nonempty]
    exact unended
  rw [← size_append, feedsBefore_pred_size whole, String.append_assoc, feedsBefore_append,
    String.toList_append, List.count_append]

/-- The entry of a location in a file agrees with the text of the file if the text of the location
does not end in a line feed. -/
theorem agrees_ofLocation {file : SourceFile} {location : Location}
    (filled : location.start < location.stop)
    (sliced : location.textIn? file.content = some text)
    (unended : text.toList.getLast? ≠ some '\n') :
    (ofLocation (some (.ofFile file)) location).Agrees file.content := by
  obtain ⟨nonempty, filledFile⟩ := nonempty_of_slice? filled sliced
  have startLine : (ofLocation (some (.ofFile file)) location).startLine =
      feedsBefore file.content location.start + 1 :=
    LineIndex.lineOf_ofText filledFile location.start
  have endLine : (ofLocation (some (.ofFile file)) location).endLine =
      feedsBefore file.content (location.stop - 1) + 1 :=
    (if_pos filled).trans (LineIndex.lineOf_ofText filledFile (location.stop - 1))
  have snippet : (ofLocation (some (.ofFile file)) location).snippet = dedent text := by
    change dedent ((location.textIn? file.content).getD "") = dedent text
    rw [sliced, Option.getD_some]
  have between := feedsBefore_pred_stop filled sliced unended
  refine ⟨startLine, endLine, ?_, ?_, ?_, ?_⟩
  · omega
  · omega
  · have last := LineIndex.feedsBefore_lt_lineCount filledFile (location.stop - 1)
    omega
  · rw [snippet, count_dedent nonempty unended]
    omega

end ReportEntry

/-- A report keeps the groups and what locates their members, and every entry of a known file whose
text does not end in a line feed agrees with the file. -/
theorem Report.ofGroups_agrees (files : List SourceFile) (groups : List Group)
    (distinct : (files.map (·.name)).Nodup) :
    (ofGroups files groups).groups.map (·.map ReportEntry.location) = groups ∧
    ∀ entries ∈ (ofGroups files groups).groups, ∀ entry ∈ entries, ∀ file ∈ files,
      entry.file = file.name → entry.start < entry.stop →
      ∀ text, slice? file.content entry.start entry.stop = some text →
        text.toList.getLast? ≠ some '\n' → entry.Agrees file.content := by
  refine ⟨?_, ?_⟩
  · simp [ofGroups, Function.comp_def, ReportEntry.location, ReportEntry.ofLocation]
  · intro entries inReport entry inGroup file given named filled text sliced unended
    obtain ⟨group, -, rfl⟩ := List.mem_map.mp inReport
    obtain ⟨location, -, rfl⟩ := List.mem_map.mp inGroup
    have known : fileNamed? files location.file = some file := by
      rw [show location.file = file.name from named, fileNamed?_eq_some distinct given]
    rw [findRev?_indexed, known] at filled sliced ⊢
    exact ReportEntry.agrees_ofLocation filled sliced unended

/-- A file with indented code behind a character of two bytes, in which one of the lines is blank and
one ends in a carriage return. -/
def indentedFile : SourceFile :=
  ⟨"a.ts", "é;\n  if (x) \x7b\r\n    y;\n\n  \x7d\n"⟩

/-- The entry of a location on the lines two to five agrees with its file. -/
theorem Report.ofGroups_agrees_indentedFile :
    ([indentedFile].map (·.name)).Nodup ∧
    (ofGroups [indentedFile] [[⟨"a.ts", 6, 27⟩]]).groups =
      [[⟨"a.ts", 6, 27, 2, 5, "if (x) \x7b\n  y;\n\n\x7d"⟩]] ∧
    ∀ entries ∈ (ofGroups [indentedFile] [[⟨"a.ts", 6, 27⟩]]).groups, ∀ entry ∈ entries,
      entry.Agrees indentedFile.content := by
  have distinct : ([indentedFile].map (·.name)).Nodup := by decide
  have sliced : slice? indentedFile.content 6 27 =
      some "if (x) \x7b\r\n    y;\n\n  \x7d" := by decide +kernel
  refine ⟨distinct, by decide +kernel, fun entries inReport entry inGroup => ?_⟩
  obtain rfl := List.mem_singleton.mp inReport
  obtain rfl := List.mem_singleton.mp inGroup
  exact (ofGroups_agrees [indentedFile] [[⟨"a.ts", 6, 27⟩]] distinct).2 _ List.mem_cons_self _
    List.mem_cons_self indentedFile List.mem_cons_self rfl (by decide) _ sliced (by decide)

end CodeClones
