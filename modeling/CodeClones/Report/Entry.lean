import CodeClones.Grouping.Location
import CodeClones.Text.Indentation
import CodeClones.Text.Lines

/-!
# Reports

A report shows every location with its lines and a snippet of its text, in the order of the
groups. A location that cannot be found in the files is shown on line zero with no text.
-/

namespace CodeClones

/-- One reported location. -/
structure ReportEntry where
  /-- Name of the file. -/
  file : String
  /-- First byte of the range. -/
  start : Nat
  /-- One past the last byte of the range. -/
  stop : Nat
  /-- First line of the range, counted from one. -/
  startLine : Nat
  /-- Last line of the range, counted from one. -/
  endLine : Nat
  /-- The text of the range without common indentation. -/
  snippet : String
deriving DecidableEq, Repr

/-- The reported groups in order. -/
structure Report where
  /-- The entries of each group. -/
  groups : List (List ReportEntry)
deriving DecidableEq, Repr

/-- A source file with its line index. -/
structure IndexedFile where
  /-- The file. -/
  file : SourceFile
  /-- Where its lines begin. -/
  lines : Text.LineIndex

/-- Index the lines of a file. -/
def IndexedFile.ofFile (file : SourceFile) : IndexedFile :=
  ⟨file, .ofText file.content⟩

/-- The text of a location; empty when there is no file or the range is not a piece of it. -/
def excerpt (file : Option SourceFile) (location : Location) : String :=
  (file.bind fun file => location.textIn? file.content).getD ""

/-- The entry of a location in an indexed file, or in none. -/
def ReportEntry.ofLocation (found : Option IndexedFile) (location : Location) : ReportEntry :=
  let lines := match found with
    | some indexed => indexed.lines.lineRange location.start location.stop
    | none => (0, 0)
  { file := location.file
    start := location.start
    stop := location.stop
    startLine := lines.1
    endLine := lines.2
    snippet := Text.dedent (excerpt (found.map (·.file)) location) }

namespace Report

/-- The report of the groups, with lines and snippets taken from the files. -/
def ofGroups (files : List SourceFile) (groups : List Group) : Report :=
  let indexed := files.map IndexedFile.ofFile
  ⟨groups.map fun group => group.map fun location =>
    .ofLocation (indexed.findRev? fun entry => entry.file.name == location.file) location⟩

/-- Whether there is nothing to report. -/
def isEmpty (report : Report) : Bool :=
  report.groups.isEmpty

/-- Number of reported locations. -/
def locations (report : Report) : Nat :=
  report.groups.flatten.length

end Report

end CodeClones
