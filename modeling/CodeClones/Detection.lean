import CodeClones.Grouping.Adjacency
import CodeClones.Grouping.Raw
import CodeClones.Grouping.Reduction

/-!
# Finding clones

From source files to reported groups. A parser turns the text of a file into a program or
refuses it; a refused file contributes no candidates. Some parsers report positions behind a
prologue of their own, whose length shows in the end of the empty program, so that length is
taken off every span. The candidates are grouped, the groups reduced, adjacent groups merged,
and groups with a short base dropped.
-/

namespace CodeClones

open Syntax Grouping

/-- Turns the text of a named file into a program, or refuses it. -/
abbrev Parser := (name source : String) → Option Program

/-- Length of the prologue that a parser puts before every text; none if it refuses the empty
text. -/
def Parser.prologue (parser : Parser) : Nat :=
  match parser "" "" with
  | some program => program.span.stop
  | none => 0

/-- A file whose text was accepted. -/
structure ParsedFile where
  /-- Name of the file. -/
  name : String
  /-- Its program. -/
  program : Program

/-- The accepted files of a run, and how their candidates are collected. -/
structure Extraction where
  /-- The accepted files, in the order of the input. -/
  files : List ParsedFile
  /-- Length of the parser's prologue. -/
  offset : Nat
  /-- Which nodes are collected. -/
  scope : Scope

/-- Parse all files, leaving out those that are refused. -/
def Extraction.ofFiles (parser : Parser) (scope : Scope) (files : List SourceFile) :
    Extraction where
  files := files.filterMap fun file => (parser file.name file.content).map (⟨file.name, ·⟩)
  offset := parser.prologue
  scope := scope

/-- The candidates of all accepted files, file by file. -/
def Extraction.candidates (extraction : Extraction) : List Candidate :=
  extraction.files.flatMap fun file =>
    Candidate.collect file.name extraction.offset extraction.scope file.program.body

/-- What decides which groups are reported. -/
structure GroupingOptions where
  /-- Least length of the base of a reported group. -/
  threshold : Nat
  /-- Whether names are checked. -/
  names : Bool
  /-- When to stop comparing, if ever. -/
  deadline : Option Deadline

/-- Least length of the base of a reported group unless something else is asked for. -/
def defaultThreshold : Nat := 100

/-- The options for a threshold: names are not checked, and time never runs out. -/
def GroupingOptions.ofThreshold (threshold : Nat) : GroupingOptions :=
  ⟨threshold, false, none⟩

/-- The groups before neighbours are merged: one for each clone. -/
def cloneGroups (candidates : List Candidate) (options : GroupingOptions) : List Group :=
  eliminate (((rawGroups options.names options.deadline candidates).map distinct).filter
    fun group => 1 < group.length)

/-- The groups that are reported for the candidates of the files. -/
def findClones (candidates : List Candidate) (files : List SourceFile)
    (options : GroupingOptions) : List Group :=
  longEnough options.threshold (mergeAdjacent (contentOf? files) (cloneGroups candidates options))

end CodeClones
