import CodeClones.Files.Walk
import CodeClones.Parsing
import CodeClones.Report.Entry
import CodeClones.Settings.Scan

/-!
# Scanning a folder

From a folder to a report: the source files are found and parsed, their clones are found, and
every clone becomes an entry of the report.
-/

namespace CodeClones

open Settings Grouping

/-- What a scan needs from outside: the concrete trees of texts, and the clock that says whether
a number of milliseconds has passed. -/
structure ScanContext where
  /-- The grammar of the texts. -/
  grammar : Grammar
  /-- When a number of milliseconds has passed. -/
  expires : (milliseconds : Nat) → Deadline

/-- The outcome of a scan. -/
structure ScanResult where
  /-- The files that were found. -/
  files : List SourceFile
  /-- How many of them were accepted. -/
  parsed : Nat
  /-- How many nodes were compared. -/
  candidates : Nat
  /-- The clones. -/
  report : Report

/-- What decides which groups are reported. -/
def Settings.ScanSettings.groupingOptions (settings : ScanSettings) (context : ScanContext) :
    GroupingOptions :=
  ⟨settings.threshold, settings.checkNames, settings.timeBudget.map context.expires⟩

/-- Scan a folder from a path on; fails with the first ignored glob that is none. -/
def scan (context : ScanContext) (settings : ScanSettings) (folder : Folder) (root : String) :
    Except String ScanResult := do
  let options ← WalkOptions.ofTexts settings.ignore settings.includeHidden
  let files := folder.walk options root
  let extraction := Extraction.ofFiles context.grammar.parser settings.scope files
  let candidates := extraction.candidates
  let groups := findClones candidates files (settings.groupingOptions context)
  return ⟨files, extraction.files.length, candidates.length, .ofGroups files groups⟩

end CodeClones
