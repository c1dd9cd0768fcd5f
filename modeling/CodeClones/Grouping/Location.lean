import CodeClones.Candidates
import CodeClones.Text.Bytes

/-!
# Locations and source files

A location is a range of bytes of a named file. A group is a list of locations that are
reported as clones of each other; its first member is the base. Where two files share a name,
the later one counts.
-/

namespace CodeClones

/-- A file held in memory. -/
structure SourceFile where
  /-- The name under which locations refer to the file. -/
  name : String
  /-- The whole text of the file. -/
  content : String
deriving DecidableEq, Repr

/-- A range of bytes of a file. -/
structure Location where
  /-- Name of the file. -/
  file : String
  /-- First byte of the range. -/
  start : Nat
  /-- One past the last byte of the range. -/
  stop : Nat
deriving DecidableEq, Repr, Hashable

/-- Locations reported as clones of each other, the base first. -/
abbrev Group := List Location

namespace Location

/-- Number of bytes of the range; none for an inverted one. -/
def length (location : Location) : Nat :=
  location.stop - location.start

/-- Whether the range holds no byte. -/
def isEmpty (location : Location) : Bool :=
  location.length == 0

/-- Where a candidate stands. -/
def ofCandidate (candidate : Candidate) : Location :=
  ⟨candidate.file, candidate.span.start, candidate.span.stop⟩

/-- The smallest location around two of the same file. -/
def hull (first second : Location) : Location :=
  ⟨first.file, min first.start second.start, max first.stop second.stop⟩

/-- The text at the location; none when the range is inverted, ends outside the text or splits
a character. -/
def textIn? (location : Location) (content : String) : Option String :=
  Text.slice? content location.start location.stop

end Location

/-- The last file of a name. -/
def fileNamed? (files : List SourceFile) (name : String) : Option SourceFile :=
  files.findRev? fun file => file.name == name

/-- The text of the last file of a name. -/
def contentOf? (files : List SourceFile) (name : String) : Option String :=
  (fileNamed? files name).map (·.content)

end CodeClones
