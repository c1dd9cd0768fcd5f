import CodeClones.Files.Glob
import CodeClones.Text.Decoding
import CodeClones.Text.Whitespace

/-!
# Ignore rules

An ignore file holds one rule on a line. A rule says of the paths it covers that they are
ignored or, behind an exclamation mark, that they are kept; of several rules that cover a path
the last one counts. A rule with a slash inside or in front is tied to the place of the ignore
file, any other rule covers names at every depth below it, and a rule with a slash at its end
covers only directories.
-/

namespace CodeClones

/-- What an ignore file says of a path. -/
inductive Verdict where
  /-- The path is left out. -/
  | ignored
  /-- The path is not left out. -/
  | kept
deriving DecidableEq, Repr

/-- One rule of an ignore file. -/
structure IgnoreRule where
  /-- The paths that the rule covers, from the directory of the ignore file on. -/
  glob : Glob
  /-- What the rule says of them. -/
  verdict : Verdict
  /-- Whether the rule covers only directories. -/
  onlyDirectories : Bool

namespace IgnoreRule

/-- A line without whitespace at its end, unless a backslash protects the last blank. -/
def withoutTrailingSpaces (line : List Char) : List Char :=
  if [' ', '\\'].isPrefixOf line.reverse then line else Text.trimEnd line

/-- A pattern without the slash that restricts it to directories, and whether there was one; a
backslash before that slash goes with it. -/
def withoutFinalSlash (pattern : List Char) : List Char × Bool :=
  match pattern.reverse with
  | '/' :: '\\' :: others => (others.reverse, true)
  | '/' :: others => (others.reverse, true)
  | _ => (pattern, false)

/-- The glob of a pattern: a pattern that is not tied to a place covers names at every depth,
and everything below a directory does not include the directory. -/
def globText (anchored : Bool) (pattern : List Char) : List Char :=
  let placed :=
    if anchored || pattern.contains '/' || pattern == ['*', '*'] then pattern
    else '*' :: '*' :: '/' :: pattern
  if ['*', '*', '/'].isPrefixOf placed.reverse then placed ++ ['/', '*'] else placed

/-- The rule of a pattern in front of which no mark is left. -/
def ofPattern? (verdict : Verdict) (anchored : Bool) (pattern : List Char) :
    Option IgnoreRule :=
  let (pattern, onlyDirectories) := withoutFinalSlash pattern
  match Glob.ofText true (String.ofList (globText anchored pattern)) with
  | .ok glob => some ⟨glob, verdict, onlyDirectories⟩
  | .error _ => none

/-- The rule behind the exclamation mark, if there is one; a slash in front ties it to its
place. -/
def ofMarked? (verdict : Verdict) : List Char → Option IgnoreRule
  | '/' :: pattern => ofPattern? verdict true pattern
  | pattern => ofPattern? verdict false pattern

/-- The rule on a line. Comments, empty lines and lines that are no glob hold none. -/
def ofLine? (line : List Char) : Option IgnoreRule :=
  if line.head? = some '#' then none
  else
    match withoutTrailingSpaces line with
    | [] => none
    | '\\' :: '!' :: pattern => ofPattern? .ignored false ('!' :: pattern)
    | '\\' :: '#' :: pattern => ofPattern? .ignored false ('#' :: pattern)
    | '!' :: pattern => ofMarked? .kept pattern
    | pattern => ofMarked? .ignored pattern

/-- Whether the rule covers a path. -/
def covers (rule : IgnoreRule) (isDirectory : Bool) (path : String) : Bool :=
  (!rule.onlyDirectories || isDirectory) && rule.glob.isMatch false path

/-- The rules of an ignore file. A byte order mark in front does not count, and a line that is
ill-formed ends the file. -/
def ofContent (content : List UInt8) : List IgnoreRule :=
  match Text.wellFormedLines content with
  | [] => []
  | first :: others =>
    (first.dropWhile (· == Char.ofNat 0xFEFF) :: others).filterMap ofLine?

/-- What rules say of a path: the last one that covers it decides. -/
def judge (rules : List IgnoreRule) (isDirectory : Bool) (path : String) : Option Verdict :=
  (rules.reverse.find? (·.covers isDirectory path)).map (·.verdict)

end IgnoreRule

end CodeClones
