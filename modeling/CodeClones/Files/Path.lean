import CodeClones.Text.Digits
import CodeClones.Text.Lines

/-!
# Paths

A path is a text whose parts are separated by slashes. What it names depends only on its
components: repeated slashes and parts that are a single dot do not count, except for a dot at
the very beginning. Paths are ordered component by component, not character by character.
-/

namespace CodeClones.Path

open CodeClones.Text

/-- One step of a path. -/
inductive Component where
  /-- The slash at the beginning of an absolute path. -/
  | root
  /-- A dot at the beginning of a relative path. -/
  | current
  /-- Two dots. -/
  | parent
  /-- A name. -/
  | named (name : String)
deriving DecidableEq, Repr

/-- The parts of a path between its slashes. -/
def parts (path : String) : List String :=
  (pieces '/' path.toList).map String.ofList

/-- Whether a part of a path is no step of it. -/
def isIdle (part : String) : Bool :=
  part == "" || part == "."

/-- The step that a part of a path makes, if any. -/
def step? (part : String) : Option Component :=
  if isIdle part then none
  else if part = ".." then some .parent
  else some (.named part)

/-- Whether the path begins with a slash. -/
def isAbsolute (path : String) : Bool :=
  path.toList.head? == some '/'

/-- Whether a path can lead to anything: it has no null character and is below 4096 bytes
long. -/
def isUsable (path : String) : Bool :=
  !path.toList.contains (Char.ofNat 0) && size path < 4096

/-- Whether something can be called by a name: the name is at most 255 bytes long. -/
def isName (name : String) : Bool :=
  size name ≤ 255

/-- A part of a path with the component that it makes, if any. -/
abbrev Segment := String × Option Component

/-- The parts of a path, each with the component that it makes. -/
def segments (path : String) : List Segment :=
  match parts path with
  | [] => []
  | first :: others =>
    let lead : Option Component :=
      if isAbsolute path then some .root
      else if first = "." then some .current
      else step? first
    (first, lead) :: others.map fun part => (part, step? part)

/-- The components of a path. -/
def components (path : String) : List Component :=
  (segments path).filterMap (·.2)

/-- Join parts by slashes. -/
def ofParts (parts : List String) : String :=
  "/".intercalate parts

/-- The segments without those at the end that are no step. -/
def withoutIdleEnd (segments : List Segment) : List Segment :=
  (segments.reverse.dropWhile fun segment => segment.2.isNone).reverse

/-- The segments behind the given components. -/
def afterComponents : List Component → List Segment → Option (List Segment)
  | [], segments => some segments
  | _ :: _, [] => none
  | expected :: others, segment :: segments =>
    match segment.2 with
    | none => afterComponents (expected :: others) segments
    | some found => if found = expected then afterComponents others segments else none

/-- The text of the segments that are left of a path. Idle parts at the end are dropped; those
at the front only when a component before them was. -/
def textOf (path : String) (removed : Bool) (left : List Segment) : String :=
  let trimmed := withoutIdleEnd left
  if removed then ofParts ((trimmed.dropWhile fun segment => segment.2.isNone).map (·.1))
  else if trimmed.isEmpty then (if isAbsolute path then "/" else "")
  else if trimmed.length == 1 && isAbsolute path then "/"
  else ofParts (trimmed.map (·.1))

/-- The path relative to a directory, if it lies below it. -/
def relativeTo? (base path : String) : Option String :=
  (afterComponents (components base) (segments path)).map fun left =>
    textOf path (!(components base).isEmpty) left

/-- A text with slashes in the place of backslashes. -/
def withSlashes (text : String) : String :=
  String.ofList (text.toList.map fun character => if character = '\\' then '/' else character)

/-- The name under which a file is shown: its path relative to the root, or the whole path
when there is no such or it is empty. Backslashes are shown as slashes. -/
def displayName (root path : String) : String :=
  withSlashes (((relativeTo? root path).filter fun text => text != "").getD path)

/-- A path below a directory; an absolute path stands for itself. -/
def join (directory path : String) : String :=
  if isAbsolute path || directory == "" then path
  else if directory.toList.getLast? = some '/' then directory ++ path
  else directory ++ "/" ++ path

/-- The path of names below a directory. -/
def descend (directory : String) (names : List String) : String :=
  names.foldl join directory

/-- The characters without the given ones in front, if they begin with them. -/
def withoutStart (start characters : List Char) : List Char :=
  if start.isPrefixOf characters then characters.drop start.length else characters

/-- A path without the dot and the slash that it begins with, if it does. -/
def withoutDot (path : List Char) : List Char :=
  withoutStart ['.', '/'] path

/-- A path below a directory as it is seen from there. Both are compared as they are written,
except for one dot in front of the directory and two in front of the path; a path that does not
begin with the directory, or a directory that is a single dot, leaves the path as it is. -/
def seenFrom (directory path : String) : String :=
  let base := withoutDot directory.toList
  let written := withoutDot (withoutDot path.toList)
  if components (String.ofList base) = [.current] || !written.contains '/' ||
      !base.isPrefixOf written then String.ofList written
  else String.ofList (withoutStart ['/'] (written.drop base.length))

/-- The name that the path ends in. -/
def fileName? (path : String) : Option String :=
  match (components path).getLast? with
  | some (.named name) => some name
  | _ => none

/-- What stands behind the last dot of the name that the path ends in, unless that dot is the
first character of the name. -/
def extension? (path : String) : Option String :=
  match (fileName? path).map fun name => (pieces '.' name.toList).reverse with
  | some (last :: before :: others) =>
    if others.isEmpty && before.isEmpty then none else some (String.ofList last)
  | _ => none

/-- The extension in lower case. -/
def lowerExtension? (path : String) : Option String :=
  (extension? path).map fun extension => String.ofList (lowerAscii extension.toList)

/-- The extensions of the files that are scanned. -/
def sourceExtensions : List String :=
  ["js", "jsx", "ts", "tsx", "mjs", "cjs", "mts", "cts"]

/-- Whether a path has the extension of a scanned file, in either case. -/
def isSource (path : String) : Bool :=
  (lowerExtension? path).any fun extension => sourceExtensions.contains extension

/-- Rank of a component among those at one place of two paths. -/
def Component.rank : Component → Nat
  | .root => 0
  | .current => 1
  | .parent => 2
  | .named _ => 3

/-- Whether the first list of bytes comes before the second or equals it. -/
def bytesLe : List UInt8 → List UInt8 → Bool
  | [], _ => true
  | _ :: _, [] => false
  | left :: lefts, right :: rights =>
    if left = right then bytesLe lefts rights else left < right

/-- Whether the first component comes before the second or equals it; names are ordered by
their bytes. -/
def Component.le : Component → Component → Bool
  | .named left, .named right => bytesLe (bytes left) (bytes right)
  | left, right => left.rank ≤ right.rank

/-- Whether the first list of components comes before the second or equals it. -/
def componentsLe : List Component → List Component → Bool
  | [], _ => true
  | _ :: _, [] => false
  | left :: lefts, right :: rights =>
    if left = right then componentsLe lefts rights else left.le right

/-- Whether the first path comes before the second or names the same. -/
def le (left right : String) : Bool :=
  componentsLe (components left) (components right)

end CodeClones.Path
