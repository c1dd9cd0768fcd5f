import CodeClones.Files.Folder
import CodeClones.Files.IgnoreRule
import CodeClones.Grouping.Location

/-!
# Finding source files

A walk goes through a directory and all directories below it and gives the source files, in the
order of their paths. It leaves out what ignore files say, hidden names unless asked for, and
what the given globs match; a directory that is left out is not entered.

Rules in `.ignore` count before those in `.gitignore`, and these before `.git/info/exclude`;
among files of one name, the one nearest to the path counts first. The latter two count only
inside a repository, and only up to its top. Below the directory where the walk begins, rules
are compared with paths as they are written, which shows when that path has dots in front.
-/

namespace CodeClones

/-- The globs of paths to leave out, and whether hidden names are included. -/
structure WalkOptions where
  /-- Globs of paths to leave out, relative to where the walk begins. -/
  ignore : List Glob
  /-- Whether names that begin with a dot are included. -/
  includeHidden : Bool

/-- The files that paths lead to, each under the name that a root gives it; paths that cannot be
read are left out. -/
def readSources (read : String → Option String) (root : String) (paths : List String) :
    List SourceFile :=
  paths.filterMap fun path =>
    (read path).map fun content => ⟨Path.displayName root path, content⟩

namespace Folder

/-- The text of a place. -/
def textOf (place : Place) : String :=
  Path.ofParts place

/-- The rules of an ignore file, none if there is no such file. -/
def rulesAt (folder : Folder) (place : Place) : List IgnoreRule :=
  match folder.entry? place with
  | some (.file content) => IgnoreRule.ofContent content
  | _ => []

/-! ## Repositories -/

/-- Whether a directory is the top of a repository. -/
def isRepository (folder : Folder) (directory : Place) : Bool :=
  [".git", ".jj"].any fun name => (folder.entry? (directory ++ [name])).isSome

/-- The directory that a repository shares with others, when the file in place of its own
directory names it. That file names a directory, in which another file names the shared one,
beginning with a dot if it is seen from there. -/
def sharedDirectory? (folder : Folder) (content : List UInt8) : Option String := do
  let line ← (Text.wellFormedLines content).head?
  let mark := "gitdir: ".toList
  if mark.isPrefixOf line then
    let linked := String.ofList (line.drop mark.length)
    let place ← folder.resolveHere? (Path.join linked "commondir")
    match folder.entry? place with
    | some (.file content) =>
      let shared ← (Text.wellFormedLines content).head?
      let path := String.ofList shared
      some (if shared.head? = some '.' then Path.join linked path else path)
    | _ => none
  else none

/-- The rules of a repository that are kept outside of its tree. -/
def excludeRules (folder : Folder) (directory : Place) : List IgnoreRule :=
  match folder.entry? (directory ++ [".git"]) with
  | some (.file content) =>
    (((folder.sharedDirectory? content).bind fun shared =>
      folder.resolveHere? (Path.join shared "info/exclude")).map folder.rulesAt).getD []
  | _ => folder.rulesAt (directory ++ [".git", "info", "exclude"])

/-- The directories that contain a place, the nearest first. -/
def above (place : Place) : List Place :=
  (List.range place.length).reverse.map place.take

/-- The nearest directories up to the top of the repository that they belong to; none outside
of repositories. -/
def withinRepository (folder : Folder) (directories : List Place) : List Place :=
  let inside := directories.takeWhile fun directory => !folder.isRepository directory
  match directories.drop inside.length with
  | [] => []
  | top :: _ => inside ++ [top]

/-! ## What is left out -/

/-- Where a walk begins. -/
structure Start where
  /-- The place of the directory. -/
  place : Place
  /-- The path by which it is asked for. -/
  path : String

/-- The path of a place as an ignore file in a directory sees it: from where the walk begins,
paths are taken as they are written. -/
def Start.view (start : Start) (directory place : Place) : String :=
  if directory.length < start.place.length then textOf (place.drop directory.length)
  else
    let written (place : Place) := Path.descend start.path (place.drop start.place.length)
    Path.seenFrom (written directory) (written place)

/-- What the rules that directories give say of a place, the first directory whose rules say
anything deciding. -/
def judgeBy (rules : Place → List IgnoreRule) (directories : List Place) (start : Start)
    (isDirectory : Bool) (place : Place) : Option Verdict :=
  directories.findSome? fun directory =>
    IgnoreRule.judge (rules directory) isDirectory (start.view directory place)

/-- What all ignore files say of a place. -/
def judge (folder : Folder) (start : Start) (isDirectory : Bool) (place : Place) :
    Option Verdict :=
  let directories := above place
  let tracked := folder.withinRepository directories
  let rulesOf (name : String) (directory : Place) := folder.rulesAt (directory ++ [name])
  ((judgeBy (rulesOf ".ignore") directories start isDirectory place).or
    (judgeBy (rulesOf ".gitignore") tracked start isDirectory place)).or
    (judgeBy folder.excludeRules tracked start isDirectory place)

/-- Whether the name at the end of a place begins with a dot and does not end in one. -/
def isHidden (place : Place) : Bool :=
  place.getLast?.any fun name =>
    name.toList.head? == some '.' && name.toList.getLast? != some '.'

/-- Whether a glob of the options matches a place, seen from where the walk begins. -/
def isExcluded (options : WalkOptions) (start : Start) (place : Place) : Bool :=
  options.ignore.any (·.isMatch true (textOf (place.drop start.place.length)))

/-- Whether a walk leaves out what stands at a place: ignore files say so, or they say nothing
and its name is hidden, or a glob matches it. -/
def isLeftOut (folder : Folder) (options : WalkOptions) (start : Start) (isDirectory : Bool)
    (place : Place) : Bool :=
  let judged : Bool := match folder.judge start isDirectory place with
    | some .ignored => true
    | some .kept => false
    | none => !options.includeHidden && isHidden place
  judged || isExcluded options start place

/-- The directories between where a walk begins and a place, both left out. -/
def onTheWay (root place : Place) : List Place :=
  (List.range (place.length - root.length - 1)).map fun steps =>
    place.take (root.length + steps + 1)

/-- Whether a walk reaches a file: neither it nor a directory on the way to it is left out. -/
def reaches (folder : Folder) (options : WalkOptions) (start : Start) (place : Place) : Bool :=
  (onTheWay start.place place).all
      (fun directory => !folder.isLeftOut options start true directory) &&
    !folder.isLeftOut options start false place

/-! ## Walks -/

/-- Whether a place lies below a directory. -/
def isBelow (directory place : Place) : Bool :=
  directory.isPrefixOf place && (place.drop directory.length).head?.any (· != "..")

/-- The files below a place. -/
def filesBelow (folder : Folder) (root : Place) : List (Place × List UInt8) :=
  folder.entries.filterMap fun listed =>
    match listed.2 with
    | .file content => if isBelow root listed.1 then some (listed.1, content) else none
    | .directory => none

/-- The source files that a walk from a directory reaches, in the order of their paths. -/
def walkDirectory (folder : Folder) (options : WalkOptions) (start : Start) :
    List SourceFile :=
  let found := (folder.filesBelow start.place).filter fun file =>
    Path.isSource (textOf file.1) && folder.reaches options start file.1
  let sorted := found.mergeSort fun left right => Path.le (textOf left.1) (textOf right.1)
  sorted.map fun file =>
    ⟨Path.displayName "." (Path.join "." (textOf (file.1.drop start.place.length))),
      Text.decode file.2⟩

/-- The source files that a walk from a path gives. A path that leads to a source file gives
that file alone, under the whole path. -/
def walk (folder : Folder) (options : WalkOptions) (root : String) : List SourceFile :=
  match folder.resolve? root with
  | none => []
  | some place =>
    match folder.entry? place with
    | some (.file content) =>
      if Path.isSource root then [⟨Path.displayName root root, Text.decode content⟩] else []
    | some .directory => folder.walkDirectory options ⟨place, Path.join folder.home root⟩
    | none => []

/-- The files that paths lead to, under their paths; paths that lead to no file are left
out. -/
def readAll (folder : Folder) (paths : List String) : List SourceFile :=
  readSources folder.readText? "." (paths.map (Path.join "."))

end Folder

/-- The options of a walk, or the first glob that is none. -/
def WalkOptions.ofTexts (globs : List String) (includeHidden : Bool) :
    Except String WalkOptions := do
  let ignore ← globs.mapM fun text =>
    match Glob.ofText false text with
    | .ok glob => .ok glob
    | .error _ => .error text
  .ok ⟨ignore, includeHidden⟩

end CodeClones
