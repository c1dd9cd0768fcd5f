import CodeClones.Files.Path
import CodeClones.Text.Decoding

/-!
# Folders

The files and directories below one directory, as a value. Every entry is listed with the names
on the way to it; a directory is there if it is listed or something below it is. Paths given as
text are followed name by name. A path may lead above the directory, where two dots stand for
each step up and nothing is known but what was written there.
-/

namespace CodeClones

/-- What a path leads to. -/
inductive Entry where
  /-- A file with its bytes. -/
  | file (content : List UInt8)
  /-- A directory. -/
  | directory
deriving DecidableEq, Repr

/-- The names on the way from a directory to an entry below it. -/
abbrev Place := List String

/-- Everything below a directory. -/
structure Folder where
  /-- The entries, each with its place; a place is listed once. -/
  entries : List (Place × Entry)
  /-- The path of the directory; empty for the working directory. -/
  home : String := ""

namespace Folder

/-- Whether a place is the directory itself or one that contains it. -/
def isTop (place : Place) : Bool :=
  place.all (· == "..")

/-- The directory that contains a place. -/
def containing (place : Place) : Place :=
  if isTop place then place ++ [".."] else place.dropLast

/-- What stands at a place. -/
def entry? (folder : Folder) (place : Place) : Option Entry :=
  match folder.entries.lookup place with
  | some entry => some entry
  | none =>
    if isTop place || folder.entries.any (fun listed => place.isPrefixOf listed.1) then
      some .directory
    else none

/-- Whether a directory stands at a place. -/
def isDirectory (folder : Folder) (place : Place) : Bool :=
  folder.entry? place == some .directory

/-- Follow the parts of a path from a place. Every step starts at a directory. What the path
leads to need not exist. -/
def follow (folder : Folder) (place : Place) : List String → Option Place
  | [] => some place
  | part :: others =>
    if folder.isDirectory place then
      if Path.isIdle part then folder.follow place others
      else if part = ".." then folder.follow (containing place) others
      else folder.follow (place ++ [part]) others
    else none

/-- The place that a path leads to. -/
def resolve? (folder : Folder) (path : String) : Option Place :=
  if Path.isAbsolute path || !Path.isUsable path then none
  else folder.follow [] (Path.parts path)

/-- What a path leads to. -/
def find? (folder : Folder) (path : String) : Option Entry :=
  (folder.resolve? path).bind folder.entry?

/-- Whether a path leads to something. -/
def exists? (folder : Folder) (path : String) : Bool :=
  (folder.find? path).isSome

/-- The bytes of the file that a path leads to. -/
def readBytes? (folder : Folder) (path : String) : Option (List UInt8) :=
  match folder.find? path with
  | some (.file content) => some content
  | _ => none

/-- The text of the file that a path leads to. -/
def readText? (folder : Folder) (path : String) : Option String :=
  (folder.readBytes? path).map Text.decode

/-- The place that a path leads to from the working directory, if the folder knows it. -/
def resolveHere? (folder : Folder) (path : String) : Option Place :=
  if folder.home = "" then folder.resolve? path else none

/-- Put an entry at a place, instead of what stood there. -/
def put (folder : Folder) (place : Place) (entry : Entry) : Folder :=
  if (folder.entries.lookup place).isSome then
    { folder with
      entries := folder.entries.map fun listed =>
        if listed.1 = place then (place, entry) else listed }
  else { folder with entries := folder.entries ++ [(place, entry)] }

/-- Write a file; none when its directory is missing or a directory is in its place. -/
def write? (folder : Folder) (path content : String) : Option Folder :=
  match folder.resolve? path with
  | some place =>
    if folder.isDirectory place then none
    else some (folder.put place (.file (Text.bytes content)))
  | none => none

/-- Follow the parts of a path, creating the directories that are missing. Fails when a file is
in the way or a name is too long; directories created before that stay. -/
def createFrom (folder : Folder) (place : Place) : List String → Except Folder Folder
  | [] => .ok folder
  | part :: others =>
    if Path.isIdle part then folder.createFrom place others
    else if part = ".." then folder.createFrom (containing place) others
    else
      match folder.entry? (place ++ [part]) with
      | some (.file _) => .error folder
      | some .directory => folder.createFrom (place ++ [part]) others
      | none =>
        if Path.isName part then
          (folder.put (place ++ [part]) .directory).createFrom (place ++ [part]) others
        else .error folder

/-- Create a directory with all directories on the way to it; fails with what was created. -/
def createDirectories (folder : Folder) (path : String) : Except Folder Folder :=
  if Path.isAbsolute path || !Path.isUsable path then .error folder
  else folder.createFrom [] (Path.parts path)

/-- Put together the folder of a path from the paths of its entries. -/
def ofList (home : String) (entries : List (String × Entry)) : Folder :=
  entries.foldl (fun folder entry => folder.put (Path.parts entry.1) entry.2) ⟨[], home⟩

end Folder

end CodeClones
