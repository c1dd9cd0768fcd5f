import CodeClones.Grouping.Location
import CodeClones.Text.Whitespace
import Std.Data.HashMap

/-!
# Adjacent groups

A location is adjacent to another of the same file that begins where it ends, or later with
only whitespace in between. A group is adjacent to another when each of its members is adjacent
to some member of the other. Merging joins the first adjacent pair of groups member by member,
puts the result at the end, and starts over until no pair is left; every round leaves one group
fewer. `firstPair` finds the pair through a table of where members start, `firstPairPlain` by
trying all pairs.
-/

namespace CodeClones.Grouping

/-- Finds the text of a file by its name. -/
abbrev Contents := String → Option String

/-- Whether the second location follows the first with only whitespace in between. -/
def adjacent (contents : Contents) (first second : Location) : Bool :=
  first.file == second.file && first.stop ≤ second.start &&
    ((contents first.file).bind fun content =>
      Text.slice? content first.stop second.start).any fun gap => gap.toList.all Text.isGapSpace

/-- Whether each member of the first group is adjacent to some member of the second. -/
def groupsAdjacent (contents : Contents) (first second : Group) : Bool :=
  first.all fun member => second.any fun other => adjacent contents member other

/-- Each member of the first group joined with the first member of the second that it is
adjacent to. -/
def mergeGroups (contents : Contents) (first second : Group) : Group :=
  first.map fun member =>
    match second.find? fun other => adjacent contents member other with
    | some other => member.hull other
    | none => member

/-- The first pair of different positions, in lexicographic order, whose groups are adjacent,
found by trying all pairs. -/
def firstPairPlain (contents : Contents) (groups : List Group) : Option (Nat × Nat) :=
  groups.zipIdx.findSome? fun (group, position) =>
    (groups.zipIdx.find? fun (other, place) =>
      place != position && groupsAdjacent contents group other).map fun (_, place) =>
        (position, place)

/-- A member of a group as the table of starts holds it. -/
structure Start where
  /-- Where the member starts. -/
  offset : Nat
  /-- Position of the group that holds it. -/
  owner : Nat

/-- Where members start, by file; the members of a file are listed group by group. -/
abbrev StartTable := Std.HashMap String (List Start)

/-- The starts of all members of all groups. -/
def startTable (groups : List Group) : StartTable :=
  groups.zipIdx.foldr
    (fun (group, position) table =>
      group.foldr
        (fun member table =>
          table.insert member.file (⟨member.start, position⟩ :: table.getD member.file []))
        table)
    ∅

/-- Number of bytes of whitespace at the front of a text. -/
def gapSize (text : String) : Nat :=
  Text.size (String.ofList (text.toList.takeWhile Text.isGapSpace))

/-- The positions of the groups that hold a member starting at the end of the location or in
the whitespace after it, ascending, with repetitions. -/
def followers (contents : Contents) (table : StartTable) (member : Location) : List Nat :=
  match (contents member.file).bind fun content => Text.suffix? content member.stop with
  | none => []
  | some rest =>
    let last := member.stop + gapSize rest
    ((table.getD member.file []).filter fun start =>
      member.stop ≤ start.offset && start.offset ≤ last).map (·.owner)

/-- The positions that follow every member of a group; none for the empty group. -/
def commonFollowers (contents : Contents) (table : StartTable) : Group → List Nat
  | [] => []
  | [member] => followers contents table member
  | member :: others =>
    let rest := commonFollowers contents table others
    if rest.isEmpty then []
    else (followers contents table member).filter fun position => rest.contains position

/-- The first pair of different positions, in lexicographic order, such that the second group
follows every member of the first. -/
def firstPair (contents : Contents) (groups : List Group) : Option (Nat × Nat) :=
  let table := startTable groups
  groups.zipIdx.findSome? fun (group, position) =>
    ((commonFollowers contents table group).find? (· != position)).map fun place =>
      (position, place)

/-- Replace two groups by their merger, which goes to the end. -/
def joinPair (contents : Contents) (groups : List Group) (first second : Nat) : List Group :=
  let merged := mergeGroups contents (groups.getD first []) (groups.getD second [])
  (groups.eraseIdx (max first second)).eraseIdx (min first second) ++ [merged]

/-- Join pairs of groups as long as there is one, for a number of rounds. -/
def mergeRounds (contents : Contents)
    (find : List Group → Option (Nat × Nat)) : Nat → List Group → List Group
  | 0, groups => groups
  | rounds + 1, groups =>
    match find groups with
    | none => groups
    | some (first, second) =>
      mergeRounds contents find rounds (joinPair contents groups first second)

/-- Join adjacent groups until no pair is left. -/
def mergeAdjacent (contents : Contents) (groups : List Group) : List Group :=
  mergeRounds contents (firstPair contents) groups.length groups

/-- The same, finding each pair by trying all of them. -/
def mergeAdjacentPlain (contents : Contents) (groups : List Group) : List Group :=
  mergeRounds contents (firstPairPlain contents) groups.length groups

end CodeClones.Grouping
