import CodeClones.Grouping.Location
import Std.Data.HashMap
import Std.Data.HashSet

/-!
# Reduction of groups

Raw groups repeat themselves: a location may occur twice in a group, and every member of a
clone has a group of its own. `distinct` keeps the first of equal locations. `eliminate` drops a
group when all members of some group kept before it are among its own; `eliminatePlain` states
that rule by itself, while `eliminate` finds the earlier group through its first member.
-/

namespace CodeClones.Grouping

/-- Keep the locations that have not been seen before. -/
def distinctFrom (seen : Std.HashSet Location) : Group → Group
  | [] => []
  | location :: others =>
    if seen.contains location then distinctFrom seen others
    else location :: distinctFrom (seen.insert location) others

/-- Keep the first of equal locations. -/
def distinct (group : Group) : Group :=
  distinctFrom ∅ group

/-- Whether all members of the first group are among those of the second. -/
def within (part whole : Group) : Bool :=
  part.all fun location => whole.contains location

/-- Keep, in order, each group that contains no whole group among those kept so far. -/
def eliminatePlainOnto (kept : List Group) : List Group → List Group
  | [] => kept
  | group :: others =>
    if kept.any fun earlier => within earlier group then eliminatePlainOnto kept others
    else eliminatePlainOnto (kept ++ [group]) others

/-- Keep, in order, each group that contains no whole group kept before it. -/
def eliminatePlain (groups : List Group) : List Group :=
  eliminatePlainOnto [] groups

/-- The groups kept so far by their first member. -/
abbrev FirstMembers := Std.HashMap Location (List Group)

/-- Whether some group kept so far, found through its first member, lies within the group. -/
def covered (kept : FirstMembers) (group : Group) : Bool :=
  let members := Std.HashSet.ofList group
  group.any fun location =>
    (kept.getD location []).any fun earlier =>
      earlier.all fun member => members.contains member

/-- Note a kept group under its first member. -/
def note (kept : FirstMembers) (group : Group) : FirstMembers :=
  match group with
  | [] => kept
  | first :: _ => kept.insert first (group :: kept.getD first [])

/-- Keep, in order, each group that is not covered by those kept so far. -/
def eliminateFrom (kept : FirstMembers) : List Group → List Group
  | [] => []
  | group :: others =>
    if covered kept group then eliminateFrom kept others
    else group :: eliminateFrom (note kept group) others

/-- Keep, in order, each group that contains no whole group kept before it. -/
def eliminate (groups : List Group) : List Group :=
  eliminateFrom ∅ groups

/-- Keep the groups whose base is at least as long as the threshold. -/
def longEnough (threshold : Nat) (groups : List Group) : List Group :=
  groups.filter fun group => group.head?.any fun base => threshold ≤ base.length

end CodeClones.Grouping
