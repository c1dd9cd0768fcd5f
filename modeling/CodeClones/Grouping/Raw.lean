import CodeClones.Grouping.Location
import CodeClones.Matching
import Std.Data.HashMap

/-!
# Raw groups

For every candidate, the group of its own location and of all other candidates that are alike
to it. Candidates are compared only within their kind, which a table gives at once. A deadline
may cut the comparison short: it is asked before each chunk of candidates, and from the first
chunk that comes too late every candidate stays alone. `rawGroups` works through the chunks with the
table, `rawGroupsPlain` says of each candidate by itself whether and with what it is grouped.
-/

namespace CodeClones.Grouping

open Syntax

/-- Whether time has run out when the deadline is asked, by the number of the question. -/
abbrev Deadline := Nat → Bool

/-- Number of candidates compared between two questions to the deadline. -/
def chunkSize : Nat := 256

/-- A candidate with its position among all candidates. -/
abbrev Numbered := Candidate × Nat

/-- The candidates of each kind with their positions, ascending. -/
def byKind (candidates : List Numbered) : Std.HashMap Kind (List Numbered) :=
  candidates.foldr
    (fun entry table =>
      table.insert entry.1.node.kind (entry :: table.getD entry.1.node.kind []))
    ∅

/-- The location of a candidate, then those of the peers at other positions that are alike
to it. -/
def groupOf (names : Bool) (peers : List Numbered) (base : Numbered) : Group :=
  Location.ofCandidate base.1 ::
    (peers.filter fun peer => peer.2 != base.2 && base.1.node.alike names peer.1.node).map
      fun peer => Location.ofCandidate peer.1

/-- The group of a candidate that is compared to nothing. -/
def alone (base : Numbered) : Group :=
  [Location.ofCandidate base.1]

/-- The groups of the candidates that are left, chunk by chunk. The deadline is asked before each
chunk; if it is too late, all candidates that are left stay alone. -/
def groupChunks (compare : Numbered → Group) (late : Deadline) (question : Nat) :
    List Numbered → List Group
  | [] => []
  | first :: others =>
    if late question then (first :: others).map alone
    else
      ((first :: others).take chunkSize).map compare ++
        groupChunks compare late (question + 1) ((first :: others).drop chunkSize)
termination_by left => left.length
decreasing_by
  simp only [List.length_drop, List.length_cons, chunkSize]
  omega

/-- How many candidates are compared before time runs out. -/
def compared (deadline : Option Deadline) (count : Nat) : Nat :=
  match deadline with
  | none => count
  | some late =>
    let chunks := (count + chunkSize - 1) / chunkSize
    match (List.range chunks).find? late with
    | some chunk => chunk * chunkSize
    | none => count

/-- One group for each candidate, in the order of the candidates. -/
def rawGroups (names : Bool) (deadline : Option Deadline) (candidates : List Candidate) :
    List Group :=
  let numbered := candidates.zipIdx
  let table := byKind numbered
  let compare := fun base : Numbered => groupOf names (table.getD base.1.node.kind []) base
  match deadline with
  | none => numbered.map compare
  | some late => groupChunks compare late 0 numbered

/-- The same groups, each found by comparing the candidate to all others unless it stands behind
those that are compared in time. -/
def rawGroupsPlain (names : Bool) (deadline : Option Deadline) (candidates : List Candidate) :
    List Group :=
  candidates.zipIdx.map fun base =>
    if base.2 < compared deadline candidates.length then
      groupOf names candidates.zipIdx base
    else [Location.ofCandidate base.1]

end CodeClones.Grouping
