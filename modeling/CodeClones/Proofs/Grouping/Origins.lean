import CodeClones.Proofs.Grouping.Adjacency
import Mathlib.Data.List.Forall2
import Mathlib.Data.List.Perm.Basic

/-!
# Where merged groups come from

Merging takes two groups out of the list and puts one in, and what it puts in may be merged again
on either side. Through all rounds, every group is built from a sequence of groups of the input:
it has the members of the first one in their order, each prolonged by a member of every other,
one behind the other with only whitespace in between. No group of the input is used twice or
forgotten: the sequences of all groups together rearrange the input.
-/

namespace CodeClones.Grouping

variable {contents : Contents}

/-! ## Groups built from sequences -/

/-- The location begins with the base and goes on with one member of each of the other groups,
with only whitespace in between; it is the hull of all these members. -/
def Prolongs (contents : Contents) (others : List Group) (location base : Location) : Prop :=
  ∃ row : List Location, List.Forall₂ (fun piece group => piece ∈ group) row others ∧
    MadeOf contents location (base :: row) ∧ location = row.foldl Location.hull base

/-- The group is built from a sequence of groups: it has as many members as the first of them,
and each begins with the member at the same place there and goes on through all others. -/
def BuiltFrom (contents : Contents) (group : Group) (sequence : List Group) : Prop :=
  ∃ first others, sequence = first :: others ∧
    List.Forall₂ (Prolongs contents others) group first

/-- Every group is built from itself alone. -/
theorem builtFrom_singleton (group : Group) : BuiltFrom contents group [group] := by
  refine ⟨group, [], rfl, List.forall₂_same.mpr fun member _ => ?_⟩
  exact ⟨[], List.Forall₂.nil, madeOf_singleton member, rfl⟩

/-- Hulls may be taken piece by piece. -/
theorem hull_foldl (first second : Location) (row : List Location) :
    first.hull (row.foldl Location.hull second) = row.foldl Location.hull (first.hull second) := by
  induction row generalizing second with
  | nil => rfl
  | cons piece others ih =>
    have assoc : first.hull (second.hull piece) = (first.hull second).hull piece := by
      simp only [Location.hull, Nat.min_assoc, Nat.max_assoc]
    rw [List.foldl_cons, ih, assoc, List.foldl_cons]

/-- A location and one that it is adjacent to go on, one behind the other, through both
sequences. -/
theorem Prolongs.hull {others others' : List Group} {first : Group}
    {location location' base base' : Location} (front : Prolongs contents others location base)
    (back : Prolongs contents others' location' base') (inside : base' ∈ first)
    (fits : FitsIn contents location) (fits' : FitsIn contents location')
    (near : adjacent contents location location' = true) :
    Prolongs contents (others ++ first :: others') (location.hull location') base := by
  obtain ⟨row, pieces, made, whole⟩ := front
  obtain ⟨row', pieces', made', whole'⟩ := back
  refine ⟨row ++ base' :: row', ?_, ?_, ?_⟩
  · exact List.rel_append pieces (List.Forall₂.cons inside pieces')
  · exact made.hull made' fits.ordered fits'.ordered near
  · rw [whole', hull_foldl, whole, List.foldl_append, List.foldl_cons]

/-- Of two lists that are related one by one, each position of the first has its counterpart in
the second. -/
theorem exists_beside {α β : Type} {related : α → β → Prop} {left : List α} {right : List β}
    {position : Nat} {value : α} (lists : List.Forall₂ related left right)
    (held : left[position]? = some value) :
    ∃ other, right[position]? = some other ∧ related value other := by
  obtain ⟨bound, rfl⟩ := List.getElem?_eq_some_iff.mp held
  obtain ⟨sizes, each⟩ := List.forall₂_iff_get.mp lists
  have bound' : position < right.length := sizes ▸ bound
  exact ⟨right[position], List.getElem?_eq_getElem bound', each position bound bound'⟩

/-- The merger of two adjacent groups is built from both sequences, one behind the other. -/
theorem BuiltFrom.merge {sequence sequence' : List Group} {group other : Group}
    (front : BuiltFrom contents group sequence) (back : BuiltFrom contents other sequence')
    (fits : ∀ member ∈ group, FitsIn contents member)
    (fits' : ∀ member ∈ other, FitsIn contents member)
    (next : groupsAdjacent contents group other = true) :
    BuiltFrom contents (mergeGroups contents group other) (sequence ++ sequence') := by
  obtain ⟨first, others, rfl, members⟩ := front
  obtain ⟨first', others', rfl, members'⟩ := back
  refine ⟨first, others ++ first' :: others', rfl, ?_⟩
  rw [mergeGroups_eq_map_hull, List.forall₂_map_left_iff]
  -- Each member is joined with its partner, which prolongs a member of the other first group.
  refine ((List.forall₂_and_left group first).mpr ⟨fun _ => id, members⟩).imp ?_
  rintro member base ⟨inside, prolongs⟩
  obtain ⟨held, near⟩ := partner_spec next inside
  obtain ⟨place, isPartner⟩ := List.mem_iff_getElem?.mp held
  obtain ⟨base', isBase, prolongs'⟩ := exists_beside members' isPartner
  have inFirst : base' ∈ first' := List.mem_of_getElem? isBase
  exact prolongs.hull prolongs' inFirst (fits member inside) (fits' _ held) near

/-! ## The sequences of all groups -/

/-- What stands at two different positions of a list, put in front of all else, rearranges the
list. -/
theorem cons_cons_eraseIdx_perm {α : Type} {list : List α} {value value' : α} {first second : Nat}
    (apart : first ≠ second) (held : list[first]? = some value)
    (held' : list[second]? = some value') :
    (value :: value' :: (list.eraseIdx (max first second)).eraseIdx (min first second)).Perm
      list := by
  -- The later of the two positions is taken out first, which leaves the earlier one in place.
  have taken : ∀ {early late : Nat} {before behind : α}, early < late →
      list[early]? = some before → list[late]? = some behind →
      (behind :: before :: (list.eraseIdx late).eraseIdx early).Perm list := by
    intro early late before behind below atEarly atLate
    have still : (list.eraseIdx late)[early]? = some before := by
      rw [List.getElem?_eraseIdx_of_lt below, atEarly]
    obtain ⟨bound, rfl⟩ := List.getElem?_eq_some_iff.mp atLate
    obtain ⟨bound', rfl⟩ := List.getElem?_eq_some_iff.mp still
    exact ((List.getElem_cons_eraseIdx_perm bound').cons _).trans
      (List.getElem_cons_eraseIdx_perm bound)
  rcases Nat.lt_or_gt_of_ne apart with below | above
  · rw [Nat.max_eq_right (Nat.le_of_lt below), Nat.min_eq_left (Nat.le_of_lt below)]
    exact (List.Perm.swap value' value _).trans (taken below held held')
  · rw [Nat.max_eq_left (Nat.le_of_lt above), Nat.min_eq_right (Nat.le_of_lt above)]
    exact taken above held' held

/-- Lists stay related one by one when the same position is taken out of both. -/
theorem forall₂_eraseIdx {α β : Type} {related : α → β → Prop} {left : List α} {right : List β}
    (lists : List.Forall₂ related left right) (position : Nat) :
    List.Forall₂ related (left.eraseIdx position) (right.eraseIdx position) := by
  rw [List.eraseIdx_eq_take_drop_succ, List.eraseIdx_eq_take_drop_succ]
  exact List.rel_append (List.forall₂_take position lists) (List.forall₂_drop (position + 1) lists)

/-- The groups are built from sequences that together rearrange the groups of the input. -/
def BuiltOut (contents : Contents) (input groups : List Group) : Prop :=
  ∃ origins : List (List Group), origins.flatten.Perm input ∧
    List.Forall₂ (BuiltFrom contents) groups origins

/-- At first, every group of the input is built from itself. -/
theorem builtOut_self (groups : List Group) : BuiltOut contents groups groups := by
  refine ⟨groups.map fun group => [group], ?_, ?_⟩
  · rw [← List.flatMap_def, List.flatMap_singleton']
  · rw [List.forall₂_map_right_iff]
    exact List.forall₂_same.mpr fun group _ => builtFrom_singleton group

/-- Joining the pair that is found puts the two sequences together and keeps all others. -/
theorem BuiltOut.joinPair {input groups : List Group} {first second : Nat}
    (out : BuiltOut contents input groups)
    (fits : ∀ group ∈ groups, ∀ member ∈ group, FitsIn contents member)
    (found : firstPair contents groups = some (first, second)) :
    BuiltOut contents input (joinPair contents groups first second) := by
  obtain ⟨origins, arranged, built⟩ := out
  obtain ⟨group, other, held, held', apart, next⟩ := firstPair_spec fits found
  obtain ⟨sequence, origin, front⟩ := exists_beside built held
  obtain ⟨sequence', origin', back⟩ := exists_beside built held'
  refine ⟨(origins.eraseIdx (max first second)).eraseIdx (min first second) ++
    [sequence ++ sequence'], ?_, ?_⟩
  · have moved := (cons_cons_eraseIdx_perm apart origin origin').flatten
    rw [List.flatten_cons, List.flatten_cons, ← List.append_assoc] at moved
    rw [List.flatten_append, List.flatten_singleton]
    exact List.perm_append_comm.trans (moved.trans arranged)
  · rw [Grouping.joinPair, getD_eq_of_getElem? held, getD_eq_of_getElem? held']
    refine List.rel_append (forall₂_eraseIdx (forall₂_eraseIdx built _) _) ?_
    refine List.Forall₂.cons (front.merge back ?_ ?_ next) List.Forall₂.nil
    · exact fits group (List.mem_of_getElem? held)
    · exact fits other (List.mem_of_getElem? held')

/-- What merging ends with is built from sequences that together rearrange what it begins
with. -/
theorem builtOut_mergeAdjacent {groups : List Group}
    (fits : ∀ group ∈ groups, ∀ member ∈ group, FitsIn contents member) :
    BuiltOut contents groups (mergeAdjacent contents groups) := by
  -- Any number of rounds keeps what was built before, also from groups that were merged.
  have rounds : ∀ (count : Nat) (input current : List Group), BuiltOut contents input current →
      (∀ group ∈ current, ∀ member ∈ group, FitsIn contents member) →
      BuiltOut contents input (mergeRounds contents (firstPair contents) count current) := by
    intro count
    induction count with
    | zero => exact fun input current out _ => out
    | succ count ih =>
      intro input current out fits
      rw [mergeRounds]
      cases found : firstPair contents current with
      | none => exact out
      | some pair =>
        exact ih input _ (out.joinPair fits found) (joinPair_induction (fun _ => id)
          (fun _ _ => fitsIn_of_mem_mergeGroups) fits found)
  exact rounds groups.length groups groups (builtOut_self groups) fits

/-- A built group begins at the places at which the first group of its sequence begins. -/
theorem BuiltFrom.exists_begins {sequence : List Group} {group : Group}
    (built : BuiltFrom contents group sequence) :
    ∃ first ∈ sequence, group.map (fun member => (member.file, member.start)) =
      first.map fun member => (member.file, member.start) := by
  obtain ⟨first, others, rfl, members⟩ := built
  refine ⟨first, List.mem_cons_self, ?_⟩
  rw [← List.forall₂_eq_eq_eq, List.forall₂_map_left_iff, List.forall₂_map_right_iff]
  refine members.imp ?_
  rintro member base ⟨row, _, made, _⟩
  exact Prod.ext (made.file base List.mem_cons_self).symm (Option.some.inj made.start).symm

/-- Merging distributes the groups of the input into sequences, one for each group that it ends
with, which is built from its sequence: it has as many members as the first group there, and each
of them begins with the member at the same place and is the hull of it and of one member of each
other group, one behind the other with only whitespace in between. So if the members of every
group of the input begin at different places, those of every group of the result do. -/
theorem mergeAdjacent_distributes (contents : Contents) (groups : List Group)
    (fits : ∀ group ∈ groups, ∀ member ∈ group, FitsIn contents member) :
    (∃ origins : List (List Group), origins.flatten.Perm groups ∧
      List.Forall₂ (BuiltFrom contents) (mergeAdjacent contents groups) origins) ∧
    ((∀ group ∈ groups, (group.map fun member => (member.file, member.start)).Nodup) →
      ∀ group ∈ mergeAdjacent contents groups,
        (group.map fun member => (member.file, member.start)).Nodup) := by
  have out := builtOut_mergeAdjacent fits
  refine ⟨out, fun apart group inside => ?_⟩
  obtain ⟨origins, arranged, built⟩ := out
  obtain ⟨position, held⟩ := List.mem_iff_getElem?.mp inside
  obtain ⟨sequence, origin, front⟩ := exists_beside built held
  obtain ⟨first, present, begins⟩ := front.exists_begins
  have inInput : first ∈ groups := arranged.mem_iff.mp
    (List.mem_flatten.mpr ⟨sequence, List.mem_of_getElem? origin, present⟩)
  rw [begins]
  exact apart first inInput

/-- Three groups of neighbours, of which the last one stands in front of the others. -/
def inWrongOrder : List Group :=
  [[⟨"f", 1, 2⟩, ⟨"f", 5, 6⟩], [⟨"f", 3, 4⟩, ⟨"f", 7, 8⟩], [⟨"f", 0, 1⟩, ⟨"f", 4, 5⟩]]

/-- The first two groups are joined, then the third with what came out, so that one group is
built from all three. -/
theorem mergeAdjacent_distributes_inWrongOrder :
    (∀ group ∈ inWrongOrder, ∀ member ∈ group,
      FitsIn (contentOf? [⟨"f", "ab cab c"⟩]) member) ∧
    (∀ group ∈ inWrongOrder, (group.map fun member => (member.file, member.start)).Nodup) ∧
    (∃ sequence : List Group, sequence.Perm inWrongOrder ∧
      BuiltFrom (contentOf? [⟨"f", "ab cab c"⟩]) [⟨"f", 0, 4⟩, ⟨"f", 4, 8⟩] sequence) ∧
    (([⟨"f", 0, 4⟩, ⟨"f", 4, 8⟩] : Group).map fun member => (member.file, member.start)).Nodup := by
  have fits : ∀ group ∈ inWrongOrder, ∀ member ∈ group,
      FitsIn (contentOf? [⟨"f", "ab cab c"⟩]) member := by
    decide +kernel
  have apart : ∀ group ∈ inWrongOrder,
      (group.map fun member => (member.file, member.start)).Nodup := by
    decide +kernel
  have result : mergeAdjacent (contentOf? [⟨"f", "ab cab c"⟩]) inWrongOrder =
      [[⟨"f", 0, 4⟩, ⟨"f", 4, 8⟩]] := by
    rw [mergeAdjacent_eq_plain (by decide +kernel)]
    decide +kernel
  obtain ⟨⟨origins, arranged, built⟩, apart'⟩ := mergeAdjacent_distributes _ inWrongOrder fits
  rw [result] at built apart'
  obtain ⟨sequence, others, front, rest, rfl⟩ := List.forall₂_cons_left_iff.mp built
  obtain rfl := List.forall₂_nil_left_iff.mp rest
  rw [List.flatten_singleton] at arranged
  exact ⟨fits, apart, ⟨sequence, arranged, front⟩, apart' apart _ List.mem_cons_self⟩

end CodeClones.Grouping
