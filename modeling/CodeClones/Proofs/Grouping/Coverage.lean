import CodeClones.Proofs.Grouping.Adjacency
import Mathlib.Data.List.Perm.Subperm

/-!
# What merging keeps and what it leaves out

Joining a pair of groups keeps every member of the first and those members of the second that
one of the first is joined with. What else the second group holds is left out, and may be lost
with it. `leftOut` collects that along a whole run of merging, and every location that goes in
comes out within a member of the result or within one that was left out. Nothing is left out as
long as all groups have equally many members, which end at different places and not behind
whitespace: then no two members are joined with the same one.
-/

namespace CodeClones

/-- The inner location is a part of the outer one. -/
structure Location.LiesIn (inner outer : Location) : Prop where
  /-- Both are in one file. -/
  file : inner.file = outer.file
  /-- The inner one begins no earlier. -/
  start : outer.start ≤ inner.start
  /-- The inner one ends no later. -/
  stop : inner.stop ≤ outer.stop

namespace Location

/-- Whether a location is a part of another is decided by comparing files and ends. -/
instance (inner outer : Location) : Decidable (inner.LiesIn outer) :=
  decidable_of_iff (inner.file = outer.file ∧ outer.start ≤ inner.start ∧ inner.stop ≤ outer.stop)
    ⟨fun ⟨file, start, stop⟩ => ⟨file, start, stop⟩, fun part => ⟨part.file, part.start, part.stop⟩⟩

/-- Every location is a part of itself. -/
theorem LiesIn.refl (location : Location) : location.LiesIn location :=
  ⟨rfl, Nat.le_refl _, Nat.le_refl _⟩

/-- A part of a part is a part. -/
theorem LiesIn.trans {inner middle outer : Location} (part : inner.LiesIn middle)
    (part' : middle.LiesIn outer) : inner.LiesIn outer :=
  ⟨part.file.trans part'.file, Nat.le_trans part'.start part.start,
    Nat.le_trans part.stop part'.stop⟩

/-- A location is a part of its hull with another. -/
theorem liesIn_hull_left (first second : Location) : first.LiesIn (first.hull second) :=
  ⟨rfl, Nat.min_le_left _ _, Nat.le_max_left _ _⟩

/-- A location is a part of the hull that another of its file makes with it. -/
theorem liesIn_hull_right {first second : Location} (same : second.file = first.file) :
    second.LiesIn (first.hull second) :=
  ⟨same, Nat.min_le_right _ _, Nat.le_max_right _ _⟩

end Location

namespace Grouping

variable {contents : Contents}

/-! ## What a run leaves out -/

/-- The members of the second group that no member of the first is joined with. -/
def unjoined (contents : Contents) (first second : Group) : Group :=
  second.filter fun other => !(first.map (partner contents second)).contains other

/-- The members left out while pairs of groups are joined for a number of rounds. -/
def leftOutRounds (contents : Contents) (find : List Group → Option (Nat × Nat)) :
    Nat → List Group → List Location
  | 0, _ => []
  | rounds + 1, groups =>
    match find groups with
    | none => []
    | some (first, second) =>
      unjoined contents (groups.getD first []) (groups.getD second []) ++
        leftOutRounds contents find rounds (joinPair contents groups first second)

/-- The members left out while adjacent groups are joined until no pair is left. -/
def leftOut (contents : Contents) (groups : List Group) : List Location :=
  leftOutRounds contents (firstPair contents) groups.length groups

/-- Some member of some group holds the whole location. -/
def Kept (groups : List Group) (location : Location) : Prop :=
  ∃ group ∈ groups, ∃ member ∈ group, location.LiesIn member

/-- Whether a location is kept is decided by going through all members. -/
instance (groups : List Group) (location : Location) : Decidable (Kept groups location) :=
  inferInstanceAs (Decidable (∃ group ∈ groups, ∃ member ∈ group, location.LiesIn member))

/-- What is kept before joining a pair is kept afterwards, or lies in a member that the join
leaves out. -/
theorem kept_joinPair {groups : List Group} {first second : Nat} {location : Location}
    (apart : first ≠ second) (kept : Kept groups location) :
    Kept (joinPair contents groups first second) location ∨
      ∃ other ∈ unjoined contents (groups.getD first []) (groups.getD second []),
        location.LiesIn other := by
  obtain ⟨group, inside, member, held, part⟩ := kept
  obtain ⟨position, place⟩ := List.mem_iff_getElem?.mp inside
  have inPlace := getD_eq_of_getElem? place
  -- The merger of the pair holds whatever lies in the hull of a member and its partner.
  have joined : ∀ base ∈ groups.getD first [],
      location.LiesIn (base.hull (partner contents (groups.getD second []) base)) →
        Kept (joinPair contents groups first second) location := by
    intro base inFirst within
    refine ⟨_, (mem_joinPair_iff apart).mpr (Or.inr rfl), _, ?_, within⟩
    rw [mergeGroups_eq_map_hull]
    exact List.mem_map.mpr ⟨base, inFirst, rfl⟩
  by_cases atFirst : position = first
  · subst atFirst
    exact Or.inl (joined member (inPlace ▸ held) (part.trans (Location.liesIn_hull_left _ _)))
  · by_cases atSecond : position = second
    · subst atSecond
      by_cases chosen : member ∈ (groups.getD first []).map
          (partner contents (groups.getD position []))
      · obtain ⟨base, inFirst, rfl⟩ := List.mem_map.mp chosen
        exact Or.inl (joined base inFirst
          (part.trans (Location.liesIn_hull_right (partner_file _ _))))
      · refine Or.inr ⟨member, List.mem_filter.mpr ⟨inPlace ▸ held, ?_⟩, part⟩
        rwa [Bool.not_eq_true', Bool.eq_false_iff, Ne, List.contains_iff_mem]
    · exact Or.inl ⟨group, (mem_joinPair_iff apart).mpr
        (Or.inl ⟨position, atFirst, atSecond, place⟩), member, held, part⟩

/-- Whatever goes into merging comes out within a member of the result or within one that was
left out. -/
theorem kept_mergeAdjacent {groups : List Group} {location : Location}
    (kept : Kept groups location) :
    Kept (mergeAdjacent contents groups) location ∨
      ∃ other ∈ leftOut contents groups, location.LiesIn other := by
  unfold mergeAdjacent leftOut
  -- A location leaves the groups in at most one round, in which it is left out.
  induction groups.length generalizing groups with
  | zero => exact Or.inl kept
  | succ rounds ih =>
    rw [mergeRounds, leftOutRounds]
    cases found : firstPair contents groups with
    | none => exact Or.inl kept
    | some pair =>
      obtain ⟨first, second⟩ := pair
      obtain ⟨_, _, apart, _⟩ := firstPair_eq_some found
      simp only [List.mem_append]
      rcases kept_joinPair apart kept with still | ⟨other, dropped, part⟩
      · rcases ih still with still | ⟨other, dropped, part⟩
        · exact Or.inl still
        · exact Or.inr ⟨other, Or.inr dropped, part⟩
      · exact Or.inr ⟨other, Or.inl dropped, part⟩

/-! ## Groups of which nothing is left out -/

/-- Whether the text of a known file, up to the end of a location, ends in a character that is
no whitespace. -/
def endsInText (contents : Contents) (location : Location) : Bool :=
  (contents location.file).all fun content =>
    ((Text.slice? content 0 location.stop).bind fun text => text.toList.getLast?).any
      fun character => !Text.isGapSpace character

/-- Of two locations adjacent to the same one, none ends behind the other in whitespace. -/
theorem stop_le_of_adjacent {first second other : Location}
    (ends : endsInText contents second = true) (next : adjacent contents first other = true)
    (next' : adjacent contents second other = true) : second.stop ≤ first.stop := by
  obtain ⟨same, content, gap, known, sliced, blank⟩ := adjacent_iff.mp next
  obtain ⟨same', content', gap', known', sliced', _⟩ := adjacent_iff.mp next'
  rw [same, ← same', known'] at known
  obtain rfl := Option.some.inj known
  obtain ⟨front, back, parts, atStart, atStop⟩ := Text.slice?_eq_some_iff.mp sliced
  obtain ⟨front', back', parts', atStart', atStop'⟩ := Text.slice?_eq_some_iff.mp sliced'
  by_contra behind
  have cut : front ++ (gap ++ back) = front' ++ (gap' ++ back') := by
    rw [← String.append_assoc, ← String.append_assoc, ← parts, ← parts']
  obtain ⟨middle, rfl, cut'⟩ := Text.exists_middle cut (by omega)
  rw [Text.size_append] at atStart'
  rw [← String.append_assoc] at cut'
  obtain ⟨rfl, _⟩ := Text.append_inj_of_size cut' (by rw [Text.size_append]; omega)
  -- The text up to the later end closes with the middle part, which is whitespace.
  have upTo : Text.slice? content' 0 second.stop = some (front ++ middle) :=
    Text.slice?_eq_some_iff.mpr ⟨"", gap' ++ back', by
      rw [String.empty_append, parts', String.append_assoc], rfl, by
      rw [Text.size_append]; omega⟩
  have nonempty : middle.toList ≠ [] := by
    intro nothing
    rw [String.toList_eq_nil_iff] at nothing
    have none : Text.size middle = 0 := by rw [nothing]; rfl
    omega
  have white := blank (middle.toList.getLast nonempty) (by
    rw [String.toList_append]
    exact List.mem_append_left _ (List.getLast_mem nonempty))
  rw [endsInText, known', Option.all_some, upTo, Option.bind_some, String.toList_append,
    List.getLast?_append, List.getLast?_eq_some_getLast nonempty, Option.some_or, Option.any_some,
    white] at ends
  contradiction

/-- The group has a given number of members within their files, and they end at different places,
none of them behind whitespace. -/
structure EndsApart (contents : Contents) (size : Nat) (group : Group) : Prop where
  /-- The members begin and end between characters. -/
  fits : ∀ member ∈ group, FitsIn contents member
  /-- There are as many members as said. -/
  size : group.length = size
  /-- No member ends behind whitespace. -/
  solid : ∀ member ∈ group, endsInText contents member = true
  /-- No two members end at one place. -/
  apart : (group.map fun member => (member.file, member.stop)).Nodup

/-- Whether the members of a group end apart is decided by going through them. -/
instance (contents : Contents) (size : Nat) (group : Group) :
    Decidable (EndsApart contents size group) :=
  decidable_of_iff ((∀ member ∈ group, FitsIn contents member) ∧ group.length = size ∧
      (∀ member ∈ group, endsInText contents member = true) ∧
      (group.map fun member => (member.file, member.stop)).Nodup)
    ⟨fun ⟨fits, size, solid, apart⟩ => ⟨fits, size, solid, apart⟩,
      fun ends => ⟨ends.fits, ends.size, ends.solid, ends.apart⟩⟩

/-- Members that end apart have different partners, so that all of an equally large group are
partners. -/
theorem EndsApart.perm_partner {size : Nat} {first second : Group}
    (ends : EndsApart contents size first) (ends' : EndsApart contents size second)
    (next : groupsAdjacent contents first second = true) :
    (first.map (partner contents second)).Perm second := by
  have different : (first.map (partner contents second)).Nodup := by
    refine List.pairwise_map.mpr ((List.pairwise_map.mp ends.apart).imp_of_mem ?_)
    intro member member' inside inside' unequal same
    have near := (partner_spec next inside).2
    have near' := (partner_spec next inside').2
    rw [← same] at near'
    refine unequal (Prod.ext ?_ ?_)
    · exact (adjacent_iff.mp near).1.trans (adjacent_iff.mp near').1.symm
    · exact Nat.le_antisymm (stop_le_of_adjacent (ends.solid member inside) near' near)
        (stop_le_of_adjacent (ends.solid member' inside') near near')
  have present : first.map (partner contents second) ⊆ second := by
    intro other chosen
    obtain ⟨member, inside, rfl⟩ := List.mem_map.mp chosen
    exact (partner_spec next inside).1
  have lengths : second.length = (first.map (partner contents second)).length := by
    rw [List.length_map, ends.size, ends'.size]
  exact (different.subperm present).perm_of_length_le (Nat.le_of_eq lengths)

/-- Joining adjacent groups of one size whose members end apart leaves nothing out. -/
theorem EndsApart.unjoined_eq_nil {size : Nat} {first second : Group}
    (ends : EndsApart contents size first) (ends' : EndsApart contents size second)
    (next : groupsAdjacent contents first second = true) :
    unjoined contents first second = [] := by
  refine List.filter_eq_nil_iff.mpr fun other inside => ?_
  have chosen := (ends.perm_partner ends' next).mem_iff.mpr inside
  rw [Bool.not_eq_true, Bool.not_eq_false', List.contains_iff_mem]
  exact chosen

/-- Merged members end where their partners end. -/
theorem map_end_mergeGroups {first second : Group}
    (fits : ∀ member ∈ first, FitsIn contents member)
    (fits' : ∀ member ∈ second, FitsIn contents member)
    (next : groupsAdjacent contents first second = true) :
    (mergeGroups contents first second).map (fun member => (member.file, member.stop)) =
      (first.map (partner contents second)).map fun member => (member.file, member.stop) := by
  rw [mergeGroups_eq_map_hull, List.map_map, List.map_map]
  refine List.map_congr_left fun member inside => ?_
  obtain ⟨inside', near⟩ := partner_spec next inside
  simp only [Function.comp_apply]
  rw [hull_eq_of_adjacent (fits member inside).ordered (fits' _ inside').ordered near,
    partner_file]

/-- The merger of adjacent groups of one size whose members end apart is of that size, and its
members end apart. -/
theorem EndsApart.merge {size : Nat} {first second : Group}
    (ends : EndsApart contents size first) (ends' : EndsApart contents size second)
    (next : groupsAdjacent contents first second = true) :
    EndsApart contents size (mergeGroups contents first second) where
  fits := fitsIn_of_mem_mergeGroups ends.fits ends'.fits next
  size := by rw [mergeGroups, List.length_map, ends.size]
  solid location inside := by
    obtain ⟨member, held, partner, held', near, rfl⟩ := exists_of_mem_mergeGroups next inside
    rw [hull_eq_of_adjacent (ends.fits member held).ordered (ends'.fits partner held').ordered near,
      (adjacent_iff.mp near).1]
    exact ends'.solid partner held'
  apart := by
    rw [map_end_mergeGroups ends.fits ends'.fits next]
    exact ((ends.perm_partner ends' next).map _).nodup_iff.mpr ends'.apart

/-- Merging groups of one size whose members end apart leaves nothing out. -/
theorem leftOut_eq_nil {size : Nat} {groups : List Group}
    (ends : ∀ group ∈ groups, EndsApart contents size group) : leftOut contents groups = [] := by
  unfold leftOut
  induction groups.length generalizing groups with
  | zero => rfl
  | succ rounds ih =>
    rw [leftOutRounds]
    cases found : firstPair contents groups with
    | none => rfl
    | some pair =>
      obtain ⟨first, second⟩ := pair
      obtain ⟨group, other, held, held', _, next⟩ :=
        firstPair_spec (fun group inside => (ends group inside).fits) found
      have nothing : unjoined contents (groups.getD first []) (groups.getD second []) = [] := by
        rw [getD_eq_of_getElem? held, getD_eq_of_getElem? held']
        exact (ends group (List.mem_of_getElem? held)).unjoined_eq_nil
          (ends other (List.mem_of_getElem? held')) next
      have rest := ih (joinPair_induction (fun _ ends => ends.fits) (fun _ _ => EndsApart.merge)
        ends found)
      simp only [nothing, rest, List.append_nil]

/-! ## The account of a run -/

/-- Every location that goes into merging lies in a member of the result or in a member of a
second group that none of the first was joined with; and if all groups have equally many members,
which end at different places and not behind whitespace, none is left out and all are kept. -/
theorem mergeAdjacent_accounts (contents : Contents) (groups : List Group) :
    (∀ group ∈ groups, ∀ member ∈ group, Kept (mergeAdjacent contents groups) member ∨
      ∃ other ∈ leftOut contents groups, member.LiesIn other) ∧
    ∀ size, (∀ group ∈ groups, EndsApart contents size group) →
      leftOut contents groups = [] ∧
        ∀ group ∈ groups, ∀ member ∈ group, Kept (mergeAdjacent contents groups) member := by
  have account : ∀ group ∈ groups, ∀ member ∈ group,
      Kept (mergeAdjacent contents groups) member ∨
        ∃ other ∈ leftOut contents groups, member.LiesIn other :=
    fun group inside member held =>
      kept_mergeAdjacent ⟨group, inside, member, held, Location.LiesIn.refl member⟩
  refine ⟨account, fun size ends => ?_⟩
  have nothing := leftOut_eq_nil ends
  refine ⟨nothing, fun group inside member held => ?_⟩
  rcases account group inside member held with kept | ⟨other, dropped, _⟩
  · exact kept
  · rw [nothing] at dropped
    contradiction

/-- Of two groups of two that are joined, every member is kept. -/
theorem mergeAdjacent_accounts_two :
    (∀ group ∈ [[⟨"f", 0, 1⟩, ⟨"f", 3, 4⟩], [⟨"f", 1, 2⟩, ⟨"f", 4, 5⟩]],
      EndsApart (contentOf? [⟨"f", "ab ab"⟩]) 2 group) ∧
    Kept (mergeAdjacent (contentOf? [⟨"f", "ab ab"⟩])
      [[⟨"f", 0, 1⟩, ⟨"f", 3, 4⟩], [⟨"f", 1, 2⟩, ⟨"f", 4, 5⟩]]) ⟨"f", 4, 5⟩ := by
  have ends : ∀ group ∈ [[⟨"f", 0, 1⟩, ⟨"f", 3, 4⟩], [⟨"f", 1, 2⟩, ⟨"f", 4, 5⟩]],
      EndsApart (contentOf? [⟨"f", "ab ab"⟩]) 2 group := by
    decide +kernel
  refine ⟨ends, ((mergeAdjacent_accounts _ _).2 2 ends).2 [⟨"f", 1, 2⟩, ⟨"f", 4, 5⟩] ?_ _ ?_⟩
  · decide
  · decide

/-- Merging may lose a location: a group of three loses one when a group of two is joined with
it. -/
theorem mergeAdjacent_may_lose :
    ¬ ∀ (files : List SourceFile) (groups : List Group),
      (∀ group ∈ groups, 2 ≤ group.length ∧
        ∀ member ∈ group, FitsIn (contentOf? files) member) →
      ∀ group ∈ groups, ∀ member ∈ group,
        Kept (mergeAdjacent (contentOf? files) groups) member := by
  intro always
  have kept := always [⟨"f", "ab ab b"⟩]
    [[⟨"f", 0, 1⟩, ⟨"f", 3, 4⟩], [⟨"f", 1, 2⟩, ⟨"f", 4, 5⟩, ⟨"f", 6, 7⟩]]
    (by decide +kernel) [⟨"f", 1, 2⟩, ⟨"f", 4, 5⟩, ⟨"f", 6, 7⟩] (by decide) ⟨"f", 6, 7⟩ (by decide)
  rw [mergeAdjacent_eq_plain (by decide +kernel)] at kept
  revert kept
  decide +kernel

end Grouping

end CodeClones
