import CodeClones.Grouping.Adjacency
import CodeClones.Proofs.Text.Slices
import Mathlib.Data.List.Basic
import Mathlib.Data.List.Chain

/-!
# Finding and joining neighbours

The search for a pair of adjacent groups goes through a table of starts and measures runs of
whitespace, while adjacency itself cuts a slice and looks at its characters. When the members
of the groups begin and end between characters the two agree: `mem_followers_iff` says so for
one member, `firstPair_eq_plain` for the pair that is found and `mergeAdjacent_eq_plain` for all
rounds. `mergeAdjacent_induction` gives what every run of the merge loop preserves from what
joining one adjacent pair preserves.
-/

namespace CodeClones.Grouping

variable {contents : Contents}

/-! ## Locations in their files -/

/-- The location is in order, and in a known file both ends fall between characters. -/
structure FitsIn (contents : Contents) (location : Location) : Prop where
  /-- The range does not end before it begins. -/
  ordered : location.start ≤ location.stop
  /-- The range begins between two characters. -/
  start_boundary : ∀ content, contents location.file = some content →
    Text.isBoundary content location.start = true
  /-- The range ends between two characters. -/
  stop_boundary : ∀ content, contents location.file = some content →
    Text.isBoundary content location.stop = true

/-- Whether a location fits is decided by looking its file up. -/
instance (contents : Contents) : DecidablePred (FitsIn contents) := fun location =>
  decidable_of_iff (location.start ≤ location.stop ∧ (contents location.file).all fun content =>
      Text.isBoundary content location.start && Text.isBoundary content location.stop) <| by
    simp only [Option.all_eq_true, Bool.and_eq_true]
    constructor
    · rintro ⟨ordered, boundaries⟩
      exact ⟨ordered, fun content known => (boundaries content known).1,
        fun content known => (boundaries content known).2⟩
    · intro fits
      exact ⟨fits.ordered, fun content known =>
        ⟨fits.start_boundary content known, fits.stop_boundary content known⟩⟩

/-- Only whitespace stands between the first location and the second one of the same file. -/
def GapBetween (contents : Contents) (first second : Location) : Prop :=
  ∃ content gap, contents first.file = some content ∧
    Text.slice? content first.stop second.start = some gap ∧
    ∀ character ∈ gap.toList, Text.isGapSpace character = true

/-- What is behind a gap begins no earlier than the gap. -/
theorem GapBetween.le {first second : Location} (between : GapBetween contents first second) :
    first.stop ≤ second.start := by
  obtain ⟨content, gap, _, sliced, _⟩ := between
  obtain ⟨front, back, _, _, sizes⟩ := Text.slice?_eq_some_iff.mp sliced
  omega

/-- A location is adjacent to another of the same file with only whitespace in between. -/
theorem adjacent_iff {first second : Location} :
    adjacent contents first second = true ↔
      first.file = second.file ∧ GapBetween contents first second := by
  simp only [adjacent, Bool.and_eq_true, beq_iff_eq, decide_eq_true_eq, Option.any_eq_true,
    Option.bind_eq_some_iff, List.all_eq_true]
  constructor
  · rintro ⟨⟨same, _⟩, gap, ⟨content, known, sliced⟩, blank⟩
    exact ⟨same, content, gap, known, sliced, blank⟩
  · rintro ⟨same, between⟩
    have below := between.le
    obtain ⟨content, gap, known, sliced, blank⟩ := between
    exact ⟨⟨same, below⟩, gap, ⟨content, known, sliced⟩, blank⟩

/-- Around a location and one that it is adjacent to, the hull begins with the first and ends
with the second. -/
theorem hull_eq_of_adjacent {first second : Location} (ordered : first.start ≤ first.stop)
    (ordered' : second.start ≤ second.stop) (next : adjacent contents first second = true) :
    first.hull second = ⟨first.file, first.start, second.stop⟩ := by
  have below := (adjacent_iff.mp next).2.le
  unfold Location.hull
  rw [Nat.min_eq_left (by omega), Nat.max_eq_right (by omega)]

/-- The hull of a location and one that it is adjacent to begins and ends between characters. -/
theorem FitsIn.hull {first second : Location} (fits : FitsIn contents first)
    (fits' : FitsIn contents second) (next : adjacent contents first second = true) :
    FitsIn contents (first.hull second) := by
  have same := (adjacent_iff.mp next).1
  have below := (adjacent_iff.mp next).2.le
  rw [hull_eq_of_adjacent fits.ordered fits'.ordered next]
  refine ⟨?_, fits.start_boundary, ?_⟩
  · exact Nat.le_trans fits.ordered (Nat.le_trans below fits'.ordered)
  · rw [same]
    exact fits'.stop_boundary

/-! ## Rows of locations -/

/-- The location is made of a row of locations of its file, with only whitespace between
neighbours. -/
structure MadeOf (contents : Contents) (location : Location) (row : List Location) : Prop where
  /-- Every piece stands in the file of the location. -/
  file : ∀ piece ∈ row, piece.file = location.file
  /-- The first piece begins where the location begins. -/
  start : row.head?.map (·.start) = some location.start
  /-- The last piece ends where the location ends. -/
  stop : row.getLast?.map (·.stop) = some location.stop
  /-- Only whitespace stands between a piece and the next one. -/
  gaps : row.IsChain (GapBetween contents)
  /-- No piece ends behind the beginning of the next one. -/
  ordered : row.IsChain (fun piece next => piece.stop ≤ next.start) :=
    gaps.imp fun _ _ => GapBetween.le

/-- Every location is made of itself. -/
theorem madeOf_singleton (location : Location) : MadeOf contents location [location] where
  file _ held := List.mem_singleton.mp held ▸ rfl
  start := rfl
  stop := rfl
  gaps := List.IsChain.singleton location

/-- The rows of two adjacent locations, one behind the other, are a row of their hull. -/
theorem MadeOf.hull {first second : Location} {row row' : List Location}
    (front : MadeOf contents first row) (back : MadeOf contents second row')
    (ordered : first.start ≤ first.stop) (ordered' : second.start ≤ second.stop)
    (next : adjacent contents first second = true) :
    MadeOf contents (first.hull second) (row ++ row') := by
  obtain ⟨same, content, gap, known, sliced, blank⟩ := adjacent_iff.mp next
  obtain ⟨head, isHead, begins⟩ := Option.map_eq_some_iff.mp front.start
  obtain ⟨last, isLast, ends⟩ := Option.map_eq_some_iff.mp front.stop
  obtain ⟨head', isHead', begins'⟩ := Option.map_eq_some_iff.mp back.start
  obtain ⟨last', isLast', ends'⟩ := Option.map_eq_some_iff.mp back.stop
  rw [hull_eq_of_adjacent ordered ordered' next]
  exact {
    file := by
      intro piece held
      rcases List.mem_append.mp held with held | held
      · exact front.file piece held
      · rw [back.file piece held, same]
    start := by rw [List.head?_append, isHead, Option.some_or, Option.map_some, begins]
    stop := by rw [List.getLast?_append, isLast', Option.some_or, Option.map_some, ends']
    gaps := by
      -- The one new pair of neighbours is the last piece in front and the first piece behind.
      refine front.gaps.append back.gaps ?_
      intro piece isPiece piece' isPiece'
      obtain rfl : last = piece := Option.some.inj (isLast.symm.trans isPiece)
      obtain rfl : head' = piece' := Option.some.inj (isHead'.symm.trans isPiece')
      refine ⟨content, gap, ?_, ?_, blank⟩
      · rw [front.file last (List.mem_of_getLast? isLast), known]
      · rw [ends, begins', sliced] }

/-! ## The table of starts -/

/-- Entering the members of one group puts their starts in front of what a file had. -/
theorem enter_getD (group : Group) (position : Nat) (table : StartTable) (file : String) :
    (group.foldr (fun member table => table.insert member.file
        (⟨member.start, position⟩ :: table.getD member.file [])) table).getD file [] =
      ((group.filter fun member => member.file == file).map fun member =>
        ⟨member.start, position⟩) ++ table.getD file [] := by
  induction group with
  | nil => rfl
  | cons member others ih =>
    rw [List.foldr_cons, Std.HashMap.getD_insert, List.filter_cons]
    by_cases same : member.file = file
    · subst same
      simp only [beq_self_eq_true, if_true, List.map_cons, List.cons_append, ih]
    · have different : (member.file == file) = false := by simpa using same
      simp only [different, Bool.false_eq_true, if_false, ih]

/-- The table lists under each file the starts of its members, group by group. -/
theorem startTable_getD (groups : List Group) (file : String) :
    (startTable groups).getD file [] = groups.zipIdx.flatMap fun entry =>
      (entry.1.filter fun member => member.file == file).map fun member =>
        ⟨member.start, entry.2⟩ := by
  unfold startTable
  induction groups.zipIdx with
  | nil => simp
  | cons entry others ih => rw [List.foldr_cons, enter_getD, ih, List.flatMap_cons]

/-- A start is listed under a file when the group that owns it has a member that begins there. -/
theorem mem_startTable_iff {groups : List Group} {file : String} {start : Start} :
    start ∈ (startTable groups).getD file [] ↔ ∃ group, groups[start.owner]? = some group ∧
      ∃ member ∈ group, member.file = file ∧ member.start = start.offset := by
  rw [startTable_getD, List.mem_flatMap]
  constructor
  · rintro ⟨⟨group, position⟩, numbered, made⟩
    obtain ⟨member, kept, rfl⟩ := List.mem_map.mp made
    obtain ⟨inside, same⟩ := List.mem_filter.mp kept
    exact ⟨group, List.mem_zipIdx_iff_getElem?.mp numbered, member, inside, beq_iff_eq.mp same,
      rfl⟩
  · rintro ⟨group, found, member, inside, same, begins⟩
    refine ⟨(group, start.owner), List.mem_zipIdx_iff_getElem?.mpr found, ?_⟩
    refine List.mem_map.mpr ⟨member, List.mem_filter.mpr ⟨inside, beq_iff_eq.mpr same⟩, ?_⟩
    rw [begins]

/-! ## What follows a member -/

/-- A boundary at or after the end of a range lies in the run of whitespace there exactly when
only whitespace stands in between. -/
theorem gapSize_le_iff {content rest : String} {stop start : Nat}
    (after : Text.suffix? content stop = some rest)
    (boundary : Text.isBoundary content start = true) :
    stop ≤ start ∧ start ≤ stop + gapSize rest ↔
      ∃ gap, Text.slice? content stop start = some gap ∧
        ∀ character ∈ gap.toList, Text.isGapSpace character = true := by
  obtain ⟨front, rfl, rfl⟩ := Text.suffix?_eq_some_iff.mp after
  have run : ∀ gap back, rest = gap ++ back →
      ((∀ character ∈ gap.toList, Text.isGapSpace character = true) ↔
        Text.size gap ≤ gapSize rest) := by
    rintro gap back rfl
    rw [Text.all_iff_size_le_takeWhile Text.isGapSpace gap.toList back.toList,
      String.ofList_toList, gapSize, String.toList_append]
  constructor
  · rintro ⟨above, below⟩
    obtain ⟨front', back, same, rfl⟩ := Text.isBoundary_iff.mp boundary
    obtain ⟨gap, rfl, cut⟩ := Text.exists_middle same above
    rw [Text.size_append] at below ⊢
    exact ⟨gap, Text.slice?_append_iff.mpr ⟨back, cut, rfl⟩, (run gap back cut).mpr (by omega)⟩
  · rintro ⟨gap, sliced, blank⟩
    obtain ⟨back, cut, rfl⟩ := Text.slice?_append_iff.mp sliced
    have fits := (run gap back cut).mp blank
    omega

/-- The groups found behind a member are those that own a member adjacent to it, if all members
begin between characters. -/
theorem mem_followers_iff {groups : List Group} {member : Location} {place : Nat}
    (fits : ∀ group ∈ groups, ∀ other ∈ group, FitsIn contents other) :
    place ∈ followers contents (startTable groups) member ↔
      ∃ group, groups[place]? = some group ∧
        ∃ other ∈ group, adjacent contents member other = true := by
  simp only [adjacent_iff, GapBetween]
  unfold followers
  split
  · rename_i nowhere
    simp only [List.not_mem_nil, false_iff, not_exists, not_and]
    rintro group _ other _ _ content gap known sliced
    obtain ⟨front, back, cut, sizes, _⟩ := Text.slice?_eq_some_iff.mp sliced
    rw [String.append_assoc] at cut
    rw [known, Option.bind_some, Text.suffix?_eq_some_iff.mpr ⟨front, cut, sizes⟩] at nowhere
    contradiction
  · rename_i rest found
    obtain ⟨content, known, after⟩ := Option.bind_eq_some_iff.mp found
    simp only [List.mem_map, List.mem_filter, Bool.and_eq_true, decide_eq_true_eq]
    constructor
    · rintro ⟨start, ⟨listed, range⟩, rfl⟩
      obtain ⟨group, held, other, inside, same, begins⟩ := mem_startTable_iff.mp listed
      have boundary := (fits group (List.mem_of_getElem? held) other inside).start_boundary content
        (same ▸ known)
      rw [← begins] at range
      obtain ⟨gap, sliced, blank⟩ := (gapSize_le_iff after boundary).mp range
      exact ⟨group, held, other, inside, same.symm, content, gap, known, sliced, blank⟩
    · rintro ⟨group, held, other, inside, same, content', gap, known', sliced, blank⟩
      obtain rfl := Option.some.inj (known.symm.trans known')
      have boundary := (fits group (List.mem_of_getElem? held) other inside).start_boundary content
        (same ▸ known)
      refine ⟨⟨other.start, place⟩, ⟨?_, (gapSize_le_iff after boundary).mpr ⟨gap, sliced, blank⟩⟩,
        rfl⟩
      exact mem_startTable_iff.mpr ⟨group, held, other, inside, same.symm, rfl⟩

/-- The groups found behind every member of a non-empty group are those behind each of them. -/
theorem mem_commonFollowers_iff {table : StartTable} {group : Group} {place : Nat}
    (nonempty : group ≠ []) :
    place ∈ commonFollowers contents table group ↔
      ∀ member ∈ group, place ∈ followers contents table member := by
  induction group with
  | nil => exact absurd rfl nonempty
  | cons member others ih =>
    cases others with
    | nil => simp [commonFollowers]
    | cons next rest =>
      have ih' := ih (List.cons_ne_nil next rest)
      rw [commonFollowers, List.forall_mem_cons, ← ih']
      · split
        · rename_i nothing
          rw [List.isEmpty_iff] at nothing
          simp [nothing]
        · simp [List.mem_filter]
      · simp

/-- A group is adjacent to another when each of its members is adjacent to some member there. -/
theorem groupsAdjacent_iff {first second : Group} :
    groupsAdjacent contents first second = true ↔
      ∀ member ∈ first, ∃ other ∈ second, adjacent contents member other = true := by
  simp [groupsAdjacent, List.all_eq_true, List.any_eq_true]

/-- The positions found behind a non-empty group are those of the groups that it is adjacent to. -/
theorem mem_commonFollowers_iff_adjacent {groups : List Group} {group : Group} {place : Nat}
    (fits : ∀ group ∈ groups, ∀ other ∈ group, FitsIn contents other) (nonempty : group ≠ []) :
    place ∈ commonFollowers contents (startTable groups) group ↔
      ∃ other, groups[place]? = some other ∧ groupsAdjacent contents group other = true := by
  rw [mem_commonFollowers_iff nonempty]
  simp only [mem_followers_iff fits, groupsAdjacent_iff]
  constructor
  · intro all
    obtain ⟨first, inside⟩ := List.exists_mem_of_ne_nil group nonempty
    obtain ⟨other, held, _⟩ := all first inside
    refine ⟨other, held, fun member inside => ?_⟩
    obtain ⟨other', held', next⟩ := all member inside
    obtain rfl := Option.some.inj (held.symm.trans held')
    exact next
  · rintro ⟨other, held, all⟩ member inside
    exact ⟨other, held, all member inside⟩

/-- The search names two different positions, the first that of a group and the second behind
all members of that group. -/
theorem firstPair_eq_some {groups : List Group} {first second : Nat}
    (found : firstPair contents groups = some (first, second)) :
    ∃ group, groups[first]? = some group ∧ first ≠ second ∧
      second ∈ commonFollowers contents (startTable groups) group := by
  obtain ⟨⟨group, position⟩, numbered, pair⟩ := List.exists_of_findSome?_eq_some found
  obtain ⟨place, chosen, same⟩ := Option.map_eq_some_iff.mp pair
  obtain ⟨rfl, rfl⟩ := Prod.mk.inj same
  have other := List.find?_some chosen
  exact ⟨group, List.mem_zipIdx_iff_getElem?.mp numbered, Ne.symm (bne_iff_ne.mp other),
    List.mem_of_find?_eq_some chosen⟩

/-- The pair that is found is one of adjacent groups. -/
theorem firstPair_spec {groups : List Group} {first second : Nat}
    (fits : ∀ group ∈ groups, ∀ member ∈ group, FitsIn contents member)
    (found : firstPair contents groups = some (first, second)) :
    ∃ group other, groups[first]? = some group ∧ groups[second]? = some other ∧
      first ≠ second ∧ groupsAdjacent contents group other = true := by
  obtain ⟨group, held, apart, behind⟩ := firstPair_eq_some found
  have nonempty : group ≠ [] := by
    rintro rfl
    simp [commonFollowers] at behind
  obtain ⟨other, held', next⟩ := (mem_commonFollowers_iff_adjacent fits nonempty).mp behind
  exact ⟨group, other, held, held', apart, next⟩

/-! ## The first pair -/

/-- The answer is the least number with a property, or none if no number has it. -/
def IsFirst (property : Nat → Prop) : Option Nat → Prop
  | none => ∀ number, ¬ property number
  | some least => property least ∧ ∀ number, property number → least ≤ number

/-- There is only one answer. -/
theorem IsFirst.unique {property : Nat → Prop} {answer answer' : Option Nat}
    (first : IsFirst property answer) (first' : IsFirst property answer') : answer = answer' := by
  cases answer with
  | none =>
    cases answer' with
    | none => rfl
    | some least => exact absurd first'.1 (first least)
  | some least =>
    cases answer' with
    | none => exact absurd first.1 (first' least)
    | some least' =>
      have below := first.2 least' first'.1
      have above := first'.2 least first.1
      rw [Nat.le_antisymm below above]

/-- In a list ascending by a key, the first entry that passes a test has the least key of all
that pass. -/
theorem isFirst_find? {α : Type} (key : α → Nat) {list : List α} (test : α → Bool)
    (ascending : list.Pairwise fun entry entry' => key entry ≤ key entry') :
    IsFirst (fun number => ∃ entry ∈ list, test entry = true ∧ key entry = number)
      ((list.find? test).map key) := by
  induction list with
  | nil => simp [IsFirst]
  | cons entry others ih =>
    obtain ⟨least, ascending'⟩ := List.pairwise_cons.mp ascending
    by_cases passes : test entry = true
    · rw [List.find?_cons_of_pos passes, Option.map_some]
      refine ⟨⟨entry, List.mem_cons_self, passes, rfl⟩, ?_⟩
      rintro number ⟨entry', inside, _, rfl⟩
      rcases List.mem_cons.mp inside with rfl | inside
      · exact Nat.le_refl _
      · exact least entry' inside
    · have property : (fun number => ∃ entry' ∈ entry :: others, test entry' = true ∧
          key entry' = number) =
          fun number => ∃ entry' ∈ others, test entry' = true ∧ key entry' = number := by
        funext number
        simp [passes]
      rw [List.find?_cons_of_neg passes, property]
      exact ih ascending'

/-- Positions ascend along a list. -/
theorem zipIdx_ascending {α : Type} (list : List α) :
    list.zipIdx.Pairwise fun entry entry' => entry.2 < entry'.2 := by
  rw [← List.pairwise_map (f := Prod.snd), List.zipIdx_map_snd]
  exact List.pairwise_lt_range'

/-- The positions behind a member are found in ascending order. -/
theorem followers_ascending (contents : Contents) (groups : List Group) (member : Location) :
    (followers contents (startTable groups) member).Pairwise (· ≤ ·) := by
  have starts : ((startTable groups).getD member.file []).Pairwise
      fun start start' => start.owner ≤ start'.owner := by
    rw [startTable_getD, List.pairwise_flatMap]
    constructor
    · intro entry _
      rw [List.pairwise_map]
      exact List.pairwise_of_forall fun _ _ => Nat.le_refl _
    · refine (zipIdx_ascending groups).imp ?_
      intro entry entry' before start made start' made'
      obtain ⟨_, _, rfl⟩ := List.mem_map.mp made
      obtain ⟨_, _, rfl⟩ := List.mem_map.mp made'
      exact Nat.le_of_lt before
  unfold followers
  split
  · exact List.Pairwise.nil
  · rw [List.pairwise_map]
    exact starts.filter _

/-- The positions behind all members of a group are found in ascending order. -/
theorem commonFollowers_ascending (contents : Contents) (groups : List Group) (group : Group) :
    (commonFollowers contents (startTable groups) group).Pairwise (· ≤ ·) := by
  match group with
  | [] => exact List.Pairwise.nil
  | [member] => exact followers_ascending contents groups member
  | member :: next :: rest =>
    rw [commonFollowers]
    · split
      · exact List.Pairwise.nil
      · exact (followers_ascending contents groups member).filter _
    · simp

/-- Through the table and by trying all groups, the same position is found behind a group. -/
theorem firstFollower_eq {groups : List Group} {group : Group} {position : Nat}
    (fits : ∀ group ∈ groups, ∀ member ∈ group, FitsIn contents member) (nonempty : group ≠ []) :
    (commonFollowers contents (startTable groups) group).find? (· != position) =
      (groups.zipIdx.find? fun entry =>
        entry.2 != position && groupsAdjacent contents group entry.1).map Prod.snd := by
  have listed := isFirst_find? id (· != position)
    (commonFollowers_ascending contents groups group)
  have tried := isFirst_find? Prod.snd
    (fun entry => entry.2 != position && groupsAdjacent contents group entry.1)
    ((zipIdx_ascending groups).imp Nat.le_of_lt)
  rw [Option.map_id_fun, id] at listed
  -- Both searches look for a group at another position that this one is adjacent to.
  have property : (fun number => ∃ place ∈ commonFollowers contents (startTable groups) group,
      (place != position) = true ∧ id place = number) =
      fun number => ∃ entry ∈ groups.zipIdx,
        (entry.2 != position && groupsAdjacent contents group entry.1) = true ∧
          entry.2 = number := by
    funext number
    simp only [mem_commonFollowers_iff_adjacent fits nonempty, List.mem_zipIdx_iff_getElem?,
      Bool.and_eq_true, id, eq_iff_iff]
    constructor
    · rintro ⟨place, ⟨other, held, next⟩, apart, rfl⟩
      exact ⟨(other, place), held, ⟨apart, next⟩, rfl⟩
    · rintro ⟨⟨other, place⟩, held, ⟨apart, next⟩, rfl⟩
      exact ⟨place, ⟨other, held, next⟩, apart, rfl⟩
  exact listed.unique (property ▸ tried)

/-- The table leads to the same pair as trying all pairs. -/
theorem firstPair_eq_plain {groups : List Group}
    (fits : ∀ group ∈ groups, ∀ member ∈ group, FitsIn contents member)
    (nonempty : ∀ group ∈ groups, group ≠ []) :
    firstPair contents groups = firstPairPlain contents groups := by
  unfold firstPair firstPairPlain
  rw [← List.head?_filterMap, ← List.head?_filterMap]
  refine congrArg List.head? (List.filterMap_congr ?_)
  rintro ⟨group, position⟩ numbered
  have inside := List.mem_of_getElem? (List.mem_zipIdx_iff_getElem?.mp numbered)
  dsimp only
  rw [firstFollower_eq fits (nonempty group inside), Option.map_map]
  rfl

/-! ## Partners -/

/-- What a member is joined with: the first member of the second group that it is adjacent to,
and itself if there is none. -/
def partner (contents : Contents) (second : Group) (member : Location) : Location :=
  (second.find? fun other => adjacent contents member other).getD member

/-- A member and its partner are in one file. -/
theorem partner_file (second : Group) (member : Location) :
    (partner contents second member).file = member.file := by
  unfold partner
  cases found : second.find? fun other => adjacent contents member other with
  | none => rfl
  | some other => exact (adjacent_iff.mp (List.find?_some found)).1.symm

/-- Merging takes the hull of each member and its partner. -/
theorem mergeGroups_eq_map_hull (first second : Group) :
    mergeGroups contents first second =
      first.map fun member => member.hull (partner contents second member) := by
  refine List.map_congr_left fun member _ => ?_
  unfold partner
  cases second.find? fun other => adjacent contents member other with
  | none => simp [Location.hull]
  | some other => rfl

/-- In a group adjacent to another, every member has a partner there that it is adjacent to. -/
theorem partner_spec {first second : Group} {member : Location}
    (next : groupsAdjacent contents first second = true) (inside : member ∈ first) :
    partner contents second member ∈ second ∧
      adjacent contents member (partner contents second member) = true := by
  obtain ⟨candidate, present, near⟩ := groupsAdjacent_iff.mp next member inside
  unfold partner
  cases found : second.find? fun other => adjacent contents member other with
  | none => exact absurd near (List.find?_eq_none.mp found candidate present)
  | some other => exact ⟨List.mem_of_find?_eq_some found, List.find?_some found⟩

/-- A merged location is the hull of a member and a member of the other group next to it. -/
theorem exists_of_mem_mergeGroups {first second : Group} {location : Location}
    (next : groupsAdjacent contents first second = true)
    (inside : location ∈ mergeGroups contents first second) :
    ∃ member ∈ first, ∃ other ∈ second, adjacent contents member other = true ∧
      location = member.hull other := by
  rw [mergeGroups_eq_map_hull] at inside
  obtain ⟨member, held, rfl⟩ := List.mem_map.mp inside
  obtain ⟨present, near⟩ := partner_spec next held
  exact ⟨member, held, _, present, near, rfl⟩

/-- Merging keeps the ends of members between characters. -/
theorem fitsIn_of_mem_mergeGroups {group other : Group}
    (fits : ∀ member ∈ group, FitsIn contents member)
    (fits' : ∀ member ∈ other, FitsIn contents member)
    (next : groupsAdjacent contents group other = true) :
    ∀ location ∈ mergeGroups contents group other, FitsIn contents location := by
  intro location inside
  obtain ⟨member, held, partner, held', near, rfl⟩ := exists_of_mem_mergeGroups next inside
  exact (fits member held).hull (fits' partner held') near

/-! ## Joining a pair -/

/-- Taking two different positions out of a list leaves what stands at the others. -/
theorem mem_eraseIdx_eraseIdx {α : Type} {list : List α} {value : α} {first second : Nat}
    (apart : first ≠ second) :
    value ∈ (list.eraseIdx (max first second)).eraseIdx (min first second) ↔
      ∃ position, position ≠ first ∧ position ≠ second ∧ list[position]? = some value := by
  rw [List.mem_eraseIdx_iff_getElem?]
  simp only [List.getElem?_eraseIdx]
  constructor
  · rintro ⟨position, different, held⟩
    split at held
    · exact ⟨position, by omega, by omega, held⟩
    · exact ⟨position + 1, by omega, by omega, held⟩
  · rintro ⟨position, different, different', held⟩
    by_cases below : position < max first second
    · exact ⟨position, by omega, by rw [if_pos below, held]⟩
    · refine ⟨position - 1, by omega, ?_⟩
      rw [if_neg (by omega), Nat.sub_add_cancel (by omega), held]

/-- What stands at a position is found there. -/
theorem getD_eq_of_getElem? {groups : List Group} {group : Group} {position : Nat}
    (held : groups[position]? = some group) : groups.getD position [] = group := by
  rw [List.getD_eq_getElem?_getD, held, Option.getD_some]

/-- After joining a pair, the groups are the merger and those at all other positions. -/
theorem mem_joinPair_iff {groups : List Group} {group : Group} {first second : Nat}
    (apart : first ≠ second) :
    group ∈ joinPair contents groups first second ↔
      (∃ position, position ≠ first ∧ position ≠ second ∧ groups[position]? = some group) ∨
        group = mergeGroups contents (groups.getD first []) (groups.getD second []) := by
  rw [joinPair, List.mem_append, mem_eraseIdx_eraseIdx apart, List.mem_singleton]

/-- What holds of every group, and of the merger of two adjacent groups of which it holds, holds
of every group after one pair is joined. -/
theorem joinPair_induction {motive : Group → Prop}
    (fits : ∀ group, motive group → ∀ member ∈ group, FitsIn contents member)
    (merge : ∀ group other, motive group → motive other →
      groupsAdjacent contents group other = true → motive (mergeGroups contents group other))
    {groups : List Group} {first second : Nat} (all : ∀ group ∈ groups, motive group)
    (found : firstPair contents groups = some (first, second)) :
    ∀ group ∈ joinPair contents groups first second, motive group := by
  intro result inside
  have inPlace : ∀ position group, groups[position]? = some group → motive group :=
    fun position group held => all group (List.mem_of_getElem? held)
  obtain ⟨group, other, held, held', apart, next⟩ :=
    firstPair_spec (fun group inside => fits group (all group inside)) found
  rcases (mem_joinPair_iff apart).mp inside with ⟨position, _, _, kept⟩ | rfl
  · exact inPlace position result kept
  · rw [getD_eq_of_getElem? held, getD_eq_of_getElem? held']
    exact merge group other (inPlace first group held) (inPlace second other held') next

/-- What holds of every group, and of the merger of two adjacent groups of which it holds, holds
of every group after merging. -/
theorem mergeAdjacent_induction {motive : Group → Prop}
    (fits : ∀ group, motive group → ∀ member ∈ group, FitsIn contents member)
    (merge : ∀ group other, motive group → motive other →
      groupsAdjacent contents group other = true → motive (mergeGroups contents group other))
    {groups : List Group} (all : ∀ group ∈ groups, motive group) :
    ∀ group ∈ mergeAdjacent contents groups, motive group := by
  unfold mergeAdjacent
  -- Every round passes on a list of groups that all have the property.
  induction groups.length generalizing groups with
  | zero => exact all
  | succ rounds ih =>
    unfold mergeRounds
    split
    · exact all
    · rename_i first second found
      exact ih (joinPair_induction fits merge all found)

/-- No group is empty, and all members begin and end between characters. -/
def Fitting (contents : Contents) (groups : List Group) : Prop :=
  ∀ group ∈ groups, group ≠ [] ∧ ∀ member ∈ group, FitsIn contents member

/-- Joining the pair that is found leaves no group empty and keeps the ends of members between
characters. -/
theorem Fitting.joinPair {groups : List Group} {first second : Nat}
    (all : Fitting contents groups) (found : firstPair contents groups = some (first, second)) :
    Fitting contents (joinPair contents groups first second) := by
  refine joinPair_induction (fun group both => both.2) ?_ all found
  intro group other both both' next
  refine ⟨?_, fitsIn_of_mem_mergeGroups both.2 both'.2 next⟩
  simpa [mergeGroups] using both.1

/-- Merging through the table is merging by trying all pairs. -/
theorem mergeAdjacent_eq_plain {groups : List Group}
    (all : ∀ group ∈ groups, group ≠ [] ∧ ∀ member ∈ group, FitsIn contents member) :
    mergeAdjacent contents groups = mergeAdjacentPlain contents groups := by
  unfold mergeAdjacent mergeAdjacentPlain
  -- The pairs are the same as long as no group is empty or ends within a character.
  induction groups.length generalizing groups with
  | zero => rfl
  | succ rounds ih =>
    have same : firstPair contents groups = firstPairPlain contents groups :=
      firstPair_eq_plain (fun group inside => (all group inside).2)
        fun group inside => (all group inside).1
    rw [mergeRounds, mergeRounds, ← same]
    cases found : firstPair contents groups with
    | none => rfl
    | some pair => exact ih (Fitting.joinPair all found)

end CodeClones.Grouping
