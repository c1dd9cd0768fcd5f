import CodeClones.Files.Walk
import CodeClones.Proofs.Files.Components
import CodeClones.Proofs.Report.Excerpts

/-!
# Names of files

Everything behind the reading of files knows them by the names that they are shown under. Two
paths below one root are shown under one name only if they are the same path once backslashes
are read as slashes: the root is taken off as a list of components, and what is left of a path
keeps its components. So unless names with backslashes get into each other's way, every location
is looked up in the text of the very file in which it was found.
-/

namespace CodeClones.Path

/-! ## Segments -/

/-- The segments of a path are made of its parts. -/
theorem map_segments (path : String) : (segments path).map (·.1) = parts path := by
  unfold segments
  split
  · rename_i none
    rw [none]
    rfl
  · rename_i first others found
    rw [found, List.map_cons, List.map_map]
    simp [Function.comp_def]

/-- Behind the first one, each segment makes the step of its text. -/
theorem step?_of_mem_tail {path : String} {first : Segment} {others : List Segment}
    (cut : segments path = first :: others) : ∀ segment ∈ others, segment.2 = step? segment.1 := by
  unfold segments at cut
  split at cut
  · cases cut
  · cases cut
    intro segment member
    obtain ⟨part, _, rfl⟩ := List.mem_map.mp member
    rfl

/-- The first segment shows whether the path is absolute or begins with a dot. -/
theorem lead_eq {path : String} {first : Segment} {others : List Segment}
    (cut : segments path = first :: others) :
    first.2 = if isAbsolute path then some .root
      else if first.1 = "." then some .current else step? first.1 := by
  unfold segments at cut
  split at cut
  · cases cut
  · obtain ⟨rfl, _⟩ := List.cons.inj cut
    rfl

/-- Segments behind the first one have the steps of their parts. -/
theorem filterMap_eq_steps {segments : List Segment}
    (behind : ∀ segment ∈ segments, segment.2 = step? segment.1) :
    segments.filterMap (·.2) = steps (segments.map (·.1)) := by
  rw [steps, List.filterMap_map]
  exact List.filterMap_congr behind

/-- If the components of a path begin with the given ones, its segments can be cut behind
them. -/
theorem exists_afterComponents {expected : List Component} {segments : List Segment}
    (begins : expected <+: segments.filterMap (·.2)) :
    ∃ taken left, afterComponents expected segments = some left ∧ segments = taken ++ left ∧
      taken.filterMap (·.2) = expected := by
  fun_induction afterComponents expected segments with
  | case1 segments => exact ⟨[], segments, rfl, rfl, rfl⟩
  | case2 expected others =>
    have short := begins.length_le
    simp at short
  | case3 expected others segment segments none ih =>
    rw [List.filterMap_cons_none none] at begins
    obtain ⟨taken, left, after, cut, components⟩ := ih begins
    refine ⟨segment :: taken, left, after, by rw [cut, List.cons_append], ?_⟩
    rw [List.filterMap_cons_none none, components]
  | case4 others segment segments found made ih =>
    rw [List.filterMap_cons_some made, List.cons_prefix_cons] at begins
    obtain ⟨taken, left, after, cut, components⟩ := ih begins.2
    refine ⟨segment :: taken, left, after, by rw [cut, List.cons_append], ?_⟩
    rw [List.filterMap_cons_some made, components]
  | case5 expected others segment segments found made other =>
    rw [List.filterMap_cons_some made, List.cons_prefix_cons] at begins
    exact absurd begins.1.symm other

/-- What is dropped at the end of a path makes no component. -/
theorem exists_idleEnd (segments : List Segment) :
    ∃ idle, segments = withoutIdleEnd segments ++ idle ∧ ∀ segment ∈ idle, segment.2 = none := by
  refine ⟨(segments.reverse.takeWhile fun segment => segment.2.isNone).reverse, ?_, ?_⟩
  · rw [withoutIdleEnd, ← List.reverse_append, List.takeWhile_append_dropWhile,
      List.reverse_reverse]
  · intro segment member
    have idle := List.all_eq_true.mp List.all_takeWhile segment (List.mem_reverse.mp member)
    exact Option.isNone_iff_eq_none.mp idle

/-- Without an idle end a path has the same components. -/
theorem filterMap_withoutIdleEnd (segments : List Segment) :
    (withoutIdleEnd segments).filterMap (·.2) = segments.filterMap (·.2) := by
  obtain ⟨idle, cut, none⟩ := exists_idleEnd segments
  have nothing : idle.filterMap (·.2) = [] := List.filterMap_eq_nil_iff.mpr none
  conv => rhs; rw [cut]
  rw [List.filterMap_append, nothing, List.append_nil]

/-- Without an idle front a path has the same components. -/
theorem filterMap_dropWhile_idle (segments : List Segment) :
    (segments.dropWhile fun segment => segment.2.isNone).filterMap (·.2) =
      segments.filterMap (·.2) := by
  induction segments with
  | nil => rfl
  | cons segment others ih =>
    cases made : segment.2 with
    | none =>
      rw [List.dropWhile_cons_of_pos (by rw [made]; rfl), ih, List.filterMap_cons_none made]
    | some component => rw [List.dropWhile_cons_of_neg (by rw [made]; exact Bool.false_ne_true)]

/-! ## Names tell paths apart -/

/-- Below a root that has components, the name of a file has the components that are left of its
path, its backslashes read as slashes. -/
theorem steps_displayName {root path : String} {rest : List Component}
    (filled : components root ≠ []) (below : components path = components root ++ rest)
    (more : rest ≠ []) :
    steps (parts (displayName root path)) = rest.flatMap Component.slashed := by
  have begins : components root <+: (segments path).filterMap (·.2) := ⟨rest, below.symm⟩
  obtain ⟨taken, left, after, cut, takenComponents⟩ := exists_afterComponents begins
  have leftComponents : left.filterMap (·.2) = rest := by
    have whole : components path = taken.filterMap (·.2) ++ left.filterMap (·.2) := by
      rw [components, cut, List.filterMap_append]
    rw [below, takenComponents] at whole
    exact (List.append_cancel_left whole).symm
  -- The first segment belongs to the root, so all that are left make the steps of their texts.
  have behind : ∀ segment ∈ left, segment.2 = step? segment.1 := by
    cases taken with
    | nil => exact absurd takenComponents.symm filled
    | cons first others =>
      intro segment member
      exact step?_of_mem_tail cut segment (List.mem_append_right _ member)
  let kept := (withoutIdleEnd left).dropWhile fun segment => segment.2.isNone
  have keptLeft : ∀ segment ∈ kept, segment ∈ left := by
    intro segment member
    obtain ⟨idle, whole, _⟩ := exists_idleEnd left
    rw [whole]
    exact List.mem_append_left _ ((List.dropWhile_sublist _).subset member)
  have keptSteps : steps (kept.map (·.1)) = rest := by
    rw [← filterMap_eq_steps fun segment member => behind segment (keptLeft segment member),
      filterMap_dropWhile_idle, filterMap_withoutIdleEnd, leftComponents]
  have keptTexts : kept.map (·.1) ≠ [] := by
    intro none
    rw [none] at keptSteps
    exact more keptSteps.symm
  have whole : parts (ofParts (kept.map (·.1))) = kept.map (·.1) := by
    refine parts_ofParts keptTexts fun text member => ?_
    obtain ⟨segment, inside, rfl⟩ := List.mem_map.mp member
    have inPath : segment.1 ∈ parts path := by
      rw [← map_segments, cut]
      exact List.mem_map_of_mem (List.mem_append_right _ (keptLeft segment inside))
    exact slash_not_mem_of_mem_parts inPath
  have shown : ofParts (kept.map (·.1)) ≠ "" := by
    intro empty
    rw [empty] at whole
    rw [← whole] at keptSteps
    exact more keptSteps.symm
  have relative : relativeTo? root path = some (ofParts (kept.map (·.1))) := by
    have removed : (!(components root).isEmpty) = true := by simpa using filled
    rw [relativeTo?, after, Option.map_some, textOf, if_pos removed]
  have name : displayName root path = withSlashes (ofParts (kept.map (·.1))) := by
    rw [displayName, relative, Option.filter_some_pos (by simpa using shown), Option.getD_some]
  rw [name, steps_withSlashes_ofParts keptTexts, keptSteps]

/-- Taking idle parts off the end of a path leaves its components. -/
theorem components_ofParts_withoutIdleEnd {path : String}
    (filled : ofParts ((withoutIdleEnd (segments path)).map (·.1)) ≠ "") :
    components (ofParts ((withoutIdleEnd (segments path)).map (·.1))) = components path := by
  obtain ⟨idle, cut, idleEnd⟩ := exists_idleEnd (segments path)
  have joined : path =
      ofParts ((withoutIdleEnd (segments path)).map (·.1) ++ idle.map (·.1)) := by
    rw [← List.map_append, ← cut, map_segments, ofParts_parts]
  cases kept : withoutIdleEnd (segments path) with
  | nil =>
    rw [kept] at filled
    exact absurd rfl filled
  | cons first others =>
    rw [kept] at cut filled joined
    by_cases none : idle = []
    · rw [none, List.map_nil, List.append_nil] at joined
      rw [← joined]
    · have texts : idle.map (·.1) ≠ [] := by rwa [ne_eq, List.map_eq_nil_iff]
      have whole : parts (ofParts (idle.map (·.1))) = idle.map (·.1) := by
        refine parts_ofParts texts fun text member => ?_
        obtain ⟨segment, inside, rfl⟩ := List.mem_map.mp member
        have inPath : segment.1 ∈ parts path := by
          rw [← map_segments, cut]
          exact List.mem_map_of_mem (List.mem_append_right _ inside)
        exact slash_not_mem_of_mem_parts inPath
      have still : steps (idle.map (·.1)) = [] := by
        rw [← filterMap_eq_steps fun segment member =>
          step?_of_mem_tail cut segment (List.mem_append_right _ member)]
        exact List.filterMap_eq_nil_iff.mpr idleEnd
      have more : (first :: others).map (·.1) ≠ [] := List.cons_ne_nil _ _
      have longer := components_append filled (ofParts (idle.map (·.1)))
      rw [whole, still, List.append_nil, ← ofParts_append more texts, ← joined] at longer
      exact longer.symm

/-- Below a root without components, the name of a file has the components of its path, its
backslashes read as slashes. -/
theorem components_displayName {root path : String} (empty : components root = [])
    (filled : components path ≠ []) :
    components (displayName root path) = components (withSlashes path) := by
  have relative : relativeTo? root path = some (textOf path false (segments path)) := by
    rw [relativeTo?, empty, afterComponents]
    rfl
  have shown : components (((relativeTo? root path).filter fun text => text != "").getD path) =
      components path := by
    rw [relative]
    by_cases blank : textOf path false (segments path) = ""
    · rw [Option.filter_some_neg (by simpa using blank)]
      rfl
    · rw [Option.filter_some_pos (by simpa using blank), Option.getD_some]
      cases kept : withoutIdleEnd (segments path) with
      | nil =>
        have none := filterMap_withoutIdleEnd (segments path)
        rw [kept] at none
        exact absurd none.symm filled
      | cons first others =>
        by_cases alone : (withoutIdleEnd (segments path)).length == 1 && isAbsolute path
        · -- What is left is the slash that the path begins with.
          rw [Bool.and_eq_true, kept, List.length_cons, beq_iff_eq] at alone
          obtain ⟨idle, cut, _⟩ := exists_idleEnd (segments path)
          have single : others = [] := List.length_eq_zero_iff.mp (by omega)
          rw [kept, single, List.singleton_append] at cut
          have lead := lead_eq cut
          rw [if_pos alone.2] at lead
          have whole : _ = components path := filterMap_withoutIdleEnd (segments path)
          rw [kept, single, List.filterMap_cons_some lead] at whole
          have text : textOf path false (segments path) = "/" := by
            simp [textOf, kept, single, alone.2]
          rw [text, ← whole]
          decide
        · have text : textOf path false (segments path) =
              ofParts ((withoutIdleEnd (segments path)).map (·.1)) := by
            simp only [textOf, if_neg alone]
            simp [kept]
          rw [text] at blank ⊢
          exact components_ofParts_withoutIdleEnd blank
  rw [displayName, components_withSlashes, components_withSlashes, shown]

/-- Two paths below a root, neither of them the root itself, that are shown under one name are the
same path once backslashes are read as slashes. -/
theorem components_withSlashes_eq_of_displayName_eq {root path other : String}
    (under : components root <+: components path) (notRoot : components path ≠ components root)
    (otherUnder : components root <+: components other)
    (otherNotRoot : components other ≠ components root)
    (same : displayName root path = displayName root other) :
    components (withSlashes path) = components (withSlashes other) := by
  by_cases empty : components root = []
  · rw [empty] at notRoot otherNotRoot
    rw [← components_displayName empty notRoot, ← components_displayName empty otherNotRoot, same]
  · obtain ⟨rest, below⟩ := under
    obtain ⟨otherRest, otherBelow⟩ := otherUnder
    have more : rest ≠ [] := by
      rintro rfl
      exact notRoot (by rw [← below, List.append_nil])
    have otherMore : otherRest ≠ [] := by
      rintro rfl
      exact otherNotRoot (by rw [← otherBelow, List.append_nil])
    have left := steps_displayName empty below.symm more
    have right := steps_displayName empty otherBelow.symm otherMore
    rw [components_withSlashes, components_withSlashes, ← below, ← otherBelow,
      slashedComponents_append empty, slashedComponents_append empty, ← left, ← right, same]

end CodeClones.Path

namespace CodeClones

open CodeClones.Path Grouping

/-! ## Reading -/

/-- Nothing can be read below what can be read: a file is no directory. -/
def NothingBelowFiles (read : String → Option String) : Prop :=
  ∀ path other, (read path).isSome = true → (read other).isSome = true →
    components path <+: components other → components path = components other

namespace Folder

/-- Where a step from a place leads. -/
def move (place : Place) : Component → Place
  | .parent => containing place
  | .named name => place ++ [name]
  | _ => place

variable {folder : Folder}

/-- Two lists of parts are followed one after the other. -/
theorem follow_append (place : Place) (front back : List String) :
    folder.follow place (front ++ back) =
      (folder.follow place front).bind fun reached => folder.follow reached back := by
  fun_induction folder.follow place front with
  | case1 place => rfl
  | case2 place part others directory idle ih =>
    rw [List.cons_append, follow, if_pos directory, if_pos idle, ih]
  | case3 place others directory up ih =>
    rw [List.cons_append, follow, if_pos directory, if_neg up, if_pos rfl, ih]
  | case4 place part others directory idle up ih =>
    rw [List.cons_append, follow, if_pos directory, if_neg idle, if_neg up, ih]
  | case5 place part others directory =>
    rw [List.cons_append, follow, if_neg directory]
    rfl

/-- Where parts can be followed, they lead where their steps lead. -/
theorem follow_eq_some {place reached : Place} {parts : List String}
    (found : folder.follow place parts = some reached) :
    reached = (steps parts).foldl move place := by
  fun_induction folder.follow place parts with
  | case1 place => exact (Option.some.inj found).symm
  | case2 place part others directory idle ih =>
    have still : step? part = none := by rw [step?, if_pos idle]
    rw [ih found, steps, steps, List.filterMap_cons_none still]
  | case3 place others directory idle ih =>
    have up : step? ".." = some .parent := by decide
    rw [ih found, steps, steps, List.filterMap_cons_some up]
    rfl
  | case4 place part others directory idle up ih =>
    have named : step? part = some (.named part) := by rw [step?, if_neg idle, if_neg up]
    rw [ih found, steps, steps, List.filterMap_cons_some named]
    rfl
  | case5 place part others directory => cases found

/-- A path that goes on starts from a directory. -/
theorem isDirectory_of_follow {place reached : Place} {parts : List String}
    (found : folder.follow place parts = some reached) (more : parts ≠ []) :
    folder.isDirectory place = true := by
  cases parts with
  | nil => exact absurd rfl more
  | cons part others =>
    by_contra file
    rw [follow, if_neg file] at found
    cases found

/-- The segments of a relative path lead where their texts do: a dot in front leads nowhere. -/
theorem foldl_move_segments {path : String} (relative : isAbsolute path = false)
    {taken left : List Segment} (cut : segments path = taken ++ left) (place : Place) :
    (taken.filterMap (·.2)).foldl move place = (steps (taken.map (·.1))).foldl move place := by
  cases taken with
  | nil => rfl
  | cons first others =>
    have behind : others.filterMap (·.2) = steps (others.map (·.1)) :=
      filterMap_eq_steps fun segment member =>
        step?_of_mem_tail cut segment (List.mem_append_left _ member)
    have lead := lead_eq cut
    rw [relative, if_neg Bool.false_ne_true] at lead
    by_cases dot : first.1 = "."
    · have still : step? first.1 = none := by
        rw [dot]
        decide
      rw [if_pos dot] at lead
      rw [List.filterMap_cons_some lead, behind, List.map_cons, steps, steps,
        List.filterMap_cons_none still]
      rfl
    · rw [if_neg dot] at lead
      rw [List.map_cons, steps, List.filterMap_cons, List.filterMap_cons, lead, behind]
      rfl

/-- What a readable path leads to: a file at the place where its components lead. -/
theorem entry?_of_readText? {path : String} (readable : (folder.readText? path).isSome = true) :
    isAbsolute path = false ∧ ∃ place, folder.follow [] (parts path) = some place ∧
      ∃ content, folder.entry? place = some (.file content) := by
  rw [readText?, Option.isSome_map, readBytes?] at readable
  split at readable
  · rename_i content found
    obtain ⟨place, resolved, entry⟩ := Option.bind_eq_some_iff.mp found
    rw [resolve?] at resolved
    split at resolved
    · cases resolved
    · rename_i usable
      rw [Bool.or_eq_true, not_or, Bool.not_eq_true] at usable
      exact ⟨usable.1, place, resolved, content, entry⟩
  · cases readable

/-- In a folder nothing can be read below a file. -/
theorem nothingBelowFiles (folder : Folder) : NothingBelowFiles folder.readText? := by
  intro path other readable otherReadable begins
  obtain ⟨relative, place, reached, content, entry⟩ := entry?_of_readText? readable
  obtain ⟨otherRelative, _, otherReached, _⟩ := entry?_of_readText? otherReadable
  have front : components path <+: (segments other).filterMap (·.2) := begins
  obtain ⟨taken, left, _, cut, takenComponents⟩ := exists_afterComponents front
  by_contra differ
  have placed : place = (components path).foldl move [] := by
    have leads := foldl_move_segments relative (List.append_nil (segments path)).symm []
    rw [map_segments] at leads
    rw [follow_eq_some reached, ← leads]
    rfl
  rw [← map_segments, cut, List.map_append, follow_append] at otherReached
  obtain ⟨middle, front, back⟩ := Option.bind_eq_some_iff.mp otherReached
  have same : middle = place := by
    rw [follow_eq_some front, ← foldl_move_segments otherRelative cut, takenComponents, placed]
  have more : left.map (·.1) ≠ [] := by
    intro none
    rw [List.map_eq_nil_iff] at none
    rw [none, List.append_nil] at cut
    exact differ (by rw [← takenComponents, ← cut]; rfl)
  have directory := isDirectory_of_follow back more
  rw [isDirectory, same, entry] at directory
  cases directory

end Folder

/-! ## Looking locations up -/

/-- What holds of the members of all groups, and of the hull of two adjacent locations of which
it holds, holds of all members after merging. -/
theorem Grouping.forall_mem_mergeRounds {contents : Contents} {property : Location → Prop}
    (hull : ∀ member other, property member → property other →
      adjacent contents member other = true → property (member.hull other))
    {find : List Group → Option (Nat × Nat)} {rounds : Nat} {groups : List Group}
    (all : ∀ group ∈ groups, ∀ member ∈ group, property member) :
    ∀ group ∈ mergeRounds contents find rounds groups, ∀ member ∈ group, property member := by
  induction rounds generalizing groups with
  | zero => exact all
  | succ rounds ih =>
    unfold mergeRounds
    split
    · exact all
    · rename_i first second _
      refine ih ?_
      have held : ∀ position, ∀ member ∈ groups.getD position [], property member := by
        intro position member inside
        rw [List.getD_eq_getElem?_getD] at inside
        cases found : groups[position]? with
        | none =>
          rw [found] at inside
          cases inside
        | some group =>
          rw [found] at inside
          exact all group (List.mem_of_getElem? found) member inside
      intro group inside member inGroup
      rcases List.mem_append.mp inside with kept | merged
      · exact all group (List.mem_of_mem_eraseIdx (List.mem_of_mem_eraseIdx kept)) member inGroup
      · rw [List.mem_singleton.mp merged] at inGroup
        obtain ⟨origin, inFirst, rfl⟩ := List.mem_map.mp inGroup
        have own := held first origin inFirst
        split
        · rename_i partner found
          have next : adjacent contents origin partner = true := List.find?_some found
          have other := held second partner (List.mem_of_find?_eq_some found)
          exact hull origin partner own other next
        · exact own

/-- The location begins where one of the candidates of its file does. -/
def Location.BeginsAmong (candidates : List Candidate) (location : Location) : Prop :=
  ∃ candidate ∈ candidates, candidate.file = location.file ∧
    candidate.span.start = location.start

/-- Every location in a group of clones begins where a candidate does. -/
theorem Grouping.beginsAmong_of_mem_cloneGroups {candidates : List Candidate}
    {options : GroupingOptions} {group : Group} {location : Location}
    (inside : group ∈ cloneGroups candidates options) (member : location ∈ group) :
    location.BeginsAmong candidates := by
  have kept := (eliminateFrom_sublist ∅ _).subset inside
  obtain ⟨raw, made, rfl⟩ := List.mem_map.mp (List.mem_filter.mp kept).1
  obtain ⟨base, inBase, isHead, others⟩ := exists_base_of_mem_rawGroups made
  obtain ⟨tail, rfl⟩ := List.head?_eq_some_iff.mp isHead
  rcases List.mem_cons.mp (mem_distinct.mp member) with rfl | member
  · exact ⟨base, inBase, rfl, rfl⟩
  · obtain ⟨candidate, present, rfl, _⟩ := others location member
    exact ⟨candidate, present, rfl, rfl⟩

/-- Two adjacent locations merge into one that begins where a candidate does. -/
theorem Location.BeginsAmong.hull {contents : Contents} {candidates : List Candidate}
    {first second : Location} (begins : first.BeginsAmong candidates)
    (otherBegins : second.BeginsAmong candidates) (next : adjacent contents first second = true) :
    (first.hull second).BeginsAmong candidates := by
  obtain ⟨left, inLeft, leftFile, leftStart⟩ := begins
  obtain ⟨right, inRight, rightFile, rightStart⟩ := otherBegins
  have same := (adjacent_iff.mp next).1
  rcases Nat.le_total first.start second.start with le | le
  · exact ⟨left, inLeft, leftFile, leftStart.trans (Nat.min_eq_left le).symm⟩
  · exact ⟨right, inRight, rightFile.trans same.symm, rightStart.trans (Nat.min_eq_right le).symm⟩

/-- Every reported location begins where a candidate of its file does. -/
theorem beginsAmong_of_mem_findClones {candidates : List Candidate} {files : List SourceFile}
    {options : GroupingOptions} {group : Group} {location : Location}
    (reported : group ∈ findClones candidates files options) (member : location ∈ group) :
    location.BeginsAmong candidates :=
  forall_mem_mergeRounds (fun _ _ => Location.BeginsAmong.hull)
    (fun _ inside _ => beginsAmong_of_mem_cloneGroups inside) group
    (List.mem_filter.mp reported).1 location member

/-- A location begins where a candidate begins that was found in the text that a path leads to. -/
structure Location.FoundIn (read : String → Option String) (root : String) (parser : Parser)
    (scope : Scope) (path content : String) (location : Location) : Prop where
  /-- The path leads to the text. -/
  readable : read path = some content
  /-- The location refers to the path by the name under which it is shown. -/
  named : displayName root path = location.file
  /-- A candidate of the text begins where the location does. -/
  found : ∃ program, parser location.file content = some program ∧
    ∃ candidate ∈ Candidate.collect location.file parser.prologue scope program.body,
      candidate.span.start = location.start

variable {read : String → Option String} {root : String} {paths : List String}

/-- Different paths below a root are read as files of different names, unless they are the same
once backslashes are read as slashes. -/
theorem nodup_names_readSources (flat : NothingBelowFiles read)
    (under : ∀ path ∈ paths, components root <+: components path)
    (different : paths.Pairwise fun path other =>
      components (withSlashes path) ≠ components (withSlashes other)) :
    ((readSources read root paths).map (·.name)).Nodup := by
  rw [List.Nodup, List.pairwise_map, readSources, List.pairwise_filterMap]
  refine different.imp_of_mem ?_
  intro path other inPaths otherInPaths differ file isFile otherFile isOther same
  obtain ⟨content, readable, rfl⟩ := Option.map_eq_some_iff.mp isFile
  obtain ⟨otherContent, otherReadable, rfl⟩ := Option.map_eq_some_iff.mp isOther
  have some : (read path).isSome = true := by rw [readable]; rfl
  have otherSome : (read other).isSome = true := by rw [otherReadable]; rfl
  -- Equal components stay equal when backslashes are read as slashes.
  have apart : components path ≠ components other := by
    intro equal
    exact differ (by rw [components_withSlashes, components_withSlashes, equal])
  have notRoot : components path ≠ components root := by
    intro isRoot
    exact apart (flat path other some otherSome (isRoot ▸ under other otherInPaths))
  have otherNotRoot : components other ≠ components root := by
    intro isRoot
    exact apart (flat other path otherSome some (isRoot ▸ under path inPaths)).symm
  exact differ (components_withSlashes_eq_of_displayName_eq (under path inPaths) notRoot
    (under other otherInPaths) otherNotRoot same)

/-- Among files of different names, a reported location was found in the file that its name
gives. -/
theorem exists_foundIn_of_mem_findClones {parser : Parser} {scope : Scope}
    {options : GroupingOptions} {group : Group} {location : Location}
    (distinct : ((readSources read root paths).map (·.name)).Nodup)
    (reported : group ∈ findClones
      (Extraction.ofFiles parser scope (readSources read root paths)).candidates
      (readSources read root paths) options)
    (member : location ∈ group) :
    ∃ path ∈ paths, ∃ content, location.FoundIn read root parser scope path content ∧
      fileNamed? (readSources read root paths) location.file = some ⟨location.file, content⟩ := by
  obtain ⟨candidate, collected, sameFile, sameStart⟩ :=
    beginsAmong_of_mem_findClones reported member
  obtain ⟨parsed, inFiles, inFile⟩ := List.mem_flatMap.mp collected
  obtain ⟨file, given, parsedAs⟩ := List.mem_filterMap.mp inFiles
  obtain ⟨program, accepted, rfl⟩ := Option.map_eq_some_iff.mp parsedAs
  obtain ⟨item, _, origin⟩ := Candidate.comesFrom_of_mem_collect inFile
  have name : file.name = location.file := origin.file_eq.symm.trans sameFile
  have lookup := fileNamed?_eq_some distinct given
  obtain ⟨path, inPaths, readAs⟩ := List.mem_filterMap.mp given
  obtain ⟨content, readable, rfl⟩ := Option.map_eq_some_iff.mp readAs
  rw [name] at accepted inFile lookup
  dsimp only at name lookup
  rw [name] at lookup
  exact ⟨path, inPaths, content,
    ⟨readable, name, program, accepted, candidate, inFile, sameStart⟩, lookup⟩

/-- Paths below a root, no two of which are the same once backslashes are read as slashes, give
files of different names. Then for every reported location there is one text that was read from
a path and in which the location was found, and this text is used both to tell whether locations
are adjacent and to show the location in the report. -/
theorem readSources_apart (read : String → Option String) (root : String) (paths : List String)
    (flat : NothingBelowFiles read)
    (under : ∀ path ∈ paths, components root <+: components path)
    (different : paths.Pairwise fun path other =>
      components (withSlashes path) ≠ components (withSlashes other)) :
    ((readSources read root paths).map (·.name)).Nodup ∧
    ∀ (parser : Parser) (scope : Scope) (options : GroupingOptions),
      let files := readSources read root paths
      let groups := findClones (Extraction.ofFiles parser scope files).candidates files options
      ∃ text : Location → String,
        (∀ group ∈ groups, ∀ location ∈ group,
          (∃ path ∈ paths, location.FoundIn read root parser scope path (text location)) ∧
          contentOf? files location.file = some (text location)) ∧
        Report.ofGroups files groups = ⟨groups.map fun group => group.map fun location =>
          .ofLocation (some (.ofFile ⟨location.file, text location⟩)) location⟩ := by
  have distinct := nodup_names_readSources flat under different
  refine ⟨distinct, ?_⟩
  intro parser scope options files groups
  refine ⟨fun location => (contentOf? files location.file).getD "", ?_, ?_⟩
  · intro group reported location member
    obtain ⟨path, inPaths, content, found, file⟩ :=
      exists_foundIn_of_mem_findClones distinct reported member
    have text : contentOf? files location.file = some content := by
      rw [contentOf?, file, Option.map_some]
    dsimp only
    rw [text]
    exact ⟨⟨path, inPaths, found⟩, rfl⟩
  · have entries : ∀ group ∈ groups, ∀ location ∈ group,
        ((files.map IndexedFile.ofFile).findRev? fun entry => entry.file.name == location.file) =
          some (.ofFile ⟨location.file, (contentOf? files location.file).getD ""⟩) := by
      intro group reported location member
      obtain ⟨path, inPaths, content, found, file⟩ :=
        exists_foundIn_of_mem_findClones distinct reported member
      rw [findRev?_indexed, contentOf?, file]
      rfl
    rw [Report.ofGroups]
    congr 1
    refine List.map_congr_left fun group reported => List.map_congr_left fun location member => ?_
    rw [entries group reported location member]

/-- Two files in different directories, one of which has a name with a backslash. -/
def backslashFolder : Folder :=
  ⟨[(["a", "b.ts"], .file [120]), (["c\\b.ts"], .file [121])], ""⟩

/-- A backslash by itself does no harm. -/
theorem readSources_apart_backslashFolder :
    NothingBelowFiles backslashFolder.readText? ∧
    (∀ path ∈ ["./a/b.ts", "./c\\b.ts"], components "." <+: components path) ∧
    ["./a/b.ts", "./c\\b.ts"].Pairwise (fun path other =>
      components (withSlashes path) ≠ components (withSlashes other)) ∧
    readSources backslashFolder.readText? "." ["./a/b.ts", "./c\\b.ts"] =
      [⟨"a/b.ts", "x"⟩, ⟨"c/b.ts", "y"⟩] ∧
    ((readSources backslashFolder.readText? "." ["./a/b.ts", "./c\\b.ts"]).map (·.name)).Nodup := by
  have under : ∀ path ∈ ["./a/b.ts", "./c\\b.ts"], components "." <+: components path := by
    decide +kernel
  have different : ["./a/b.ts", "./c\\b.ts"].Pairwise (fun path other =>
      components (withSlashes path) ≠ components (withSlashes other)) := by decide +kernel
  exact ⟨backslashFolder.nothingBelowFiles, under, different, by decide +kernel,
    (readSources_apart _ _ _ backslashFolder.nothingBelowFiles under different).1⟩

/-- A file in a directory, and one whose name has a backslash in the place of the slash. -/
def collidingFolder : Folder :=
  ⟨[(["a", "b.ts"], .file [120]), (["a\\b.ts"], .file [121])], ""⟩

/-- The two paths are different and below the root, and both can be read, but both files get one
name, under which the text of the second is found for the first. -/
theorem readSources_collide :
    NothingBelowFiles collidingFolder.readText? ∧
    (∀ path ∈ ["./a/b.ts", "./a\\b.ts"], components "." <+: components path) ∧
    components "./a/b.ts" ≠ components "./a\\b.ts" ∧
    readSources collidingFolder.readText? "." ["./a/b.ts", "./a\\b.ts"] =
      [⟨"a/b.ts", "x"⟩, ⟨"a/b.ts", "y"⟩] ∧
    ¬ ((readSources collidingFolder.readText? "." ["./a/b.ts", "./a\\b.ts"]).map
      (·.name)).Nodup ∧
    contentOf? (readSources collidingFolder.readText? "." ["./a/b.ts", "./a\\b.ts"]) "a/b.ts" =
      some "y" := by
  refine ⟨collidingFolder.nothingBelowFiles, ?_, ?_, ?_, ?_, ?_⟩
  all_goals decide +kernel

end CodeClones
