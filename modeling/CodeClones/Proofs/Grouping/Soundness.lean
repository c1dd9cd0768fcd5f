import CodeClones.Proofs.Grouping.Adjacency
import CodeClones.Proofs.Grouping.Classes
import Mathlib.Data.List.Chain
import Mathlib.Data.List.Forall2

/-!
# Reported groups are clones

A member of a reported group need not be the place of one candidate: merging joins neighbours,
and may do so many times. What holds through all rounds is that the members of a group split
into rows of candidates, equally many in each, that stand one behind the other with only
whitespace in between and are alike place by place. A raw group has rows of one candidate, all
alike to its base, and joining two adjacent groups puts their rows one behind the other.
-/

namespace CodeClones.Grouping

open Syntax

variable {contents : Contents} {candidates : List Candidate} {names : Bool}

/-! ## Rows of candidates -/

/-- The location consists of a row of candidates with only whitespace between neighbours. -/
structure SplitsInto (contents : Contents) (candidates : List Candidate) (location : Location)
    (row : List Candidate) : Prop where
  /-- Every piece is a candidate. -/
  candidate : ∀ piece ∈ row, piece ∈ candidates
  /-- Every piece stands in the file of the location. -/
  file : ∀ piece ∈ row, piece.file = location.file
  /-- The first piece begins where the location begins. -/
  start : row.head?.map (·.span.start) = some location.start
  /-- The last piece ends where the location ends. -/
  stop : row.getLast?.map (·.span.stop) = some location.stop
  /-- Only whitespace stands between a piece and the next one. -/
  gaps : (row.map Location.ofCandidate).IsChain (GapBetween contents)

/-- The place of a candidate is a row of one piece. -/
theorem splitsInto_ofCandidate {candidate : Candidate} (inside : candidate ∈ candidates) :
    SplitsInto contents candidates (Location.ofCandidate candidate) [candidate] where
  candidate _ held := List.mem_singleton.mp held ▸ inside
  file _ held := List.mem_singleton.mp held ▸ rfl
  start := rfl
  stop := rfl
  gaps := List.IsChain.singleton _

/-- A location splits into a row of candidates when it is made of their places. -/
theorem splitsInto_iff {location : Location} {row : List Candidate} :
    SplitsInto contents candidates location row ↔
      (∀ piece ∈ row, piece ∈ candidates) ∧
        MadeOf contents location (row.map Location.ofCandidate) := by
  have begins : ((row.map Location.ofCandidate).head?.map (·.start)) =
      row.head?.map (·.span.start) := by
    rw [List.head?_map, Option.map_map]
    rfl
  have ends : ((row.map Location.ofCandidate).getLast?.map (·.stop)) =
      row.getLast?.map (·.span.stop) := by
    rw [List.getLast?_map, Option.map_map]
    rfl
  constructor
  · intro split
    exact ⟨split.candidate, {
      file := List.forall_mem_map.mpr split.file
      start := begins.trans split.start
      stop := ends.trans split.stop
      gaps := split.gaps }⟩
  · rintro ⟨candidate, made⟩
    exact ⟨candidate, List.forall_mem_map.mp made.file, begins.symm.trans made.start,
      ends.symm.trans made.stop, made.gaps⟩

/-- The rows of two adjacent locations, one behind the other, are a row of their hull. -/
theorem SplitsInto.hull {first second : Location} {row row' : List Candidate}
    (front : SplitsInto contents candidates first row)
    (back : SplitsInto contents candidates second row')
    (ordered : first.start ≤ first.stop) (ordered' : second.start ≤ second.stop)
    (next : adjacent contents first second = true) :
    SplitsInto contents candidates (first.hull second) (row ++ row') := by
  rw [splitsInto_iff] at front back ⊢
  refine ⟨List.forall_mem_append.mpr ⟨front.1, back.1⟩, ?_⟩
  rw [List.map_append]
  exact front.2.hull back.2 ordered ordered' next

/-- Two rows have equally many pieces, and those at the same place are alike. -/
def RowsAlike (names : Bool) (row row' : List Candidate) : Prop :=
  List.Forall₂ (fun piece piece' => piece.node.alike names piece'.node = true) row row'

/-- Rows that are alike to one row are alike to each other. -/
theorem RowsAlike.through {pattern row row' : List Candidate} (left : RowsAlike names pattern row)
    (right : RowsAlike names pattern row') : RowsAlike names row row' := by
  induction left generalizing row' with
  | nil =>
    cases right with
    | nil => exact List.Forall₂.nil
  | cons alike _ ih =>
    cases right with
    | cons alike' others =>
      have alike'' := Node.alike_trans (Node.alike_symm alike) alike'
      exact List.Forall₂.cons alike'' (ih others)

/-! ## What every round keeps -/

/-- The group has at least two members, all within their files, and they split into rows of
candidates that are alike to one row. -/
structure Sound (contents : Contents) (candidates : List Candidate) (names : Bool)
    (group : Group) : Prop where
  /-- The members begin and end between characters. -/
  fits : ∀ member ∈ group, FitsIn contents member
  /-- There are at least two members. -/
  repeated : 2 ≤ group.length
  /-- The members split into rows of candidates that are alike to one row. -/
  rows : ∃ pattern, ∀ member ∈ group, ∃ row, SplitsInto contents candidates member row ∧
    RowsAlike names pattern row

/-- The members of a sound group split into rows of equally many candidates that are alike
place by place. -/
theorem Sound.exists_pieces {group : Group} (sound : Sound contents candidates names group) :
    ∃ count, 1 ≤ count ∧ ∃ pieces : Location → List Candidate,
      (∀ member ∈ group, (pieces member).length = count ∧
        SplitsInto contents candidates member (pieces member)) ∧
      ∀ member ∈ group, ∀ other ∈ group, RowsAlike names (pieces member) (pieces other) := by
  obtain ⟨pattern, rows⟩ := sound.rows
  choose! pieces splits alike using rows
  have sizes : ∀ member ∈ group, (pieces member).length = pattern.length :=
    fun member inside => (alike member inside).length_eq.symm
  refine ⟨pattern.length, ?_, pieces, ?_, ?_⟩
  · have repeated := sound.repeated
    obtain ⟨member, inside⟩ := List.exists_mem_of_length_pos (by omega : 0 < group.length)
    obtain ⟨head, isHead, _⟩ := Option.map_eq_some_iff.mp (splits member inside).start
    rw [← sizes member inside]
    exact List.length_pos_of_mem (List.mem_of_head? isHead)
  · exact fun member inside => ⟨sizes member inside, splits member inside⟩
  · exact fun member inside other inside' =>
      (alike member inside).through (alike other inside')

/-- The merger of two adjacent groups is sound if they are. -/
theorem Sound.merge {group other : Group} (sound : Sound contents candidates names group)
    (sound' : Sound contents candidates names other)
    (next : groupsAdjacent contents group other = true) :
    Sound contents candidates names (mergeGroups contents group other) := by
  refine ⟨fitsIn_of_mem_mergeGroups sound.fits sound'.fits next, ?_, ?_⟩
  · rw [mergeGroups, List.length_map]
    exact sound.repeated
  · obtain ⟨pattern, rows⟩ := sound.rows
    obtain ⟨pattern', rows'⟩ := sound'.rows
    refine ⟨pattern ++ pattern', fun location inside => ?_⟩
    obtain ⟨member, held, partner, held', near, rfl⟩ := exists_of_mem_mergeGroups next inside
    obtain ⟨row, split, alike⟩ := rows member held
    obtain ⟨row', split', alike'⟩ := rows' partner held'
    exact ⟨row ++ row', split.hull split' (sound.fits member held).ordered
      (sound'.fits partner held').ordered near, List.rel_append alike alike'⟩

/-- The groups of clones are sound before merging if the candidates stand within their files. -/
theorem sound_of_mem_cloneGroups {options : GroupingOptions} {group : Group}
    (fits : ∀ candidate ∈ candidates, FitsIn contents (Location.ofCandidate candidate))
    (inside : group ∈ cloneGroups candidates options) :
    Sound contents candidates options.names group := by
  have kept := (eliminateFrom_sublist ∅ _).subset inside
  obtain ⟨made, several⟩ := List.mem_filter.mp kept
  rw [decide_eq_true_eq] at several
  obtain ⟨raw, rawMade, rfl⟩ := List.mem_map.mp made
  obtain ⟨base, inBase, isHead, others⟩ := exists_base_of_mem_rawGroups rawMade
  obtain ⟨tail, rfl⟩ := List.head?_eq_some_iff.mp isHead
  -- A second member is alike to the base, so the base is alike to itself.
  have self : base.node.alike options.names base.node = true := by
    have long := (distinct_sublist (Location.ofCandidate base :: tail)).length_le
    rw [List.length_cons] at long
    obtain ⟨second, inTail⟩ := List.exists_mem_of_length_pos (by omega : 0 < tail.length)
    obtain ⟨candidate, _, _, alike⟩ := others second inTail
    exact Node.alike_self_of_alike alike
  have members : ∀ member ∈ distinct (Location.ofCandidate base :: tail),
      ∃ candidate ∈ candidates, Location.ofCandidate candidate = member ∧
        base.node.alike options.names candidate.node = true := by
    intro member held
    rcases List.mem_cons.mp (mem_distinct.mp held) with rfl | held
    · exact ⟨base, inBase, rfl, self⟩
    · exact others member held
  refine ⟨?_, several, [base], ?_⟩
  · intro member held
    obtain ⟨candidate, present, rfl, _⟩ := members member held
    exact fits candidate present
  · intro member held
    obtain ⟨candidate, present, rfl, alike⟩ := members member held
    exact ⟨[candidate], splitsInto_ofCandidate present, List.Forall₂.nil.cons alike⟩

/-! ## The report -/

/-- Every reported group has at least two members and a base as long as the threshold, and its
members split into rows of equally many candidates that are alike place by place. -/
theorem findClones_sound (candidates : List Candidate) (files : List SourceFile)
    (options : GroupingOptions)
    (fits : ∀ candidate ∈ candidates,
      FitsIn (contentOf? files) (Location.ofCandidate candidate)) :
    ∀ group ∈ findClones candidates files options,
      2 ≤ group.length ∧ (∃ base, group.head? = some base ∧ options.threshold ≤ base.length) ∧
        ∃ count, 1 ≤ count ∧ ∃ pieces : Location → List Candidate,
          (∀ member ∈ group, (pieces member).length = count ∧
            SplitsInto (contentOf? files) candidates member (pieces member)) ∧
          ∀ member ∈ group, ∀ other ∈ group,
            RowsAlike options.names (pieces member) (pieces other) := by
  intro group reported
  obtain ⟨merged, long⟩ := List.mem_filter.mp reported
  obtain ⟨base, isBase, enough⟩ := (Option.any_eq_true _ _).mp long
  have sound : Sound (contentOf? files) candidates options.names group :=
    mergeAdjacent_induction (fun _ sound => sound.fits) (fun _ _ => Sound.merge)
      (fun _ inside => sound_of_mem_cloneGroups fits inside) group merged
  exact ⟨sound.repeated, ⟨base, isBase, of_decide_eq_true enough⟩, sound.exists_pieces⟩

/-- Two statements that are written twice, with a blank between the two. -/
def statementsTwice : List Candidate :=
  [⟨"f", ⟨0, 9⟩, .mk ⟨0, 9⟩ .debuggerStatement .done⟩,
    ⟨"f", ⟨10, 11⟩, .mk ⟨10, 11⟩ .emptyStatement .done⟩,
    ⟨"f", ⟨11, 20⟩, .mk ⟨11, 20⟩ .debuggerStatement .done⟩,
    ⟨"f", ⟨21, 22⟩, .mk ⟨21, 22⟩ .emptyStatement .done⟩]

/-- The two statements are reported as one clone. -/
theorem findClones_statementsTwice :
    findClones statementsTwice [⟨"f", "debugger; ;debugger; ;"⟩] ⟨11, false, none⟩ =
      [[⟨"f", 0, 11⟩, ⟨"f", 11, 22⟩]] := by
  unfold findClones
  rw [cloneGroups_eq_classesLedBy (by decide), mergeAdjacent_eq_plain (by decide +kernel)]
  decide +kernel

/-- The members of that clone split into rows of candidates that are alike place by place. -/
theorem findClones_sound_statementsTwice :
    (∀ candidate ∈ statementsTwice, FitsIn (contentOf? [⟨"f", "debugger; ;debugger; ;"⟩])
      (Location.ofCandidate candidate)) ∧
    ∃ count, 1 ≤ count ∧ ∃ pieces : Location → List Candidate,
      (∀ member ∈ [⟨"f", 0, 11⟩, ⟨"f", 11, 22⟩], (pieces member).length = count ∧
        SplitsInto (contentOf? [⟨"f", "debugger; ;debugger; ;"⟩]) statementsTwice member
          (pieces member)) ∧
      RowsAlike false (pieces ⟨"f", 0, 11⟩) (pieces ⟨"f", 11, 22⟩) := by
  have fits : ∀ candidate ∈ statementsTwice, FitsIn
      (contentOf? [⟨"f", "debugger; ;debugger; ;"⟩]) (Location.ofCandidate candidate) := by
    decide +kernel
  have reported := findClones_sound statementsTwice _ ⟨11, false, none⟩ fits
  rw [findClones_statementsTwice] at reported
  obtain ⟨_, _, count, positive, pieces, splits, alike⟩ := reported _ List.mem_cons_self
  exact ⟨fits, count, positive, pieces, splits,
    alike _ List.mem_cons_self _ (List.mem_cons_of_mem _ List.mem_cons_self)⟩

end CodeClones.Grouping
