import CodeClones.Detection
import CodeClones.Proofs.Grouping.Elimination
import CodeClones.Proofs.Likeness
import Mathlib.Data.List.FinRange

/-!
# Raw groups as a plain scan

Raw grouping looks up candidates by kind and goes through them in chunks, each behind a question to
the deadline. What comes out is what comparing every candidate to every other one gives, up to the
chunk that comes too late; from there on every candidate is alone. Groups of one do not survive, so
the groups before merging of a run that is cut off are the first ones of a run that is not.
-/

namespace CodeClones.Grouping

open Syntax

/-! ## Raw groups without the table -/

/-- The table of kinds holds, under each kind, the entries of that kind in order. -/
theorem byKind_getD (entries : List Numbered) (kind : Kind) :
    (byKind entries).getD kind [] = entries.filter fun entry => entry.1.node.kind == kind := by
  induction entries with
  | nil => simp [byKind]
  | cons entry others ih =>
    have step : byKind (entry :: others) = (byKind others).insert entry.1.node.kind
        (entry :: (byKind others).getD entry.1.node.kind []) := rfl
    rw [step, Std.HashMap.getD_insert, List.filter_cons]
    by_cases same : entry.1.node.kind = kind
    · subst same
      simp only [beq_self_eq_true, if_true, ih]
    · have different : (entry.1.node.kind == kind) = false := by simpa using same
      simp only [different, Bool.false_eq_true, if_false, ih]

/-- Peers of another kind never enter a group. -/
theorem groupOf_filter_kind (names : Bool) (peers : List Numbered) (base : Numbered) :
    groupOf names (peers.filter fun peer => peer.1.node.kind == base.1.node.kind) base =
      groupOf names peers base := by
  unfold groupOf
  rw [List.filter_filter]
  congr 2
  apply List.filter_congr
  intro peer _
  cases alike : base.1.node.alike names peer.1.node with
  | false => simp
  | true => simp [Node.kind_eq_of_alike alike]

/-! ## Raw groups without chunks -/

/-- If there are candidates, none is compared when the first question comes too late; else a chunk
is, and then as many as the later questions allow. -/
theorem compared_some_of_pos (late : Deadline) {count : Nat} (more : 0 < count) :
    compared (some late) count =
      if late 0 then 0
      else min count
        (chunkSize + compared (some fun chunk => late (chunk + 1)) (count - chunkSize)) := by
  have chunks : (count + chunkSize - 1) / chunkSize =
      (count - chunkSize + chunkSize - 1) / chunkSize + 1 := by
    unfold chunkSize
    omega
  simp only [compared]
  rw [chunks, List.range_succ_eq_map, List.find?_cons, List.find?_map]
  cases late 0 with
  | true => simp
  | false =>
    simp only [Bool.false_eq_true, if_false, Function.comp_def, Nat.succ_eq_add_one]
    cases found : (List.range ((count - chunkSize + chunkSize - 1) / chunkSize)).find?
      fun chunk => late (chunk + 1) with
    | none =>
      simp only [Option.map_none]
      omega
    | some chunk =>
      have early := List.mem_range.mp (List.mem_of_find?_eq_some found)
      unfold chunkSize at early ⊢
      simp only [Option.map_some]
      omega

/-- Going through the candidates in chunks compares as many as there are before time runs out. -/
theorem groupChunks_eq (compare : Numbered → Group) (late : Deadline) (question : Nat)
    (left : List Numbered) :
    groupChunks compare late question left =
      (left.take (compared (some fun chunk => late (question + chunk)) left.length)).map compare ++
        (left.drop (compared (some fun chunk => late (question + chunk)) left.length)).map
          alone := by
  fun_induction groupChunks compare late question left with
  | case1 question => simp
  | case2 question first others isLate =>
    have more : 0 < (first :: others).length := Nat.succ_pos others.length
    have nothing := (compared_some_of_pos (fun chunk => late (question + chunk)) more).trans
      (if_pos isLate)
    rw [nothing]
    simp
  | case3 question first others inTime ih =>
    have more : 0 < (first :: others).length := Nat.succ_pos others.length
    have later : (fun chunk => late (question + (chunk + 1))) =
        fun chunk => late (question + 1 + chunk) := by
      funext chunk
      rw [Nat.add_right_comm, Nat.add_assoc]
    have further := (compared_some_of_pos (fun chunk => late (question + chunk)) more).trans
      (if_neg inTime)
    -- The last chunk may be short; taking more than there is takes all.
    rw [later, ← List.length_drop, Nat.min_comm] at further
    rw [ih, further, ← List.take_eq_take_min, ← List.drop_eq_drop_min, List.take_add,
      List.map_append, List.append_assoc, List.drop_drop]

/-- Without a deadline, every candidate is compared to all others. -/
theorem rawGroups_none (names : Bool) (candidates : List Candidate) :
    rawGroups names none candidates = candidates.zipIdx.map (groupOf names candidates.zipIdx) := by
  simp only [rawGroups, byKind_getD, groupOf_filter_kind]

/-- The candidates that are compared in time have the groups of all that are alike to them, and the
others are alone. -/
theorem rawGroups_eq_split (names : Bool) (deadline : Option Deadline)
    (candidates : List Candidate) :
    rawGroups names deadline candidates =
      (candidates.zipIdx.take (compared deadline candidates.length)).map
          (groupOf names candidates.zipIdx) ++
        (candidates.zipIdx.drop (compared deadline candidates.length)).map alone := by
  cases deadline with
  | none =>
    rw [rawGroups_none, compared, List.take_of_length_le (by simp),
      List.drop_of_length_le (by simp), List.map_nil, List.append_nil]
  | some late =>
    simp only [rawGroups, byKind_getD, groupOf_filter_kind, groupChunks_eq, Nat.zero_add,
      List.length_zipIdx]

/-- Treating what stands in front of a position in one way and all else in another splits the
list there. -/
theorem map_zipIdx_ite {α β : Type} (list : List α) (cut : Nat) (early late : α × Nat → β) :
    (list.zipIdx.map fun entry => if entry.2 < cut then early entry else late entry) =
      (list.zipIdx.take cut).map early ++ (list.zipIdx.drop cut).map late := by
  apply List.ext_getElem?
  intro position
  simp only [List.getElem?_map, List.getElem?_zipIdx, List.getElem?_append, List.length_map,
    List.length_take, List.getElem?_take, List.getElem?_drop, List.length_zipIdx]
  grind

/-- Comparing within kinds and in chunks gives the same groups as comparing all candidates. -/
theorem rawGroups_eq_plain (names : Bool) (deadline : Option Deadline)
    (candidates : List Candidate) :
    rawGroups names deadline candidates = rawGroupsPlain names deadline candidates := by
  rw [rawGroups_eq_split, rawGroupsPlain]
  exact (map_zipIdx_ite candidates _ (groupOf names candidates.zipIdx) alone).symm

/-! ## The scan and where it is cut off -/

/-- The location of the candidate at a position, then those of all candidates at other positions
that are alike to it, in the order of the candidates. -/
def scanAt (names : Bool) (candidates : List Candidate) (position : Fin candidates.length) :
    Group :=
  Location.ofCandidate candidates[position] ::
    ((List.finRange candidates.length).filter fun other =>
      other != position && candidates[position].node.alike names candidates[other].node).map
        fun other => Location.ofCandidate candidates[other]

/-- Where the comparison of so many candidates is cut off. -/
inductive CutsOff (count : Nat) : Option Deadline → Nat → Prop where
  /-- Without a deadline, all are compared. -/
  | unlimited : CutsOff count none count
  /-- All are compared if no question comes too late. -/
  | inTime {late : Deadline} (never : ∀ chunk, chunk * 256 < count → late chunk = false) :
      CutsOff count (some late) count
  /-- Nothing is compared from the first question on that comes too late. -/
  | tooLate {late : Deadline} {chunk : Nat} (before : chunk * 256 < count)
      (fires : late chunk = true) (first : ∀ earlier < chunk, late earlier = false) :
      CutsOff count (some late) (chunk * 256)

/-- The comparison is cut off behind the candidates that are compared before time runs out. -/
theorem cutsOff_compared (deadline : Option Deadline) (count : Nat) :
    CutsOff count deadline (compared deadline count) := by
  cases deadline with
  | none => exact .unlimited
  | some late =>
    have asked : ∀ chunk, chunk < (count + chunkSize - 1) / chunkSize ↔ chunk * 256 < count := by
      intro chunk
      unfold chunkSize
      omega
    simp only [compared]
    split
    · rename_i chunk found
      obtain ⟨fires, early, first⟩ := List.find?_range_eq_some.mp found
      refine .tooLate ((asked chunk).mp (List.mem_range.mp early)) fires fun earlier before => ?_
      simpa using first earlier before
    · rename_i found
      refine .inTime fun chunk early => ?_
      exact Bool.eq_false_of_not_eq_true
        (List.find?_eq_none.mp found chunk (List.mem_range.mpr ((asked chunk).mpr early)))

/-- The entries of a list with positions, by position. -/
theorem zipIdx_eq_map_finRange (candidates : List Candidate) :
    candidates.zipIdx = (List.finRange candidates.length).map fun position =>
      (candidates[position], position.val) := by
  apply List.ext_getElem
  · simp
  · intro position _ _
    simp

/-- Comparing the candidate at a position to all others is the scan for that position. -/
theorem groupOf_zipIdx (names : Bool) (candidates : List Candidate)
    (position : Fin candidates.length) :
    groupOf names candidates.zipIdx (candidates[position], position.val) =
      scanAt names candidates position := by
  unfold groupOf scanAt
  rw [zipIdx_eq_map_finRange, List.filter_map, List.map_map]
  congr 3
  funext other
  have positions : (other.val != position.val) = (other != position) := by
    rw [Bool.eq_iff_iff, bne_iff_ne, bne_iff_ne, ne_eq, ne_eq, Fin.ext_iff]
  rw [Function.comp_apply, positions]

/-- A group of at least two locations is not empty. -/
theorem ne_nil_of_mem_large {groups : List Group} {group : Group}
    (kept : group ∈ groups.filter fun group => 1 < group.length) : group ≠ [] := by
  have large := of_decide_eq_true (List.mem_filter.mp kept).2
  exact List.ne_nil_of_length_pos (by omega)

/-- Candidates that are compared to nothing are in no group of at least two. -/
theorem large_alone_eq_nil (bases : List Numbered) :
    (((bases.map alone).map distinct).filter fun group => 1 < group.length) = [] := by
  rw [List.map_map, List.filter_eq_nil_iff, List.forall_mem_map]
  intro base _
  rw [Function.comp_apply, alone, distinct_eq_self (List.nodup_singleton _)]
  simp

/-- The groups before merging of a run that is cut off are the first ones of a run that is not. -/
theorem cloneGroups_isPrefix (candidates : List Candidate) (names : Bool)
    (deadline : Option Deadline) (threshold : Nat) :
    cloneGroups candidates ⟨threshold, names, deadline⟩ <+:
      cloneGroups candidates ⟨threshold, names, none⟩ := by
  unfold cloneGroups
  rw [eliminate_eq_plain fun _ => ne_nil_of_mem_large,
    eliminate_eq_plain fun _ => ne_nil_of_mem_large]
  apply eliminatePlain_isPrefix
  rw [rawGroups_eq_split, List.map_append, List.filter_append, large_alone_eq_nil, List.append_nil,
    rawGroups_none]
  exact (((List.take_prefix _ candidates.zipIdx).map _).map _).filter _

/-- Raw grouping is the plain scan of all pairs, cut off at a position: there is one group for each
candidate, in order; up to the cut it is that of the scan, and from there on the candidate is alone.
All are compared unless there is a deadline and a question comes too late, in which case the cut is
at the first such chunk of 256. So the groups before merging are the first ones of those that a run
without a deadline has. -/
theorem rawGroups_scans (names : Bool) (deadline : Option Deadline)
    (candidates : List Candidate) :
    (∃ cut, CutsOff candidates.length deadline cut ∧
      rawGroups names deadline candidates =
        (List.finRange candidates.length).map fun position =>
          if position.val < cut then scanAt names candidates position
          else [Location.ofCandidate candidates[position]]) ∧
    ∀ threshold : Nat, cloneGroups candidates ⟨threshold, names, deadline⟩ <+:
      cloneGroups candidates ⟨threshold, names, none⟩ := by
  refine ⟨⟨compared deadline candidates.length, cutsOff_compared deadline _, ?_⟩,
    cloneGroups_isPrefix candidates names deadline⟩
  rw [rawGroups_eq_plain, rawGroupsPlain]
  refine (congrArg (List.map _) (zipIdx_eq_map_finRange candidates)).trans ?_
  rw [List.map_map]
  refine List.map_congr_left fun position _ => ?_
  rw [Function.comp_apply, groupOf_zipIdx]

end CodeClones.Grouping
