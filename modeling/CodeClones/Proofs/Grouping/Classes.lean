import CodeClones.Proofs.Grouping.Scan
import Mathlib.Data.List.Perm.Subperm

/-!
# Groups are classes of likeness

Raw grouping makes one group for each candidate: its own location first, then those of the
candidates alike to it. Because likeness is symmetric and transitive, the groups of alike
candidates have the same members, and elimination keeps the one whose candidate comes first.
What is left is the list of the classes of likeness that have at least two members.
-/

namespace CodeClones.Grouping

open Syntax

/-! ## Raw groups and their bases -/

/-- Every member of a raw group is the location of its base or of a candidate alike to the
base. -/
theorem exists_base_of_mem_rawGroups {names : Bool} {deadline : Option Deadline}
    {candidates : List Candidate} {group : Group}
    (made : group ∈ rawGroups names deadline candidates) :
    ∃ base ∈ candidates, group.head? = some (Location.ofCandidate base) ∧
      ∀ member ∈ group.tail, ∃ candidate ∈ candidates,
        Location.ofCandidate candidate = member ∧
          base.node.alike names candidate.node = true := by
  rw [rawGroups_eq_plain] at made
  obtain ⟨⟨base, position⟩, numbered, rfl⟩ := List.mem_map.mp made
  have inside : base ∈ candidates := List.fst_mem_of_mem_zipIdx numbered
  split
  · refine ⟨base, inside, rfl, ?_⟩
    intro member inTail
    obtain ⟨⟨candidate, place⟩, kept, rfl⟩ := List.mem_map.mp inTail
    obtain ⟨numbered', tested⟩ := List.mem_filter.mp kept
    rw [Bool.and_eq_true] at tested
    exact ⟨candidate, List.fst_mem_of_mem_zipIdx numbered', rfl, tested.2⟩
  · exact ⟨base, inside, rfl, by simp⟩

/-! ## Classes of likeness -/

/-- The locations of the candidates alike to a candidate, in the order of the candidates. -/
def classOf (names : Bool) (candidates : List Candidate) (candidate : Candidate) : Group :=
  (candidates.filter fun other => candidate.node.alike names other.node).map Location.ofCandidate

/-- Whether a candidate is the first of its class. -/
def leads (names : Bool) (candidates : List Candidate) (candidate : Candidate) : Bool :=
  (classOf names candidates candidate).head? == some (Location.ofCandidate candidate)

/-- The location of a candidate, then those of the others in its class. -/
def ownGroup (names : Bool) (candidates : List Candidate) (candidate : Candidate) : Group :=
  Location.ofCandidate candidate ::
    (classOf names candidates candidate).filter (· != Location.ofCandidate candidate)

/-- The classes of at least two candidates that are led by candidates of a list. -/
def classesLedBy (names : Bool) (candidates leaders : List Candidate) : List Group :=
  ((leaders.filter (leads names candidates)).map (classOf names candidates)).filter
    fun group => 1 < group.length

variable {names : Bool} {candidates : List Candidate} {candidate other : Candidate}

/-- Alike candidates have one class. -/
theorem classOf_eq_of_alike (alike : candidate.node.alike names other.node = true) :
    classOf names candidates candidate = classOf names candidates other := by
  unfold classOf
  congr 1
  apply List.filter_congr
  intro third _
  rw [Bool.eq_iff_iff]
  exact ⟨Node.alike_trans (Node.alike_symm alike), Node.alike_trans alike⟩

/-- A candidate whose class is not empty is alike to itself. -/
theorem alike_self_of_mem_classOf {location : Location}
    (member : location ∈ classOf names candidates candidate) :
    candidate.node.alike names candidate.node = true := by
  obtain ⟨third, kept, _⟩ := List.mem_map.mp member
  exact Node.alike_self_of_alike (List.mem_filter.mp kept).2

/-- A candidate that is alike to itself belongs to its class. -/
theorem ofCandidate_mem_classOf (inside : candidate ∈ candidates)
    (alike : candidate.node.alike names candidate.node = true) :
    Location.ofCandidate candidate ∈ classOf names candidates candidate :=
  List.mem_map.mpr ⟨candidate, List.mem_filter.mpr ⟨inside, alike⟩, rfl⟩

/-- Two candidates that lead the same class are at one location. -/
theorem eq_of_leads (leader : leads names candidates candidate = true)
    (leader' : leads names candidates other = true)
    (alike : candidate.node.alike names other.node = true) :
    Location.ofCandidate candidate = Location.ofCandidate other := by
  unfold leads at leader leader'
  rw [beq_iff_eq] at leader leader'
  rw [classOf_eq_of_alike alike, leader', Option.some.injEq] at leader
  exact leader.symm

section DifferentLocations

variable (different : (candidates.map Location.ofCandidate).Nodup)

include different

/-- A class has no repetitions. -/
theorem classOf_nodup : (classOf names candidates candidate).Nodup :=
  different.sublist (List.filter_sublist.map Location.ofCandidate)

/-- The members of a class are the candidates alike to the one that it belongs to. -/
theorem ofCandidate_mem_classOf_iff (inside : other ∈ candidates) :
    Location.ofCandidate other ∈ classOf names candidates candidate ↔
      candidate.node.alike names other.node = true := by
  constructor
  · intro member
    obtain ⟨third, kept, same⟩ := List.mem_map.mp member
    obtain ⟨inside', alike⟩ := List.mem_filter.mp kept
    obtain rfl := List.inj_on_of_nodup_map different inside' inside same
    exact alike
  · intro alike
    exact List.mem_map.mpr ⟨other, List.mem_filter.mpr ⟨inside, alike⟩, rfl⟩

/-- When locations differ, two entries stand at one position exactly when they have one
location. -/
theorem position_eq_iff {entry entry' : Numbered} (numbered : entry ∈ candidates.zipIdx)
    (numbered' : entry' ∈ candidates.zipIdx) :
    entry.2 = entry'.2 ↔ Location.ofCandidate entry.1 = Location.ofCandidate entry'.1 := by
  have found := List.mem_zipIdx_iff_getElem?.mp numbered
  have found' := List.mem_zipIdx_iff_getElem?.mp numbered'
  obtain ⟨bound, _⟩ := List.getElem?_eq_some_iff.mp found
  have bound' : entry.2 < (candidates.map Location.ofCandidate).length := by
    rw [List.length_map]
    exact bound
  rw [← List.getElem?_inj bound' different, List.getElem?_map, List.getElem?_map, found, found']
  exact Option.some_inj

/-- When locations differ, the raw group of a candidate is its own location and the rest of its
class. -/
theorem groupOf_eq_ownGroup {entry : Numbered} (numbered : entry ∈ candidates.zipIdx) :
    groupOf names candidates.zipIdx entry = ownGroup names candidates entry.1 := by
  have tests : ∀ peer ∈ candidates.zipIdx,
      (peer.2 != entry.2 && entry.1.node.alike names peer.1.node) =
        ((fun third => (Location.ofCandidate third != Location.ofCandidate entry.1 &&
          entry.1.node.alike names third.node)) ∘ Prod.fst) peer := by
    intro peer numbered'
    have positions := position_eq_iff different numbered' numbered
    rw [Function.comp_apply, bne, bne, Bool.eq_iff_iff]
    simp only [Bool.and_eq_true, Bool.not_eq_true', beq_eq_false_iff_ne, ne_eq, positions]
  unfold groupOf ownGroup classOf
  rw [List.filter_congr tests, ← Function.comp_def, ← List.map_map, ← List.filter_map,
    List.zipIdx_map_fst, List.filter_map, List.filter_filter]
  rfl

/-- When locations differ, raw grouping makes the own group of each candidate that is compared
before time runs out, and leaves every later one alone. -/
theorem rawGroups_eq_append (deadline : Option Deadline) :
    rawGroups names deadline candidates =
      (candidates.take (compared deadline candidates.length)).map (ownGroup names candidates) ++
        (candidates.drop (compared deadline candidates.length)).map fun candidate =>
          [Location.ofCandidate candidate] := by
  have groups : ∀ entry ∈ candidates.zipIdx.take (compared deadline candidates.length),
      groupOf names candidates.zipIdx entry = ownGroup names candidates entry.1 :=
    fun entry early => groupOf_eq_ownGroup different (List.mem_of_mem_take early)
  have front : (candidates.zipIdx.take (compared deadline candidates.length)).map Prod.fst =
      candidates.take (compared deadline candidates.length) := by
    rw [List.map_take, List.zipIdx_map_fst]
  have back : (candidates.zipIdx.drop (compared deadline candidates.length)).map Prod.fst =
      candidates.drop (compared deadline candidates.length) := by
    rw [List.map_drop, List.zipIdx_map_fst]
  rw [rawGroups_eq_split, List.map_congr_left groups, ← front, ← back, List.map_map, List.map_map]
  rfl

/-- An own group has no repetitions. -/
theorem ownGroup_nodup : (ownGroup names candidates candidate).Nodup := by
  refine List.nodup_cons.mpr ⟨?_, (classOf_nodup different).filter _⟩
  simp

/-- The own group of a candidate that is alike to itself rearranges its class. -/
theorem ownGroup_perm_classOf (inside : candidate ∈ candidates)
    (alike : candidate.node.alike names candidate.node = true) :
    (ownGroup names candidates candidate).Perm (classOf names candidates candidate) := by
  rw [List.perm_ext_iff_of_nodup (ownGroup_nodup different) (classOf_nodup different)]
  intro location
  have own := ofCandidate_mem_classOf inside alike
  simp only [ownGroup, List.mem_cons, List.mem_filter, bne_iff_ne, ne_eq]
  constructor
  · rintro (rfl | ⟨member, _⟩)
    · exact own
    · exact member
  · intro member
    by_cases same : location = Location.ofCandidate candidate
    · exact Or.inl same
    · exact Or.inr ⟨member, same⟩

/-- The own group of the first candidate of a class is the class itself. -/
theorem ownGroup_eq_classOf (leader : leads names candidates candidate = true) :
    ownGroup names candidates candidate = classOf names candidates candidate := by
  have nodup : (classOf names candidates candidate).Nodup := classOf_nodup different
  unfold leads at leader
  unfold ownGroup
  cases shape : classOf names candidates candidate with
  | nil => simp [shape] at leader
  | cons first others =>
    rw [shape, List.head?_cons, beq_iff_eq, Option.some.injEq] at leader
    rw [shape, leader, List.nodup_cons] at nodup
    rw [leader, List.filter_cons_of_neg (by simp), List.filter_eq_self.mpr]
    intro location member
    rw [bne_iff_ne]
    rintro rfl
    exact nodup.1 member

/-- The own group and the class of a candidate have at least two members together. -/
theorem one_lt_ownGroup_iff (inside : candidate ∈ candidates) :
    1 < (ownGroup names candidates candidate).length ↔
      1 < (classOf names candidates candidate).length := by
  by_cases alike : candidate.node.alike names candidate.node = true
  · rw [(ownGroup_perm_classOf different inside alike).length_eq]
  · have nothing : classOf names candidates candidate = [] := by
      rw [List.eq_nil_iff_forall_not_mem]
      exact fun location member => alike (alike_self_of_mem_classOf member)
    simp [ownGroup, nothing]

end DifferentLocations

/-- A candidate that belongs to a class without leading it comes after the candidate that
leads it. -/
theorem exists_leader {front back : List Candidate}
    (parts : candidates = front ++ candidate :: back)
    (alike : candidate.node.alike names candidate.node = true)
    (follows : leads names candidates candidate = false) :
    ∃ leader ∈ front, leads names candidates leader = true ∧
      leader.node.alike names candidate.node = true := by
  have split : classOf names candidates candidate =
      ((front.filter fun third => candidate.node.alike names third.node) ++
        candidate :: back.filter fun third => candidate.node.alike names third.node).map
          Location.ofCandidate := by
    rw [classOf, parts, List.filter_append, List.filter_cons, if_pos alike]
  cases shape : front.filter fun third => candidate.node.alike names third.node with
  | nil =>
    rw [shape] at split
    simp [leads, split] at follows
  | cons leader others =>
    have kept : leader ∈ front.filter fun third => candidate.node.alike names third.node := by
      rw [shape]
      exact List.mem_cons_self
    obtain ⟨inside, alike'⟩ := List.mem_filter.mp kept
    refine ⟨leader, inside, ?_, Node.alike_symm alike'⟩
    rw [leads, ← classOf_eq_of_alike alike', split, shape]
    simp

/-! ## Elimination leaves one group for each class -/

/-- The own groups of a list of candidates that have at least two members. -/
def ownGroups (names : Bool) (candidates bases : List Candidate) : List Group :=
  (bases.map (ownGroup names candidates)).filter fun group => 1 < group.length

/-- A class led by a candidate of the list so far covers the own group of each candidate that
follows in the class. -/
theorem any_within_of_follows (different : (candidates.map Location.ofCandidate).Nodup)
    {front back : List Candidate} (parts : candidates = front ++ candidate :: back)
    (large : 1 < (classOf names candidates candidate).length)
    (alike : candidate.node.alike names candidate.node = true)
    (follows : leads names candidates candidate = false) :
    (classesLedBy names candidates front).any
      (fun earlier => within earlier (ownGroup names candidates candidate)) = true := by
  obtain ⟨leader, inside, leader', alike'⟩ := exists_leader parts alike follows
  have inside' : candidate ∈ candidates := by
    rw [parts]
    simp
  have sameClass : classOf names candidates leader = classOf names candidates candidate :=
    classOf_eq_of_alike alike'
  refine List.any_eq_true.mpr ⟨classOf names candidates leader, ?_, ?_⟩
  · refine List.mem_filter.mpr ⟨List.mem_map.mpr ⟨leader, ?_, rfl⟩, ?_⟩
    · exact List.mem_filter.mpr ⟨inside, leader'⟩
    · rw [sameClass]
      exact decide_eq_true large
  · rw [within_iff, sameClass]
    exact fun location => (ownGroup_perm_classOf different inside' alike).mem_iff.mpr

/-- No class led by an earlier candidate lies within the class of a candidate that leads. -/
theorem not_any_within_of_leads (different : (candidates.map Location.ofCandidate).Nodup)
    {front back : List Candidate} (parts : candidates = front ++ candidate :: back)
    (leader : leads names candidates candidate = true) :
    (classesLedBy names candidates front).any
      (fun earlier => within earlier (classOf names candidates candidate)) = false := by
  rw [List.any_eq_false]
  intro earlier kept inside
  obtain ⟨made, _⟩ := List.mem_filter.mp kept
  obtain ⟨third, led, rfl⟩ := List.mem_map.mp made
  obtain ⟨inFront, leader'⟩ := List.mem_filter.mp led
  have inside' : third ∈ candidates := by
    rw [parts]
    exact List.mem_append_left _ inFront
  -- The earlier leader is in its own class, hence in the class of the later one.
  have own : Location.ofCandidate third ∈ classOf names candidates third :=
    List.mem_of_head? (beq_iff_eq.mp leader')
  have alike : candidate.node.alike names third.node = true :=
    (ofCandidate_mem_classOf_iff different inside').mp (within_iff.mp inside _ own)
  have same := eq_of_leads leader leader' alike
  rw [parts, List.map_append, List.map_cons] at different
  exact (List.nodup_append.mp different).2.2 _ (List.mem_map_of_mem inFront) _
    List.mem_cons_self same.symm

/-- One more candidate adds its class if it leads one of at least two members. -/
theorem classesLedBy_concat (front : List Candidate) :
    classesLedBy names candidates (front ++ [candidate]) =
      classesLedBy names candidates front ++
        if leads names candidates candidate = true ∧
          1 < (classOf names candidates candidate).length
        then [classOf names candidates candidate] else [] := by
  unfold classesLedBy
  rw [List.filter_append, List.map_append, List.filter_append]
  congr 1
  by_cases leader : leads names candidates candidate = true
  · by_cases large : 1 < (classOf names candidates candidate).length <;> simp [leader, large]
  · simp [leader]

/-- One more candidate in front adds its own group if that has at least two members. -/
theorem ownGroups_cons (back : List Candidate) :
    ownGroups names candidates (candidate :: back) =
      if 1 < (ownGroup names candidates candidate).length
      then ownGroup names candidates candidate :: ownGroups names candidates back
      else ownGroups names candidates back := by
  unfold ownGroups
  rw [List.map_cons, List.filter_cons]
  simp only [decide_eq_true_eq]

/-- Going on from the classes led so far, the plain rule keeps exactly the classes led by the
candidates that follow. -/
theorem eliminatePlainOnto_ownGroups (different : (candidates.map Location.ofCandidate).Nodup)
    {front bases rest : List Candidate} (parts : candidates = front ++ bases ++ rest) :
    eliminatePlainOnto (classesLedBy names candidates front) (ownGroups names candidates bases) =
      classesLedBy names candidates (front ++ bases) := by
  -- The candidates of `front` have been gone through; what they lead is what has been kept.
  induction bases generalizing front with
  | nil =>
    rw [List.append_nil]
    rfl
  | cons candidate bases ih =>
    have parts' : candidates = front ++ candidate :: (bases ++ rest) := by
      rw [parts, List.append_assoc, List.cons_append]
    have inside : candidate ∈ candidates := by
      rw [parts']
      simp
    have kept := @ih (front ++ [candidate]) (by rw [parts']; simp)
    rw [List.append_assoc, List.singleton_append] at kept
    rw [← kept, ownGroups_cons, classesLedBy_concat]
    simp only [one_lt_ownGroup_iff different inside]
    by_cases large : 1 < (classOf names candidates candidate).length
    · have alike : candidate.node.alike names candidate.node = true :=
        alike_self_of_mem_classOf (List.getElem_mem large)
      rw [if_pos large, eliminatePlainOnto]
      by_cases leader : leads names candidates candidate = true
      · have fresh := not_any_within_of_leads different parts' leader
        rw [ownGroup_eq_classOf different leader, fresh, if_neg Bool.false_ne_true,
          if_pos ⟨leader, large⟩]
      · rw [Bool.not_eq_true] at leader
        have old := any_within_of_follows different parts' large alike leader
        rw [if_pos old, if_neg (fun both => Bool.false_ne_true (leader.symm.trans both.1)),
          List.append_nil]
    · rw [if_neg large, if_neg (fun both => large both.2), List.append_nil]

/-- When locations differ, the groups before merging are the classes of at least two candidates
whose leader is compared before time runs out. -/
theorem cloneGroups_eq_classesLedBy_take
    (different : (candidates.map Location.ofCandidate).Nodup) (options : GroupingOptions) :
    cloneGroups candidates options = classesLedBy options.names candidates
      (candidates.take (compared options.deadline candidates.length)) := by
  have untouched : ∀ group ∈ rawGroups options.names options.deadline candidates,
      distinct group = id group := by
    intro group made
    rw [rawGroups_eq_append different] at made
    rcases List.mem_append.mp made with made | made
    · obtain ⟨base, _, rfl⟩ := List.mem_map.mp made
      exact distinct_eq_self (ownGroup_nodup different)
    · obtain ⟨base, _, rfl⟩ := List.mem_map.mp made
      exact distinct_eq_self (List.nodup_singleton _)
  have alone : ((candidates.drop (compared options.deadline candidates.length)).map fun base =>
      [Location.ofCandidate base]).filter (fun group => 1 < group.length) = [] := by
    rw [List.filter_eq_nil_iff, List.forall_mem_map]
    simp
  have nonempty : ∀ bases : List Candidate,
      ∀ group ∈ ownGroups options.names candidates bases, group ≠ [] := by
    exact fun bases group => ne_nil_of_mem_large
  unfold cloneGroups
  rw [List.map_congr_left untouched, List.map_id, rawGroups_eq_append different,
    List.filter_append, alone, List.append_nil]
  change eliminate (ownGroups options.names candidates _) = _
  rw [eliminate_eq_plain (nonempty _)]
  have parts : candidates = [] ++ candidates.take (compared options.deadline candidates.length) ++
      candidates.drop (compared options.deadline candidates.length) := by
    rw [List.nil_append, List.take_append_drop]
  exact eliminatePlainOnto_ownGroups different parts

/-- When locations differ and time does not run out, the groups before merging are the classes
of at least two candidates, one for each candidate that leads its class. -/
theorem cloneGroups_eq_classesLedBy (different : (candidates.map Location.ofCandidate).Nodup)
    (threshold : Nat) :
    cloneGroups candidates ⟨threshold, names, none⟩ =
      classesLedBy names candidates candidates := by
  rw [cloneGroups_eq_classesLedBy_take different]
  simp only [compared, List.take_length]

/-! ## The list of classes -/

/-- The groups are the classes of at least two candidates, in order. -/
structure ListsClasses (names : Bool) (candidates : List Candidate) (groups : List Group) :
    Prop where
  /-- A group is listed when it is the class of some candidate, with its members in the order of
  the candidates, and has at least two members. -/
  classes : ∀ group, group ∈ groups ↔
    ∃ candidate ∈ candidates, classOf names candidates candidate = group ∧ 1 < group.length
  /-- No class is listed twice. -/
  once : groups.Nodup
  /-- The first members of the groups are in the order of the candidates. -/
  ordered : (groups.map List.head?).Sublist
    (candidates.map fun candidate => some (Location.ofCandidate candidate))
  /-- No location is in two groups. -/
  apart : groups.Pairwise List.Disjoint
  /-- Candidates that are alike to each other, and to no other candidate, form one group, in
  which each has one place. -/
  whole : ∀ part : List Candidate, part.Sublist candidates → 1 < part.length →
    part.Pairwise (fun left right => left.node.alike names right.node = true) →
    (∀ left ∈ part, ∀ right ∈ candidates, left.node.alike names right.node = true →
      right ∈ part) →
    groups.count (part.map Location.ofCandidate) = 1

/-- The first members of led classes are their leaders. -/
theorem map_head?_classesLedBy :
    ((classesLedBy names candidates candidates).map List.head?).Sublist
      (candidates.map fun candidate => some (Location.ofCandidate candidate)) := by
  have heads : ∀ leader ∈ candidates.filter (leads names candidates),
      (List.head? ∘ classOf names candidates) leader = some (Location.ofCandidate leader) := by
    intro leader led
    exact beq_iff_eq.mp (List.mem_filter.mp led).2
  have kept : ((classesLedBy names candidates candidates).map List.head?).Sublist
      (((candidates.filter (leads names candidates)).map (classOf names candidates)).map
        List.head?) :=
    List.filter_sublist.map List.head?
  rw [List.map_map, List.map_congr_left heads] at kept
  exact kept.trans (List.filter_sublist.map _)

/-- The classes led by the candidates in front are those of at least two candidates to which one
of them belongs, since the leader of a class stands in front of all others. -/
theorem mem_classesLedBy_iff_of_parts {front rest : List Candidate} {group : Group}
    (parts : candidates = front ++ rest) :
    group ∈ classesLedBy names candidates front ↔
      ∃ candidate ∈ front, classOf names candidates candidate = group ∧ 1 < group.length := by
  constructor
  · intro kept
    obtain ⟨made, large⟩ := List.mem_filter.mp kept
    obtain ⟨leader, led, rfl⟩ := List.mem_map.mp made
    exact ⟨leader, (List.mem_filter.mp led).1, rfl, of_decide_eq_true large⟩
  · rintro ⟨candidate, inside, rfl, large⟩
    have alike : candidate.node.alike names candidate.node = true :=
      alike_self_of_mem_classOf (List.getElem_mem large)
    have led : ∃ leader ∈ front, leads names candidates leader = true ∧
        leader.node.alike names candidate.node = true := by
      by_cases leader : leads names candidates candidate = true
      · exact ⟨candidate, inside, leader, alike⟩
      · rw [Bool.not_eq_true] at leader
        obtain ⟨before, behind, rfl⟩ := List.append_of_mem inside
        rw [List.append_assoc, List.cons_append] at parts
        obtain ⟨first, inFront, both⟩ := exists_leader parts alike leader
        exact ⟨first, List.mem_append_left _ inFront, both⟩
    obtain ⟨leader, inside', leader', alike'⟩ := led
    refine List.mem_filter.mpr ⟨List.mem_map.mpr ⟨leader, ?_, ?_⟩, decide_eq_true large⟩
    · exact List.mem_filter.mpr ⟨inside', leader'⟩
    · exact classOf_eq_of_alike alike'

/-- The classes of at least two candidates are those that are led, since some candidate of every
class leads it. -/
theorem mem_classesLedBy_iff {group : Group} :
    group ∈ classesLedBy names candidates candidates ↔
      ∃ candidate ∈ candidates, classOf names candidates candidate = group ∧
        1 < group.length :=
  mem_classesLedBy_iff_of_parts (List.append_nil candidates).symm

/-- Classes with a common member are equal. -/
theorem classOf_eq_of_common (different : (candidates.map Location.ofCandidate).Nodup)
    {location : Location} (member : location ∈ classOf names candidates candidate)
    (member' : location ∈ classOf names candidates other) :
    classOf names candidates candidate = classOf names candidates other := by
  obtain ⟨third, kept, rfl⟩ := List.mem_map.mp member
  obtain ⟨inside, alike⟩ := List.mem_filter.mp kept
  have alike' := (ofCandidate_mem_classOf_iff different inside).mp member'
  exact classOf_eq_of_alike (Node.alike_trans alike (Node.alike_symm alike'))

/-- No class is led twice, since its leader is at the location of its first member. -/
theorem classesLedBy_nodup (different : (candidates.map Location.ofCandidate).Nodup) :
    (classesLedBy names candidates candidates).Nodup := by
  apply List.Nodup.of_map List.head?
  apply List.Nodup.sublist map_head?_classesLedBy
  have injective : Function.Injective (some : Location → Option Location) :=
    fun _ _ same => Option.some.inj same
  have all := different.map injective
  rwa [List.map_map] at all

/-- Candidates that are alike to each other and to no other candidate are a class. -/
theorem classOf_eq_of_closed (different : (candidates.map Location.ofCandidate).Nodup)
    {part : List Candidate} (sublist : part.Sublist candidates)
    (each : ∀ right ∈ part, candidate.node.alike names right.node = true)
    (closed : ∀ right ∈ candidates, candidate.node.alike names right.node = true →
      right ∈ part) :
    classOf names candidates candidate = part.map Location.ofCandidate := by
  unfold classOf
  congr 1
  have nodup : candidates.Nodup := List.Nodup.of_map _ different
  have kept : (part.filter fun right => candidate.node.alike names right.node).Sublist
      (candidates.filter fun right => candidate.node.alike names right.node) :=
    sublist.filter _
  rw [List.filter_eq_self.mpr each] at kept
  refine (kept.eq_of_length_le ?_).symm
  refine ((nodup.filter _).subperm ?_).length_le
  intro right alike
  obtain ⟨inside', alike'⟩ := List.mem_filter.mp alike
  exact closed right inside' alike'

/-- Different classes have no common member. -/
theorem classesLedBy_pairwise_disjoint (different : (candidates.map Location.ofCandidate).Nodup) :
    (classesLedBy names candidates candidates).Pairwise List.Disjoint := by
  refine (classesLedBy_nodup different).imp_of_mem ?_
  intro group group' kept kept' unequal location member member'
  obtain ⟨candidate, _, rfl, _⟩ := mem_classesLedBy_iff.mp kept
  obtain ⟨other, _, rfl, _⟩ := mem_classesLedBy_iff.mp kept'
  exact unequal (classOf_eq_of_common different member member')

/-- Candidates that are alike to each other and to no other candidate form one of the led
classes. -/
theorem map_mem_classesLedBy (different : (candidates.map Location.ofCandidate).Nodup)
    {part : List Candidate} (sublist : part.Sublist candidates) (large : 1 < part.length)
    (pairs : part.Pairwise fun left right => left.node.alike names right.node = true)
    (closed : ∀ left ∈ part, ∀ right ∈ candidates, left.node.alike names right.node = true →
      right ∈ part) :
    part.map Location.ofCandidate ∈ classesLedBy names candidates candidates := by
  obtain ⟨first, second, others, rfl⟩ :
      ∃ first second others, part = first :: second :: others := by
    match part, large with
    | first :: second :: others, _ => exact ⟨first, second, others, rfl⟩
  have each := (List.pairwise_cons.mp pairs).1
  have self := Node.alike_self_of_alike (each second List.mem_cons_self)
  refine mem_classesLedBy_iff.mpr ⟨first, sublist.mem List.mem_cons_self, ?_, ?_⟩
  · exact classOf_eq_of_closed different sublist (List.forall_mem_cons.mpr ⟨self, each⟩)
      (closed first List.mem_cons_self)
  · simp

/-- Grouping computes the classes of likeness: for candidates at different locations and without
a deadline, the groups before merging are the classes of at least two candidates, each once,
with the members in the order of the candidates, and ordered by their first members. -/
theorem cloneGroups_listsClasses (names : Bool) (threshold : Nat) (candidates : List Candidate)
    (different : (candidates.map Location.ofCandidate).Nodup) :
    ListsClasses names candidates (cloneGroups candidates ⟨threshold, names, none⟩) := by
  rw [cloneGroups_eq_classesLedBy different]
  refine ⟨fun group => mem_classesLedBy_iff, classesLedBy_nodup different,
    map_head?_classesLedBy, classesLedBy_pairwise_disjoint different, ?_⟩
  intro part sublist large pairs closed
  exact List.count_eq_one_of_mem (classesLedBy_nodup different)
    (map_mem_classesLedBy different sublist large pairs closed)

/-- Of three candidates at different locations, the two that are alike form the group. -/
theorem cloneGroups_listsClasses_three :
    ([⟨"f", ⟨0, 9⟩, .mk ⟨0, 9⟩ .debuggerStatement .done⟩,
      ⟨"f", ⟨9, 10⟩, .mk ⟨9, 10⟩ .emptyStatement .done⟩,
      ⟨"f", ⟨10, 19⟩, .mk ⟨10, 19⟩ .debuggerStatement .done⟩].map Location.ofCandidate).Nodup ∧
    (cloneGroups
      [⟨"f", ⟨0, 9⟩, .mk ⟨0, 9⟩ .debuggerStatement .done⟩,
        ⟨"f", ⟨9, 10⟩, .mk ⟨9, 10⟩ .emptyStatement .done⟩,
        ⟨"f", ⟨10, 19⟩, .mk ⟨10, 19⟩ .debuggerStatement .done⟩]
      ⟨100, false, none⟩).count [⟨"f", 0, 9⟩, ⟨"f", 10, 19⟩] = 1 := by
  refine ⟨by decide, (cloneGroups_listsClasses false 100 _ (by decide)).whole
    [⟨"f", ⟨0, 9⟩, .mk ⟨0, 9⟩ .debuggerStatement .done⟩,
      ⟨"f", ⟨10, 19⟩, .mk ⟨10, 19⟩ .debuggerStatement .done⟩] ?_ (by decide) ?_ ?_⟩
  · exact .cons_cons _ (.cons _ (.cons_cons _ .slnil))
  · exact .cons (by simp [Node.alike_mk_iff, Slots.Related, Kind.isExcluded]) (.cons (by simp) .nil)
  · intro left inside right inside' alike
    have kinds := Node.kind_eq_of_alike alike
    simp only [List.mem_cons, List.not_mem_nil, or_false] at inside inside' ⊢
    rcases inside' with rfl | rfl | rfl
    · exact Or.inl rfl
    · rcases inside with rfl | rfl <;> contradiction
    · exact Or.inr rfl

end CodeClones.Grouping
