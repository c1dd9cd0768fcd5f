import CodeClones.Proofs.Grouping.Adjacency

/-!
# Merging as a loop that reaches a fixed point

A round of merging looks for a pair of adjacent groups and joins it. Here the pair is described
without any search: it is the first in lexicographic order of all pairs of different positions
whose groups are adjacent. Trying all pairs finds it (`isFirstPair_plain`), and so does the table
of starts in every round, because joining a pair leaves groups that begin and end between
characters. Each round leaves one group fewer, so the bound on the number of rounds never cuts
the loop short, and what it ends with has no adjacent pair.
-/

namespace CodeClones.Grouping

variable {contents : Contents}

/-! ## The first adjacent pair -/

/-- The groups at two different positions are adjacent, in this order. -/
def AdjacentAt (contents : Contents) (groups : List Group) (first second : Nat) : Prop :=
  first ≠ second ∧ ∃ group other, groups[first]? = some group ∧ groups[second]? = some other ∧
    groupsAdjacent contents group other = true

/-- The answer is the lexicographically first pair of positions whose groups are adjacent, or
none if there is no such pair. -/
def IsFirstPair (contents : Contents) (groups : List Group) : Option (Nat × Nat) → Prop
  | none => ∀ first second, ¬ AdjacentAt contents groups first second
  | some (first, second) => AdjacentAt contents groups first second ∧
      ∀ first' second', AdjacentAt contents groups first' second' →
        first < first' ∨ first = first' ∧ second ≤ second'

/-- The groups behind a group, tried one after another, are found at the least position at which
one is adjacent. -/
theorem isFirst_follower (contents : Contents) {groups : List Group} {group : Group} {position : Nat}
    (held : groups[position]? = some group) :
    IsFirst (AdjacentAt contents groups position)
      ((groups.zipIdx.find? fun entry =>
        entry.2 != position && groupsAdjacent contents group entry.1).map Prod.snd) := by
  have tried := isFirst_find? Prod.snd
    (fun entry => entry.2 != position && groupsAdjacent contents group entry.1)
    ((zipIdx_ascending groups).imp Nat.le_of_lt)
  have property : (fun number => ∃ entry ∈ groups.zipIdx,
      (entry.2 != position && groupsAdjacent contents group entry.1) = true ∧
        entry.2 = number) = AdjacentAt contents groups position := by
    funext number
    simp only [AdjacentAt, List.mem_zipIdx_iff_getElem?, Bool.and_eq_true, bne_iff_ne, eq_iff_iff]
    constructor
    · rintro ⟨⟨other, place⟩, held', ⟨apart, next⟩, rfl⟩
      exact ⟨Ne.symm apart, group, other, held, held', next⟩
    · rintro ⟨apart, group', other, held', placed, next⟩
      obtain rfl := Option.some.inj (held.symm.trans held')
      exact ⟨(other, number), placed, ⟨Ne.symm apart, next⟩, rfl⟩
  exact property ▸ tried

/-- Trying all pairs finds the lexicographically first one. -/
theorem isFirstPair_plain (contents : Contents) (groups : List Group) :
    IsFirstPair contents groups (firstPairPlain contents groups) := by
  cases found : firstPairPlain contents groups with
  | none =>
    rintro first second pair
    obtain ⟨_, group, _, held, _, _⟩ := id pair
    have nothing := List.findSome?_eq_none_iff.mp found (group, first)
      (List.mem_zipIdx_iff_getElem?.mpr held)
    have least := isFirst_follower contents held
    rw [Option.map_eq_none_iff] at nothing
    rw [nothing] at least
    exact least second pair
  | some pair =>
    obtain ⟨before, ⟨group, position⟩, after, listed, here, earlier⟩ :=
      List.findSome?_eq_some_iff.mp found
    have atPosition : (group, position) ∈ groups.zipIdx := by
      rw [listed]
      exact List.mem_append_right _ List.mem_cons_self
    have held : groups[position]? = some group := List.mem_zipIdx_iff_getElem?.mp atPosition
    have least := isFirst_follower contents held
    obtain ⟨⟨other, place⟩, chosen, rfl⟩ := Option.map_eq_some_iff.mp here
    rw [chosen, Option.map_some] at least
    refine ⟨least.1, fun first' second' pair' => ?_⟩
    obtain ⟨_, group', _, held', _, _⟩ := id pair'
    have numbered : (group', first') ∈ before ++ (group, position) :: after := by
      rw [← listed]
      exact List.mem_zipIdx_iff_getElem?.mpr held'
    have ascending := listed ▸ zipIdx_ascending groups
    rcases List.mem_append.mp numbered with inFront | notInFront
    · -- In front of the position that is found, no search succeeds.
      have nothing := earlier _ inFront
      rw [Option.map_eq_none_iff] at nothing
      have least' := isFirst_follower contents held'
      rw [nothing] at least'
      exact absurd pair' (least' second')
    · rcases List.mem_cons.mp notInFront with same | behind
      · obtain ⟨rfl, rfl⟩ := Prod.mk.inj same
        exact Or.inr ⟨rfl, least.2 second' pair'⟩
      · have behind' := (List.pairwise_append.mp ascending).2.1
        exact Or.inl ((List.pairwise_cons.mp behind').1 _ behind)

/-- The table of starts leads to the lexicographically first pair. -/
theorem Fitting.isFirstPair {groups : List Group} (all : Fitting contents groups) :
    firstPair contents groups = firstPairPlain contents groups ∧
      IsFirstPair contents groups (firstPair contents groups) := by
  have same : firstPair contents groups = firstPairPlain contents groups :=
    firstPair_eq_plain (fun group inside => (all group inside).2)
      fun group inside => (all group inside).1
  exact ⟨same, same ▸ isFirstPair_plain contents groups⟩

/-! ## Rounds -/

/-- The lists of groups that a loop passes through, which joins the pair that a search finds as
long as it finds one. -/
inductive Passes (contents : Contents) (find : List Group → Option (Nat × Nat))
    (groups : List Group) : List Group → Prop
  /-- The loop begins with the given groups. -/
  | start : Passes contents find groups groups
  /-- A round joins the pair that is found. -/
  | round {current : List Group} {first second : Nat} (before : Passes contents find groups current)
      (found : find current = some (first, second)) :
      Passes contents find groups (joinPair contents current first second)

/-- Every list that merging passes through is fitting if the first one is. -/
theorem Passes.fitting {groups current : List Group}
    (passes : Passes contents (firstPair contents) groups current)
    (all : Fitting contents groups) : Fitting contents current := by
  induction passes with
  | start => exact all
  | round _ found ih => exact ih.joinPair found

/-- What one more round starts from is passed through by the whole loop. -/
theorem Passes.of_joinPair {find : List Group → Option (Nat × Nat)} {groups current : List Group}
    {first second : Nat} (found : find groups = some (first, second))
    (passes : Passes contents find (joinPair contents groups first second) current) :
    Passes contents find groups current := by
  induction passes with
  | start => exact .round .start found
  | round _ found' ih => exact .round ih found'

/-- The loop passes through what it ends with. -/
theorem passes_mergeRounds (find : List Group → Option (Nat × Nat)) (rounds : Nat)
    (groups : List Group) :
    Passes contents find groups (mergeRounds contents find rounds groups) := by
  induction rounds generalizing groups with
  | zero => exact .start
  | succ rounds ih =>
    rw [mergeRounds]
    cases found : find groups with
    | none => exact .start
    | some pair => exact (ih _).of_joinPair found

/-- Joining a pair leaves one group fewer. -/
theorem length_joinPair (contents : Contents) {groups : List Group} {first second : Nat}
    (apart : first ≠ second) (inFirst : first < groups.length) (inSecond : second < groups.length) :
    (joinPair contents groups first second).length + 1 = groups.length := by
  have later : (groups.eraseIdx (max first second)).length = groups.length - 1 :=
    List.length_eraseIdx_of_lt (by omega)
  have both : ((groups.eraseIdx (max first second)).eraseIdx (min first second)).length =
      groups.length - 1 - 1 := by
    rw [List.length_eraseIdx_of_lt (by omega), later]
  rw [joinPair, List.length_append, both, List.length_singleton]
  omega

/-- With as many rounds as there are groups, the loop ends only when no pair is found. -/
theorem firstPair_mergeRounds {rounds : Nat} {groups : List Group} (all : Fitting contents groups)
    (enough : groups.length ≤ rounds) :
    firstPair contents (mergeRounds contents (firstPair contents) rounds groups) = none := by
  induction rounds generalizing groups with
  | zero =>
    obtain rfl := List.eq_nil_of_length_eq_zero (Nat.le_zero.mp enough)
    rfl
  | succ rounds ih =>
    rw [mergeRounds]
    cases found : firstPair contents groups with
    | none => exact found
    | some pair =>
      obtain ⟨first, second⟩ := pair
      obtain ⟨_, _, held, held', apart, _⟩ :=
        firstPair_spec (fun group inside => (all group inside).2) found
      have fewer := length_joinPair contents apart
        (List.getElem?_eq_some_iff.mp held).1 (List.getElem?_eq_some_iff.mp held').1
      exact ih (all.joinPair found) (by omega)

/-! ## The result of merging -/

/-- If no group is empty and all members begin and end between characters, then in every round
the table leads to the lexicographically first pair of adjacent groups, which trying all pairs
finds too, and to none exactly when there is no such pair; merging is the loop that joins the
pair found by trying all of them, and ends with groups of which no two are adjacent. -/
theorem mergeAdjacent_reachesFixedPoint (contents : Contents) (groups : List Group)
    (all : ∀ group ∈ groups, group ≠ [] ∧ ∀ member ∈ group, FitsIn contents member) :
    (∀ current, Passes contents (firstPair contents) groups current →
      firstPair contents current = firstPairPlain contents current ∧
        IsFirstPair contents current (firstPair contents current)) ∧
    mergeAdjacent contents groups = mergeAdjacentPlain contents groups ∧
    Passes contents (firstPairPlain contents) groups (mergeAdjacent contents groups) ∧
    ∀ first second, ¬ AdjacentAt contents (mergeAdjacent contents groups) first second := by
  have plain := mergeAdjacent_eq_plain all
  have ended : firstPair contents (mergeAdjacent contents groups) = none :=
    firstPair_mergeRounds all (Nat.le_refl _)
  have fitting : Fitting contents (mergeAdjacent contents groups) :=
    (passes_mergeRounds (firstPair contents) groups.length groups).fitting all
  refine ⟨fun current passes => (passes.fitting all).isFirstPair, plain, ?_, ?_⟩
  · rw [plain]
    exact passes_mergeRounds (firstPairPlain contents) groups.length groups
  · have first := fitting.isFirstPair.2
    rw [ended] at first
    exact first

/-- Two pairs of neighbours, the first of which are apart by a wide blank, and a location in a
file that is not there. -/
def apartByBlanks : List Group :=
  [[⟨"f", 4, 5⟩, ⟨"f", 8, 9⟩], [⟨"f", 0, 1⟩, ⟨"f", 6, 7⟩], [⟨"g", 0, 3⟩]]

/-- The second group is joined with the first, and no pair is left. -/
theorem mergeAdjacent_reachesFixedPoint_apartByBlanks :
    (∀ group ∈ apartByBlanks, group ≠ [] ∧
      ∀ member ∈ group, FitsIn (contentOf? [⟨"f", "a\u3000b;a b"⟩]) member) ∧
    mergeAdjacent (contentOf? [⟨"f", "a\u3000b;a b"⟩]) apartByBlanks =
      [[⟨"g", 0, 3⟩], [⟨"f", 0, 5⟩, ⟨"f", 6, 9⟩]] ∧
    ∀ first second, ¬ AdjacentAt (contentOf? [⟨"f", "a\u3000b;a b"⟩])
      [[⟨"g", 0, 3⟩], [⟨"f", 0, 5⟩, ⟨"f", 6, 9⟩]] first second := by
  have all : ∀ group ∈ apartByBlanks, group ≠ [] ∧
      ∀ member ∈ group, FitsIn (contentOf? [⟨"f", "a\u3000b;a b"⟩]) member := by
    decide +kernel
  obtain ⟨_, plain, _, apart⟩ := mergeAdjacent_reachesFixedPoint _ apartByBlanks all
  have result : mergeAdjacent (contentOf? [⟨"f", "a\u3000b;a b"⟩]) apartByBlanks =
      [[⟨"g", 0, 3⟩], [⟨"f", 0, 5⟩, ⟨"f", 6, 9⟩]] := by
    rw [plain]
    decide +kernel
  exact ⟨all, result, result ▸ apart⟩

end CodeClones.Grouping
