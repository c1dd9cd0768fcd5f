import CodeClones.Parsing
import CodeClones.Proofs.Lowering.Agreement

/-!
# The cap on nesting does not show in accepted programs

A tree without a level left becomes a node that says nothing about it. Such a node never gets
into a program that is accepted: lowering that does not report that it went too deep gives the
same with more levels, and the same whatever is put in for trees without a level left. The levels
are counted for each item of a program by itself, so an item is lowered to what it would be
lowered to as the only item.
-/

namespace CodeClones.Lowering

open Syntax Concrete

/-- The second result is the same as the first one, unless the first went too deep. -/
def Comparison.unlessTooDeep : Comparison where
  agree first other := first.tooDeep = false → other = first
  agree_pure _ _ := rfl
  agree_bind := by
    intro α β first other next otherNext firsts nexts shallow
    have steps : (first.tooDeep || (next first.value).tooDeep) = false := shallow
    rw [Bool.or_eq_false_iff] at steps
    have same : otherNext first.value = next first.value := nexts first.value steps.2
    rw [firsts steps.1]
    change (⟨(otherNext first.value).value, _⟩ : Lowered β) = ⟨(next first.value).value, _⟩
    rw [same]

/-- Every tree resembles itself. -/
theorem resemblance_eq : Resemblance (· = ·) where
  kind same := by rw [same]
  span same := by rw [same]
  named same := by rw [same]
  id same same' := by rw [same, same']
  parts same := by
    rw [same]
    exact List.forall₂_same.mpr fun _ _ => rfl
  partsOf same _ := by
    rw [same]
    exact List.forall₂_same.mpr fun _ _ => rfl
  child? := by
    rintro tree _ rfl field
    cases tree.child? field with
    | none => exact .none
    | some _ => exact .some rfl
  hasToken same _ _ := by rw [same]
  hasTokenBefore same _ _ _ := by rw [same]
  isOptionalChain same := by rw [same]

/-! ## Stumps -/

/-- Lowering that puts in a node of one's choice for a tree without a level left. -/
def lowerWith (stump : Tree → Node) (source : String) : (levels : Nat) → Tree → Lowered Node
  | 0, tree => ⟨stump tree, true⟩
  | levels + 1, tree => applyRule ⟨source, lowerWith stump source levels⟩ tree

/-- The items of a program, with a node of one's choice for each tree without a level left. -/
def programBodyWith (stump : Tree → Node) (source : String) (levels : Nat) (root : Tree) :
    Lowered (List Node) :=
  .all ((programItems root).map (lowerWith stump source levels))

variable {source : String} {levels more : Nat} {root tree : Tree}

/-- With unmodelled nodes as stumps this is lowering itself. -/
theorem lowerWith_unmodelled (source : String) (levels : Nat) :
    lowerWith unmodelled source levels = lower source levels := by
  induction levels with
  | zero => rfl
  | succ levels ih =>
    funext tree
    rw [lowerWith, ih, lower]

/-- What is lowered without going too deep is the same with more levels and other stumps. -/
theorem lowerWith_agree (stump other : Tree → Node) (source : String) (le : levels ≤ more)
    (tree : Tree) :
    Comparison.unlessTooDeep.agree (lowerWith stump source levels tree)
      (lowerWith other source more tree) := by
  induction levels generalizing more tree with
  | zero =>
    -- Without a level the first lowering has gone too deep already.
    intro shallow
    cases shallow
  | succ levels ih =>
    obtain ⟨more, rfl⟩ := Nat.exists_eq_add_of_le' (Nat.lt_of_lt_of_le (Nat.succ_pos levels) le)
    have simulates : Simulates .unlessTooDeep (· = ·) ⟨source, lowerWith stump source levels⟩
        ⟨source, lowerWith other source more⟩ :=
      { resemblance_eq with
        source := rfl
        lower := by
          rintro tree _ rfl
          exact ih (Nat.le_of_succ_le_succ le) tree }
    exact applyRule_agree simulates rfl

/-- Bodies of programs agree as the items do, whatever the stumps. -/
theorem programBodyWith_agree (stump other : Tree → Node) (source : String) (le : levels ≤ more)
    (root : Tree) :
    Comparison.unlessTooDeep.agree (programBodyWith stump source levels root)
      (programBodyWith other source more root) := by
  have same : List.Forall₂ (· = ·) (programItems root) (programItems root) :=
    List.forall₂_same.mpr fun _ _ => rfl
  refine Comparison.unlessTooDeep.agree_all same ?_
  rintro tree _ rfl
  exact lowerWith_agree stump other source le tree

/-- A body that did not go too deep is the same with more levels and with any stumps. -/
theorem programBodyWith_eq (stump : Tree → Node) (le : levels ≤ more)
    (shallow : (programBody source levels root).tooDeep = false) :
    programBodyWith stump source more root = programBody source levels root := by
  have agree := programBodyWith_agree unmodelled stump source le root
  simp only [programBodyWith, lowerWith_unmodelled] at agree
  exact agree shallow

/-- A body that did not go too deep is the same with more levels. -/
theorem programBody_eq_of_le (le : levels ≤ more)
    (shallow : (programBody source levels root).tooDeep = false) :
    programBody source more root = programBody source levels root := by
  have same := programBodyWith_eq unmodelled le shallow
  rwa [programBodyWith, lowerWith_unmodelled] at same

end CodeClones.Lowering

namespace CodeClones

open Syntax Concrete Lowering

/-! ## Items by themselves -/

/-- The program with one item only. -/
def Concrete.Tree.withItem (root item : Tree) : Tree :=
  .node root.header [item]

variable {source : String} {levels : Nat} {points : Nat → Point} {root item : Tree}

/-- The only item of the program is the one that it was given. -/
theorem programItems_withItem (member : item ∈ programItems root) :
    programItems (root.withItem item) = [item] := by
  obtain ⟨part, kept⟩ := List.mem_filter.mp member
  have isPart : item.isPart = true := (List.mem_filter.mp part).2
  have parts : (root.withItem item).parts = [item] := List.filter_cons_of_pos isPart
  rw [programItems, parts]
  exact List.filter_cons_of_pos (by simpa using kept)

/-- A tree is accepted exactly if nothing is wrong in it and its body did not go too deep. -/
theorem ofTree_eq_ok_iff {program : Program} :
    Program.ofTree levels source points root = .ok program ↔
      root.header.hasError = false ∧ program.span = root.span ∧
        programBody source levels root = ⟨program.body, false⟩ := by
  unfold Program.ofTree
  cases wrong : root.header.hasError with
  | true => simp
  | false =>
    rcases body : programBody source levels root with ⟨value, tooDeep⟩
    cases program with
    | mk span items => cases tooDeep <;> simp [eq_comm]

/-- An item alone is accepted as a node exactly if it is lowered to the node without going too
deep. -/
theorem ofTree_withItem_iff (member : item ∈ programItems root) {node : Node} :
    Program.ofTree levels source points (root.withItem item) = .ok ⟨root.span, [node]⟩ ↔
      root.header.hasError = false ∧ lower source levels item = ⟨node, false⟩ := by
  have body : programBody source levels (root.withItem item) =
      .all [lower source levels item] := by
    rw [programBody, programItems_withItem member]
    rfl
  rw [ofTree_eq_ok_iff, body]
  change root.header.hasError = false ∧ root.span = root.span ∧ _ ↔ _
  rcases lower source levels item with ⟨value, tooDeep⟩
  simp [Lowered.all]

/-- Results are gathered without going too deep exactly if none of them went too deep. -/
theorem Lowering.Lowered.all_eq_iff {α : Type} {results : List (Lowered α)} {values : List α} :
    Lowered.all results = ⟨values, false⟩ ↔
      List.Forall₂ (fun result value => result = ⟨value, false⟩) results values := by
  induction results generalizing values with
  | nil => cases values <;> simp [Lowered.all]
  | cons first others ih =>
    rcases first with ⟨value, tooDeep⟩
    rcases rest : Lowered.all others with ⟨gathered, restTooDeep⟩
    have step : Lowered.all (⟨value, tooDeep⟩ :: others) =
        ⟨value :: gathered, tooDeep || restTooDeep⟩ := by
      have parts := Lowered.mk.inj rest
      rw [← parts.1, ← parts.2]
      rfl
    rw [rest] at ih
    rw [step]
    cases values with
    | nil => simp
    | cons head tail =>
      rw [List.forall₂_cons, ← ih]
      simp only [Lowered.mk.injEq, List.cons.injEq, Bool.or_eq_false_iff]
      tauto

/-- A program is accepted exactly if each of its items is accepted alone, and it consists of what
the items alone consist of. -/
theorem ofTree_eq_ok_iff_items {program : Program} :
    Program.ofTree levels source points root = .ok program ↔
      root.header.hasError = false ∧ program.span = root.span ∧
        List.Forall₂ (fun item node =>
            Program.ofTree levels source points (root.withItem item) = .ok ⟨root.span, [node]⟩)
          (programItems root) program.body := by
  rw [ofTree_eq_ok_iff, programBody, Lowered.all_eq_iff, List.forall₂_map_left_iff]
  refine and_congr_right fun right => and_congr_right fun _ => ?_
  have alone : ∀ item ∈ programItems root, ∀ node,
      lower source levels item = ⟨node, false⟩ ↔
        Program.ofTree levels source points (root.withItem item) = .ok ⟨root.span, [node]⟩ := by
    intro item member node
    rw [ofTree_withItem_iff member]
    exact (and_iff_right right).symm
  have members : ∀ item ∈ programItems root, item ∈ programItems root := fun _ member => member
  constructor
  · intro lists
    exact ((List.forall₂_and_left _ _).mpr ⟨members, lists⟩).imp
      fun item node ⟨member, lowered⟩ => (alone item member node).mp lowered
  · intro lists
    exact ((List.forall₂_and_left _ _).mpr ⟨members, lists⟩).imp
      fun item node ⟨member, accepted⟩ => (alone item member node).mpr accepted

/-- If lowering the items of a program does not go too deep, then more levels give the same and
do not go too deep either. In an accepted program nothing stems from the cap: its body is the same
whatever is put in for trees without a level left. And a program is accepted exactly if each of
its items is accepted as the only one, in which case it consists of what these consist of, in
order. -/
theorem programBody_uncapped (source : String) (points : Nat → Point) (root : Tree)
    (levels : Nat) :
    (∀ more, levels ≤ more → (programBody source levels root).tooDeep = false →
      (programBody source more root).tooDeep = false ∧
      (programBody source more root).value = (programBody source levels root).value) ∧
    (∀ program, Program.ofTree levels source points root = .ok program →
      ∀ stump, (programBodyWith stump source levels root).value = program.body) ∧
    ∀ program, Program.ofTree levels source points root = .ok program ↔
      root.header.hasError = false ∧ program.span = root.span ∧
        List.Forall₂ (fun item node =>
            Program.ofTree levels source points (root.withItem item) = .ok ⟨root.span, [node]⟩)
          (programItems root) program.body := by
  refine ⟨fun more le shallow => ?_, fun program accepted stump => ?_,
    fun _ => ofTree_eq_ok_iff_items⟩
  · have same := programBody_eq_of_le le shallow
    exact ⟨by rw [same, shallow], by rw [same]⟩
  · have body := (ofTree_eq_ok_iff.mp accepted).2.2
    have shallow : (programBody source levels root).tooDeep = false := by rw [body]
    rw [programBodyWith_eq stump (Nat.le_refl levels) shallow, body]

/-- The tree of `((a));b`. -/
def bracketedTree : Tree :=
  .node ⟨0, "program", ⟨0, 7⟩, true, none, false, false, false, []⟩
    [.node ⟨1, "expression_statement", ⟨0, 6⟩, true, none, false, false, false, []⟩
      [.node ⟨2, "parenthesized_expression", ⟨0, 5⟩, true, none, false, false, false, []⟩
        [.node ⟨3, "(", ⟨0, 1⟩, false, none, false, false, false, []⟩ [],
          .node ⟨4, "parenthesized_expression", ⟨1, 4⟩, true, none, false, false, false, []⟩
            [.node ⟨5, "(", ⟨1, 2⟩, false, none, false, false, false, []⟩ [],
              .node ⟨6, "identifier", ⟨2, 3⟩, true, none, false, false, false, []⟩ [],
              .node ⟨7, ")", ⟨3, 4⟩, false, none, false, false, false, []⟩ []],
          .node ⟨8, ")", ⟨4, 5⟩, false, none, false, false, false, []⟩ []],
        .node ⟨9, ";", ⟨5, 6⟩, false, none, false, false, false, []⟩ []],
      .node ⟨10, "expression_statement", ⟨6, 7⟩, true, none, false, false, false, []⟩
        [.node ⟨11, "identifier", ⟨6, 7⟩, true, none, false, false, false, []⟩ []]]

/-- Four levels are enough for a name in two pairs of parentheses, and three are not; with all
levels the program is the same as with four, and the same with another node for each tree without
a level left. -/
theorem programBody_uncapped_brackets :
    (programBody "((a));b" 3 bracketedTree).tooDeep = true ∧
    (programBody "((a));b" 4 bracketedTree).tooDeep = false ∧
    (programBody "((a));b" maxNesting bracketedTree).value =
      (programBody "((a));b" 4 bracketedTree).value ∧
    ∃ program, Program.ofTree 4 "((a));b" (pointAt "((a));b") bracketedTree = .ok program ∧
      (programBodyWith (fun tree => plainIdentifier tree "deep") "((a));b" 4 bracketedTree).value =
        program.body := by
  obtain ⟨more, stumps, -⟩ := programBody_uncapped "((a));b" (pointAt "((a));b") bracketedTree 4
  have shallow : (programBody "((a));b" 4 bracketedTree).tooDeep = false := by decide
  have accepted : Program.ofTree 4 "((a));b" (pointAt "((a));b") bracketedTree =
      .ok ⟨bracketedTree.span, (programBody "((a));b" 4 bracketedTree).value⟩ := rfl
  exact ⟨by decide, shallow, (more maxNesting (by decide) shallow).2, _, accepted,
    stumps _ accepted _⟩

end CodeClones
