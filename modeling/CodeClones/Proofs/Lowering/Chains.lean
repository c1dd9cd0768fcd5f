import CodeClones.Lowering.Rules
import Mathlib.Data.List.Lex
import Mathlib.Data.List.Sort

/-!
# Chains are flattened

A grammar nests a chain of one operator in whatever way it likes. The operands of a chain are what
the paths through nested chains end in, and the order of the paths is the order from left to right.
The main statement says that a chain is lowered to exactly these operands in this order, each of
them one level below the chain however deep it is nested in it. So the nesting of a chain does not
show in its node, and its length takes no level.
-/

namespace CodeClones.Concrete.Tree

/-- A property of all trees follows if every tree has it as soon as its named children do. -/
theorem induction_on_parts {motive : Tree → Prop}
    (step : ∀ tree : Tree, (∀ part ∈ tree.parts, motive part) → motive tree) (tree : Tree) :
    motive tree :=
  step tree fun part _ => induction_on_parts step part
termination_by sizeOf tree
decreasing_by exact sizeOf_lt_of_mem_parts ‹_›

end CodeClones.Concrete.Tree

namespace CodeClones.Lowering

open Syntax Concrete

variable {kind : String} {tree : Tree}

/-! ## Paths to operands -/

/-- The operand that a path ends in. Each number picks a part of a chain, and what is reached in the
end is no chain. -/
def operandAt? (kind : String) (tree : Tree) : (path : List Nat) → Option Tree
  | [] => if tree.kind = kind then none else some tree
  | index :: path =>
    if tree.kind = kind then tree.parts[index]?.bind fun part => operandAt? kind part path else none

/-- The paths that end in an operand, from left to right. -/
def operandPaths (kind : String) (tree : Tree) : List (List Nat) :=
  if tree.kind = kind then
    tree.parts.zipIdx.attach.flatMap fun ⟨(part, index), _⟩ =>
      (operandPaths kind part).map (index :: ·)
  else [[]]
termination_by sizeOf tree
decreasing_by exact Tree.sizeOf_lt_of_mem_parts (List.fst_mem_of_mem_zipIdx ‹_›)

/-- The operands of a chain are those of its named children, behind the place of the child. -/
theorem operandPaths_chain (chain : tree.kind = kind) :
    operandPaths kind tree = tree.parts.zipIdx.flatMap fun entry =>
      (operandPaths kind entry.1).map (entry.2 :: ·) := by
  rw [operandPaths, if_pos chain]
  conv_rhs => rw [← List.attach_map_subtype_val tree.parts.zipIdx, List.flatMap_map]

/-- A tree of another kind is its own only operand. -/
theorem operandPaths_other (other : tree.kind ≠ kind) : operandPaths kind tree = [[]] := by
  rw [operandPaths, if_neg other]

/-- A path that goes into a part goes on in it. -/
theorem operandAt?_cons (chain : tree.kind = kind) {entry : Tree × Nat}
    (member : entry ∈ tree.parts.zipIdx) (path : List Nat) :
    operandAt? kind tree (entry.2 :: path) = operandAt? kind entry.1 path := by
  rw [operandAt?, if_pos chain, List.mem_zipIdx_iff_getElem?.mp member, Option.bind_some]

/-- The paths ascend. -/
theorem operandPaths_ascending (kind : String) (tree : Tree) :
    (operandPaths kind tree).Pairwise (· < ·) := by
  induction tree using Tree.induction_on_parts with
  | step tree ih =>
    by_cases chain : tree.kind = kind
    · rw [operandPaths_chain chain, List.pairwise_flatMap]
      constructor
      · intro entry member
        rw [List.pairwise_map]
        refine (ih entry.1 (List.fst_mem_of_mem_zipIdx member)).imp fun before => ?_
        exact List.cons_lt_cons_iff.mpr (.inr ⟨rfl, before⟩)
      · have numbered : tree.parts.zipIdx.Pairwise fun entry later => entry.2 < later.2 := by
          rw [← List.pairwise_map, List.zipIdx_map_snd]
          exact List.pairwise_lt_range'
        refine numbered.imp fun before path member path' member' => ?_
        obtain ⟨rest, -, rfl⟩ := List.mem_map.mp member
        obtain ⟨rest', -, rfl⟩ := List.mem_map.mp member'
        exact List.cons_lt_cons_iff.mpr (.inl before)
    · rw [operandPaths_other chain]
      exact List.pairwise_singleton _ _

/-- The paths are those that end in an operand. -/
theorem mem_operandPaths_iff (path : List Nat) :
    path ∈ operandPaths kind tree ↔ (operandAt? kind tree path).isSome = true := by
  induction tree using Tree.induction_on_parts generalizing path with
  | step tree ih =>
    by_cases chain : tree.kind = kind
    · rw [operandPaths_chain chain, List.mem_flatMap]
      constructor
      · rintro ⟨entry, member, inside⟩
        obtain ⟨rest, found, rfl⟩ := List.mem_map.mp inside
        rw [operandAt?_cons chain member]
        exact (ih entry.1 (List.fst_mem_of_mem_zipIdx member) rest).mp found
      · intro found
        cases path with
        | nil => simp [operandAt?, chain] at found
        | cons index rest =>
          rw [operandAt?, if_pos chain] at found
          cases picked : tree.parts[index]? with
          | none => simp [picked] at found
          | some part =>
            rw [picked, Option.bind_some] at found
            have inside := (ih part (List.mem_of_getElem? picked) rest).mpr found
            exact ⟨(part, index), List.mem_zipIdx_iff_getElem?.mpr picked,
              List.mem_map_of_mem inside⟩
    · rw [operandPaths_other chain, List.mem_singleton]
      cases path with
      | nil => simp [operandAt?, chain]
      | cons index path => simp [operandAt?, chain]

/-- The paths end in the operands, one after another. -/
theorem map_operandAt? (kind : String) (tree : Tree) :
    (operandPaths kind tree).map (operandAt? kind tree) = (spread kind tree).map some := by
  induction tree using Tree.induction_on_parts with
  | step tree ih =>
    by_cases chain : tree.kind = kind
    · have parts : tree.parts.flatMap (spread kind) =
          tree.parts.zipIdx.flatMap fun entry => spread kind entry.1 := by
        conv_lhs => rw [← List.zipIdx_map_fst 0 tree.parts, List.flatMap_map]
      rw [operandPaths_chain chain, spread_chain chain, parts, List.map_flatMap, List.map_flatMap]
      refine List.flatMap_congr fun entry member => ?_
      rw [← ih entry.1 (List.fst_mem_of_mem_zipIdx member), List.map_map]
      exact List.map_congr_left fun path _ => operandAt?_cons chain member path
    · rw [operandPaths_other chain, spread, if_neg chain]
      simp [operandAt?, chain]

/-- The trees are the operands of a chain from left to right: what the paths through nested chains
end in, in the order of the paths. -/
def ListsOperands (kind : String) (tree : Tree) (found : List Tree) : Prop :=
  ∃ paths : List (List Nat), paths.Pairwise (· < ·) ∧
    (∀ path, path ∈ paths ↔ (operandAt? kind tree path).isSome = true) ∧
    paths.map (operandAt? kind tree) = found.map some

/-- There is one list of the operands of a chain, and it is the one that is lowered. -/
theorem listsOperands_iff {found : List Tree} :
    ListsOperands kind tree found ↔ found = spread kind tree := by
  constructor
  · rintro ⟨paths, ascending, complete, listed⟩
    -- Two ascending lists with the same members are equal.
    have same : paths = operandPaths kind tree :=
      ascending.eq_of_mem_iff (operandPaths_ascending kind tree) fun path =>
        (complete path).trans (mem_operandPaths_iff path).symm
    rw [same, map_operandAt?] at listed
    exact (List.map_injective_iff.mpr (Option.some_injective _) listed).symm
  · rintro rfl
    exact ⟨operandPaths kind tree, operandPaths_ascending kind tree, mem_operandPaths_iff,
      map_operandAt? kind tree⟩

/-! ## Chains -/

/-- The three forms of chains. -/
inductive ChainForm where
  /-- Expressions that are evaluated one after another. -/
  | sequence
  /-- Types of which a value has one. -/
  | union
  /-- Types of which a value has all. -/
  | intersection

namespace ChainForm

/-- The grammar's name for a chain. -/
def treeKind : ChainForm → String
  | sequence => "sequence_expression"
  | union => "union_type"
  | intersection => "intersection_type"

/-- The node of a chain with given operands. -/
def node (form : ChainForm) (tree : Tree) (found : List Node) : Node :=
  match form with
  | sequence => place tree .sequence (.children found .done)
  | union => place tree .unionType (.children found .done)
  | intersection => place tree .intersectionType (.children found .done)

end ChainForm

/-- The values of lowered trees are gathered, and it went too deep if one of them did. -/
theorem Context.lowerAll_eq (context : Context) (trees : List Tree) :
    context.lowerAll trees =
      ⟨trees.map fun tree => (context.lower tree).value,
        trees.any fun tree => (context.lower tree).tooDeep⟩ := by
  rw [lowerAll, Lowered.all, List.map_map, List.any_map]
  rfl

/-- A chain is lowered to the node of its operands, and goes too deep exactly if one of them
does. -/
theorem lower_eq_node (source : String) (levels : Nat) {form : ChainForm}
    (chain : tree.kind = form.treeKind) :
    lower source (levels + 1) tree =
      ⟨form.node tree ((spread form.treeKind tree).map fun operand =>
          (lower source levels operand).value),
        (spread form.treeKind tree).any fun operand => (lower source levels operand).tooDeep⟩ := by
  have rule : lower source (levels + 1) tree =
      (do
        let found ← Context.lowerAll ⟨source, lower source levels⟩ (spread form.treeKind tree)
        pure (form.node tree found)) := by
    rw [lower, applyRule, chain]
    cases form with
    | sequence =>
      rw [← unroll_singleton]
      rfl
    | union =>
      rw [spread, if_pos chain]
      rfl
    | intersection =>
      rw [spread, if_pos chain]
      rfl
  rw [rule, Context.lowerAll_eq]
  -- The step that makes the node goes no deeper.
  exact congrArg (Lowered.mk _) (Bool.or_false _)

/-- The node of a chain keeps the operands and nothing else. -/
theorem ChainForm.stored_node (form : ChainForm) (tree : Tree) (found : List Node) :
    (form.node tree found).stored = found := by
  cases form <;> exact List.append_nil found

/-- A chain has the operands that the paths through nested chains end in, from left to right, and a
walk with a stack finds the same ones. Its node has what these are lowered to one level below the
chain, however deep they are nested in it. So it goes too deep only if one of its operands does, and
a chain with the same operands that is nested in another way has the same nodes below it. -/
theorem lower_chain (source : String) (levels : Nat) {form : ChainForm}
    (chain : tree.kind = form.treeKind) :
    ∃ found, ListsOperands form.treeKind tree found ∧ unroll form.treeKind [tree] = found ∧
      (lower source (levels + 1) tree).value =
        form.node tree (found.map fun operand => (lower source levels operand).value) ∧
      ((lower source (levels + 1) tree).tooDeep = true ↔
        ∃ operand ∈ found, (lower source levels operand).tooDeep = true) ∧
      ∀ other : Tree, other.kind = form.treeKind → ListsOperands form.treeKind other found →
        (lower source (levels + 1) other).value.stored =
          (lower source (levels + 1) tree).value.stored ∧
        (lower source (levels + 1) other).tooDeep = (lower source (levels + 1) tree).tooDeep := by
  refine ⟨spread form.treeKind tree, listsOperands_iff.mpr rfl, ?_, ?_, ?_, ?_⟩
  · exact unroll_singleton form.treeKind tree
  · rw [lower_eq_node source levels chain]
  · rw [lower_eq_node source levels chain, List.any_eq_true]
  · intro other chain' listed
    have same := listsOperands_iff.mp listed
    rw [lower_eq_node source levels chain, lower_eq_node source levels chain', ← same,
      ChainForm.stored_node, ChainForm.stored_node]
    exact ⟨rfl, rfl⟩

/-- A name of one letter, by where it stands. -/
def letterNode (id start : Nat) : Tree :=
  .node ⟨id, "identifier", ⟨start, start + 1⟩, true, none, false, false, false, []⟩ []

/-- A sequence of two operands with a comma between them. -/
def pairOf (id : Nat) (span : Span) (left right : Tree) : Tree :=
  .node ⟨id, "sequence_expression", span, true, none, false, false, false, []⟩
    [left, .node ⟨id + 1, ",", ⟨left.stop, left.stop + 1⟩, false, none, false, false, false, []⟩ [],
      right]

/-- The sequence `a,b,c` with its first two operands taken together. -/
def leftNested : Tree :=
  pairOf 0 ⟨0, 5⟩ (pairOf 2 ⟨0, 3⟩ (letterNode 4 0) (letterNode 5 2)) (letterNode 6 4)

/-- The sequence `a,b,c` with its last two operands taken together. -/
def rightNested : Tree :=
  pairOf 0 ⟨0, 5⟩ (letterNode 4 0) (pairOf 2 ⟨2, 5⟩ (letterNode 5 2) (letterNode 6 4))

/-- Both ways to nest a sequence of three names give the same nodes, and two levels are enough. -/
theorem lower_chain_leftNested :
    leftNested.kind = ChainForm.sequence.treeKind ∧
    rightNested.kind = ChainForm.sequence.treeKind ∧
    ListsOperands "sequence_expression" leftNested
      [letterNode 4 0, letterNode 5 2, letterNode 6 4] ∧
    (lower "a,b,c" 2 rightNested).value.stored = (lower "a,b,c" 2 leftNested).value.stored ∧
    (lower "a,b,c" 2 leftNested).tooDeep = false := by
  have left : unroll "sequence_expression" [leftNested] =
      [letterNode 4 0, letterNode 5 2, letterNode 6 4] := by
    simp [unroll, leftNested, pairOf, letterNode, Tree.kind, Tree.header, Tree.parts, Tree.children,
      Tree.isPart, Tree.isComment, Tree.named]
  have right : unroll "sequence_expression" [rightNested] =
      [letterNode 4 0, letterNode 5 2, letterNode 6 4] := by
    simp [unroll, rightNested, pairOf, letterNode, Tree.kind, Tree.header, Tree.parts,
      Tree.children, Tree.isPart, Tree.isComment, Tree.named]
  have listed : ListsOperands "sequence_expression" rightNested
      [letterNode 4 0, letterNode 5 2, letterNode 6 4] := by
    rw [listsOperands_iff, ← right, unroll_singleton]
  have kinds : leftNested.kind = ChainForm.sequence.treeKind ∧
      rightNested.kind = ChainForm.sequence.treeKind := ⟨rfl, rfl⟩
  obtain ⟨found, lists, unrolled, -, deep, nested⟩ := lower_chain "a,b,c" 1 kinds.1
  obtain rfl : [letterNode 4 0, letterNode 5 2, letterNode 6 4] = found := left.symm.trans unrolled
  refine ⟨kinds.1, kinds.2, lists, (nested rightNested kinds.2 listed).1, ?_⟩
  rw [Bool.eq_false_iff, ne_eq, deep]
  decide

end CodeClones.Lowering
