import CodeClones.Parsing
import CodeClones.Proofs.Concrete.Comments
import CodeClones.Proofs.Lowering.Agreement

/-!
# Lowering is blind to comments

Neither lowering nor the search for an error can tell a tree from the one without its comments:
the two give the same program, or the same error.
-/

namespace CodeClones.Concrete.Tree

/-! ## The node to blame -/

mutual

/-- The node to blame stays, since nothing is wrong in a comment. -/
theorem culprit_withoutComments (renumber : Nat → Nat) : (tree : Tree) → tree.CommentsApart →
    (tree.withoutComments renumber).culprit = tree.culprit.withoutComments renumber
  | .node header children, apart => by
    have among := culpritAmong?_withoutComments renumber children apart.undisturbed.sound
      fun child member => apart.of_mem_children member
    rw [withoutComments, culprit, culprit, among]
    have flags : ((header.renumbered renumber).isError || (header.renumbered renumber).isMissing) =
        (header.isError || header.isMissing) := rfl
    rw [flags]
    split
    · rw [withoutComments]
    · rw [← withoutComments, Option.getD_map]

/-- Among trees the same one is to blame, since comments never are. -/
theorem culpritAmong?_withoutComments (renumber : Nat → Nat) : (trees : List Tree) →
    (∀ tree ∈ trees, tree.isComment = true → tree.header.hasError = false) →
    (∀ tree ∈ trees, tree.isComment = false → tree.CommentsApart) →
    culpritAmong? (withoutCommentsAmong renumber trees) =
      (culpritAmong? trees).map (withoutComments renumber)
  | [], _, _ => rfl
  | tree :: others, sound, apart => by
    have rest := culpritAmong?_withoutComments renumber others
      (fun other member => sound other (List.mem_cons_of_mem _ member))
      fun other member => apart other (List.mem_cons_of_mem _ member)
    rw [withoutCommentsAmong, culpritAmong?]
    cases isComment : tree.isComment with
    | true =>
      rw [if_pos rfl, sound tree List.mem_cons_self isComment, if_neg Bool.false_ne_true, rest]
    | false =>
      rw [if_neg Bool.false_ne_true, culpritAmong?, hasError_withoutComments, rest,
        culprit_withoutComments renumber tree (apart tree List.mem_cons_self isComment)]
      split
      · rfl
      · rfl

end

end CodeClones.Concrete.Tree

namespace CodeClones

open Syntax Concrete Lowering

/-- A node is to blame in the same words without its comments. -/
theorem ParseError.ofCulprit_withoutComments (point : Point) (renumber : Nat → Nat)
    (culprit : Tree) :
    ofCulprit point (culprit.withoutComments renumber) = ofCulprit point culprit := by
  rw [ofCulprit, Tree.kind_withoutComments, Tree.header_withoutComments]
  rfl

/-- Lowering cannot tell a tree from the one without its comments. -/
theorem Lowering.resemblance_withoutComments {renumber : Nat → Nat}
    (injective : Function.Injective renumber) :
    Resemblance fun tree copy =>
      tree.CommentsApart ∧ copy = tree.withoutComments renumber where
  kind := by
    rintro tree _ ⟨_, rfl⟩
    exact Tree.kind_withoutComments renumber tree
  span := by
    rintro tree _ ⟨_, rfl⟩
    exact Tree.span_withoutComments renumber tree
  named := by
    rintro tree _ ⟨_, rfl⟩
    exact Tree.named_withoutComments renumber tree
  id := by
    rintro tree _ other _ ⟨_, rfl⟩ ⟨_, rfl⟩
    rw [Tree.id_withoutComments, Tree.id_withoutComments, injective.eq_iff]
  parts := by
    rintro tree _ ⟨apart, rfl⟩
    rw [Tree.parts_withoutComments, List.forall₂_map_right_iff, List.forall₂_same]
    exact fun part member => ⟨apart.of_mem_parts member, rfl⟩
  partsOf := by
    rintro tree _ ⟨apart, rfl⟩ field
    rw [Tree.partsOf_withoutComments, List.forall₂_map_right_iff, List.forall₂_same]
    intro part member
    obtain ⟨member, chosen⟩ := List.mem_filter.mp member
    rw [Bool.and_eq_true] at chosen
    exact ⟨apart.of_mem_parts (List.mem_filter.mpr ⟨member, chosen.2⟩), rfl⟩
  child? := by
    rintro tree _ ⟨apart, rfl⟩ field
    rw [Tree.child?_withoutComments injective apart.undisturbed]
    cases result : tree.child? field with
    | none => exact .none
    | some found => exact .some ⟨apart.of_child? result, rfl⟩
  hasToken := by
    rintro tree _ ⟨_, rfl⟩ token other
    exact Tree.hasToken_withoutComments renumber tree other
  hasTokenBefore := by
    rintro tree _ ⟨apart, rfl⟩ token limit other
    exact Tree.hasTokenBefore_withoutComments renumber tree other limit apart.undisturbed.ordered
  isOptionalChain := by
    rintro tree _ ⟨_, rfl⟩
    refine Tree.any_children_withoutComments renumber tree (fun child => ?_) fun child chosen => ?_
    · rw [Tree.kind_withoutComments]
    · rw [Bool.or_eq_true, beq_iff_eq, beq_iff_eq] at chosen
      rw [Tree.isComment]
      rcases chosen with chosen | chosen
      · rw [chosen]
        decide
      · rw [chosen]
        decide

/-- Deleting the comments of a tree, and numbering the nodes that stay anew, changes neither the
program nor the error that the tree gives. -/
theorem ofTree_withoutComments (levels : Nat) (source : String) (points : Nat → Point)
    (root : Tree) {renumber : Nat → Nat} (injective : Function.Injective renumber)
    (apart : root.CommentsApart) :
    Program.ofTree levels source points (root.withoutComments renumber) =
      Program.ofTree levels source points root := by
  have law := resemblance_withoutComments injective
  have body : programBody source levels (root.withoutComments renumber) =
      programBody source levels root :=
    programBody_eq_of_related law source levels ⟨apart, rfl⟩
  unfold Program.ofTree
  dsimp only
  rw [Tree.hasError_withoutComments, Tree.culprit_withoutComments renumber root apart,
    Tree.start_withoutComments, ParseError.ofCulprit_withoutComments, body,
    Tree.span_withoutComments]

/-- The tree of `if (/* c */ a) b`. -/
def commentedTree : Tree :=
  .node ⟨0, "program", ⟨0, 16⟩, true, none, false, false, false, []⟩
    [.node ⟨1, "if_statement", ⟨0, 16⟩, true, none, false, false, false, []⟩
      [.node ⟨2, "if", ⟨0, 2⟩, false, none, false, false, false, []⟩ [],
        .node ⟨3, "parenthesized_expression", ⟨3, 14⟩, true, some "condition", false, false, false,
            []⟩
          [.node ⟨4, "(", ⟨3, 4⟩, false, none, false, false, false, []⟩ [],
            .node ⟨5, "comment", ⟨4, 11⟩, true, none, false, false, false, []⟩ [],
            .node ⟨6, "identifier", ⟨12, 13⟩, true, none, false, false, false, []⟩ [],
            .node ⟨7, ")", ⟨13, 14⟩, false, none, false, false, false, []⟩ []],
        .node ⟨8, "expression_statement", ⟨15, 16⟩, true, some "consequence", false, false, false,
            []⟩
          [.node ⟨9, "identifier", ⟨15, 16⟩, true, none, false, false, false, []⟩ []]]]

/-- Without the comment the rows of the tree are numbered from zero to eight. -/
theorem ofTree_withoutComments_ifStatement :
    (commentedTree.withoutComments commentedTree.rowNumber).subtrees.map Tree.id = List.range 9 ∧
      Program.ofTree maxNesting "if (/* c */ a) b" (pointAt "if (/* c */ a) b")
          (commentedTree.withoutComments commentedTree.rowNumber) =
        Program.ofTree maxNesting "if (/* c */ a) b" (pointAt "if (/* c */ a) b") commentedTree :=
  ⟨by decide, ofTree_withoutComments maxNesting _ _ commentedTree
    (Tree.rowNumber_injective commentedTree) (Tree.CommentsApart.of_leaves (by decide))⟩

end CodeClones
