import CodeClones.Proofs.Concrete.Ranges
import Mathlib.Data.List.Basic

/-!
# Comments in concrete trees

A comment may stand between any two tokens, so it is a child of whatever construct is around it.
Deleting all comments of a tree, with what is below them, numbers the nodes that stay anew and
leaves their ranges as they are. What is read off a node is then the same, or answered by nodes
that stay, as long as the children stand in order and no field is answered by a comment.
-/

namespace CodeClones.Concrete

/-- A header whose numbers have been given anew, its own and those of its answers. -/
def Header.renumbered (renumber : Nat → Nat) (header : Header) : Header :=
  { header with
    id := renumber header.id
    lookups := header.lookups.map fun lookup => (lookup.1, lookup.2.map renumber) }

/-- The answer for a field carries its new number. -/
theorem Header.lookup_renumbered (renumber : Nat → Nat) (header : Header) (field : String) :
    (header.renumbered renumber).lookups.lookup field =
      (header.lookups.lookup field).map (Option.map renumber) := by
  change (header.lookups.map _).lookup field = _
  induction header.lookups with
  | nil => rfl
  | cons lookup others ih =>
    rw [List.map_cons, List.lookup_cons, List.lookup_cons]
    cases field == lookup.1 with
    | true => rfl
    | false => exact ih

namespace Tree

/-! ## Deleting comments -/

mutual

/-- A tree whose comments have been deleted, and whose other nodes have been numbered anew. -/
def withoutComments (renumber : Nat → Nat) : Tree → Tree
  | .node header children =>
    .node (header.renumbered renumber) (withoutCommentsAmong renumber children)

/-- Trees without the comments among and below them. -/
def withoutCommentsAmong (renumber : Nat → Nat) : List Tree → List Tree
  | [] => []
  | tree :: others =>
    if tree.isComment then withoutCommentsAmong renumber others
    else withoutComments renumber tree :: withoutCommentsAmong renumber others

end

mutual

/-- The trees that stay when comments are deleted, each before those below it. -/
def uncommented : Tree → List Tree
  | .node header children => .node header children :: uncommentedAmong children

/-- The trees that stay among and below trees. -/
def uncommentedAmong : List Tree → List Tree
  | [] => []
  | tree :: others =>
    if tree.isComment then uncommentedAmong others
    else uncommented tree ++ uncommentedAmong others

end

/-- The row of a node in a list of the nodes that stay; numbers of other nodes go behind. -/
def rowNumber (root : Tree) (number : Nat) : Nat :=
  let numbers := root.uncommented.map Tree.id
  if number ∈ numbers then numbers.idxOf number else numbers.length + number

/-- Rows are numbered without repetition. -/
theorem rowNumber_injective (root : Tree) : Function.Injective root.rowNumber := by
  intro first second equal
  simp only [rowNumber] at equal
  split at equal
  · rename_i member
    have bound := List.idxOf_lt_length_iff.mpr member
    split at equal
    · exact (List.idxOf_inj member).mp equal
    · omega
  · split at equal
    · rename_i member
      have bound := List.idxOf_lt_length_iff.mpr member
      omega
    · omega

/-- Among trees there stays what stays of those that are no comments. -/
theorem mem_uncommentedAmong {trees : List Tree} {part : Tree} :
    part ∈ uncommentedAmong trees ↔
      ∃ tree ∈ trees, tree.isComment = false ∧ part ∈ tree.uncommented := by
  induction trees with
  | nil => simp [uncommentedAmong]
  | cons tree others ih =>
    rw [uncommentedAmong]
    cases comment : tree.isComment <;> simp [ih, comment]

/-- A part of its parent is no comment. -/
theorem isComment_eq_false_of_isPart {tree : Tree} (part : tree.isPart = true) :
    tree.isComment = false := by
  rw [isPart, Bool.and_eq_true, Bool.not_eq_true'] at part
  exact part.2

/-- What stays of a tree is its root and what stays of its children that are no comments. -/
theorem mem_uncommented {tree part : Tree} :
    part ∈ tree.uncommented ↔ part = tree ∨
      ∃ child ∈ tree.children, child.isComment = false ∧ part ∈ child.uncommented := by
  cases tree with
  | node header children => rw [uncommented, List.mem_cons, mem_uncommentedAmong]; rfl

/-- Every tree below a tree stays, or is a comment or inside one. -/
theorem mem_uncommented_or_comment {part : Tree} (tree : Tree) (below : part ∈ tree.subtrees) :
    part ∈ tree.uncommented ∨
      ∃ comment ∈ tree.subtrees, comment.isComment = true ∧ part ∈ comment.subtrees := by
  rcases mem_subtrees.mp below with rfl | ⟨child, member, below⟩
  · exact .inl (mem_uncommented.mpr (.inl rfl))
  · have inTree : ∀ other ∈ child.subtrees, other ∈ tree.subtrees :=
      fun other inside => mem_subtrees.mpr (.inr ⟨child, member, inside⟩)
    cases isComment : child.isComment with
    | true => exact .inr ⟨child, inTree child (mem_subtrees.mpr (.inl rfl)), isComment, below⟩
    | false =>
      rcases mem_uncommented_or_comment child below with stays | ⟨comment, inside, found⟩
      · exact .inl (mem_uncommented.mpr (.inr ⟨child, member, isComment, stays⟩))
      · exact .inr ⟨comment, inTree comment inside, found⟩
termination_by sizeOf tree
decreasing_by exact sizeOf_lt_of_mem_children member

/-! ## Comments that stand apart -/

/-- Deleting the comments below one node does not disturb what is read off the node. -/
structure Undisturbed (tree : Tree) : Prop where
  /-- The children stand in order. -/
  ordered : tree.children.Pairwise fun left right => left.start ≤ right.start
  /-- Nothing is wrong in a comment. -/
  sound : ∀ child ∈ tree.children, child.isComment = true → child.header.hasError = false
  /-- No field is answered by a comment or by a node inside one. -/
  answers : ∀ field found, tree.child? field = some found →
    ∀ comment ∈ tree.subtrees, comment.isComment = true → found ∉ comment.subtrees

/-- No node that stays is disturbed when the comments of a tree are deleted. -/
def CommentsApart (tree : Tree) : Prop :=
  ∀ part ∈ tree.uncommented, part.Undisturbed

namespace CommentsApart

variable {tree : Tree}

/-- The root of a tree whose comments stand apart is undisturbed itself. -/
theorem undisturbed (apart : tree.CommentsApart) : tree.Undisturbed :=
  apart tree (mem_uncommented.mpr (.inl rfl))

/-- Below a child that stays, the comments stand apart too. -/
theorem of_mem_children (apart : tree.CommentsApart) {child : Tree}
    (member : child ∈ tree.children) (stays : child.isComment = false) : child.CommentsApart :=
  fun part below => apart part (mem_uncommented.mpr (.inr ⟨child, member, stays, below⟩))

/-- Below a named child the comments stand apart too. -/
theorem of_mem_parts (apart : tree.CommentsApart) {child : Tree} (member : child ∈ tree.parts) :
    child.CommentsApart := by
  obtain ⟨member, isPart⟩ := List.mem_filter.mp member
  exact apart.of_mem_children member (isComment_eq_false_of_isPart isPart)

/-- Below any node that stays, the comments stand apart too. -/
theorem of_mem_uncommented {part : Tree} (tree : Tree) (apart : tree.CommentsApart)
    (member : part ∈ tree.uncommented) : part.CommentsApart := by
  rcases mem_uncommented.mp member with rfl | ⟨child, inChildren, stays, below⟩
  · exact apart
  · exact of_mem_uncommented child (apart.of_mem_children inChildren stays) below
termination_by sizeOf tree
decreasing_by exact sizeOf_lt_of_mem_children inChildren

end CommentsApart

/-! ## What is read off a tree without its comments -/

section Reading

variable (renumber : Nat → Nat) (tree : Tree)

/-- Of the root of a tree only the numbers change. -/
@[simp]
theorem header_withoutComments :
    (tree.withoutComments renumber).header = tree.header.renumbered renumber := by
  cases tree with
  | node header children => rw [withoutComments]; rfl

/-- The root is numbered anew. -/
@[simp]
theorem id_withoutComments : (tree.withoutComments renumber).id = renumber tree.id := by
  rw [id, header_withoutComments]
  rfl

/-- The root keeps its kind. -/
@[simp]
theorem kind_withoutComments : (tree.withoutComments renumber).kind = tree.kind := by
  rw [kind, header_withoutComments]
  rfl

/-- The root keeps its range. -/
@[simp]
theorem span_withoutComments : (tree.withoutComments renumber).span = tree.span := by
  rw [span, header_withoutComments]
  rfl

/-- The root begins where it began. -/
@[simp]
theorem start_withoutComments : (tree.withoutComments renumber).start = tree.start := by
  rw [start, span_withoutComments, start]

/-- The root stays named, or stays a token. -/
@[simp]
theorem named_withoutComments : (tree.withoutComments renumber).named = tree.named := by
  rw [named, header_withoutComments]
  rfl

/-- What was wrong below the root still counts as wrong. -/
theorem hasError_withoutComments :
    (tree.withoutComments renumber).header.hasError = tree.header.hasError := by
  rw [header_withoutComments]
  rfl

/-- The root stays a part of its parent, or stays none. -/
@[simp]
theorem isPart_withoutComments : (tree.withoutComments renumber).isPart = tree.isPart := by
  rw [isPart, isComment, named_withoutComments, kind_withoutComments, isPart, isComment]

/-- Of several trees the comments are left out, and the others lose theirs. -/
theorem withoutCommentsAmong_eq (trees : List Tree) :
    withoutCommentsAmong renumber trees =
      (trees.filter fun tree => !tree.isComment).map (withoutComments renumber) := by
  induction trees with
  | nil => rfl
  | cons tree others ih =>
    rw [withoutCommentsAmong]
    cases comment : tree.isComment <;> simp [ih, comment]

/-- The children of a tree without its comments are the other children, without theirs. -/
theorem children_withoutComments :
    (tree.withoutComments renumber).children =
      (tree.children.filter fun child => !child.isComment).map (withoutComments renumber) := by
  cases tree with
  | node header children => rw [withoutComments]; exact withoutCommentsAmong_eq renumber children

/-- Children that a test chooses, none of which is a comment, stay. -/
theorem filter_children_withoutComments {test : Tree → Bool}
    (kept : ∀ child, test (child.withoutComments renumber) = test child)
    (chosen : ∀ child, test child = true → child.isComment = false) :
    (tree.withoutComments renumber).children.filter test =
      (tree.children.filter test).map (withoutComments renumber) := by
  rw [children_withoutComments, List.filter_map, List.filter_filter]
  congr 2
  funext child
  rw [Function.comp_apply, kept child]
  cases found : test child with
  | true => rw [chosen child found]; rfl
  | false => rfl

/-- A test that no comment passes is passed by a child if it was before. -/
theorem any_children_withoutComments {test : Tree → Bool}
    (kept : ∀ child, test (child.withoutComments renumber) = test child)
    (chosen : ∀ child, test child = true → child.isComment = false) :
    (tree.withoutComments renumber).children.any test = tree.children.any test := by
  have any_eq : ∀ trees : List Tree, trees.any test = (trees.filter test).any fun _ => true := by
    intro trees
    rw [List.any_filter]
    simp only [Bool.and_true]
  rw [any_eq, any_eq, filter_children_withoutComments renumber tree kept chosen, List.any_map]
  rfl

/-- The named children are the same, without their comments. -/
theorem parts_withoutComments :
    (tree.withoutComments renumber).parts = tree.parts.map (withoutComments renumber) :=
  filter_children_withoutComments renumber tree (isPart_withoutComments renumber)
    fun _ => isComment_eq_false_of_isPart

/-- The children that fill a field are the same, without their comments. -/
theorem partsOf_withoutComments (field : String) :
    (tree.withoutComments renumber).partsOf field =
      (tree.partsOf field).map (withoutComments renumber) := by
  refine filter_children_withoutComments renumber tree (fun child => ?_) fun child chosen => ?_
  · rw [isPart_withoutComments, header_withoutComments]
    rfl
  · rw [Bool.and_eq_true] at chosen
    exact isComment_eq_false_of_isPart chosen.2

/-- A tree is still the token that it was. -/
theorem isToken_withoutComments (token : String) :
    isToken token (tree.withoutComments renumber) = isToken token tree := by
  rw [isToken, named_withoutComments, kind_withoutComments, isToken]

/-- A token is no comment. -/
theorem isComment_eq_false_of_isToken {token : String} {tree : Tree} (other : token ≠ "comment")
    (found : isToken token tree = true) : tree.isComment = false := by
  rw [isToken, Bool.and_eq_true, beq_iff_eq] at found
  rw [isComment, found.2, beq_eq_false_iff_ne]
  exact other

/-- The tokens among the children are the same. -/
theorem hasToken_withoutComments {token : String} (other : token ≠ "comment") :
    (tree.withoutComments renumber).hasToken token = tree.hasToken token :=
  any_children_withoutComments renumber tree
    (fun child => isToken_withoutComments renumber child token)
    fun _ => isComment_eq_false_of_isToken other

/-- In trees that stand in order, those in front that start before a limit are all that do. -/
theorem any_takeWhile_of_ordered {trees : List Tree} (test : Tree → Bool) (limit : Nat)
    (ordered : trees.Pairwise fun left right => left.start ≤ right.start) :
    (trees.takeWhile fun tree => tree.start < limit).any test =
      trees.any fun tree => tree.start < limit && test tree := by
  induction ordered with
  | nil => rfl
  | @cons tree others first _ ih =>
    rw [List.takeWhile_cons, List.any_cons]
    by_cases before : tree.start < limit
    · simp [before, ih]
    · have behind : ∀ other ∈ others, limit ≤ other.start := by
        intro other member
        have := first other member
        omega
      have none : (others.any fun tree => tree.start < limit && test tree) = false := by
        rw [List.any_eq_false]
        intro other member
        rw [decide_eq_false (Nat.not_lt.mpr (behind other member))]
        exact Bool.false_ne_true
      simp [before, none]

/-- So are the tokens before a limit, if the children stand in order. -/
theorem hasTokenBefore_withoutComments {token : String} (other : token ≠ "comment") (limit : Nat)
    (ordered : tree.children.Pairwise fun left right => left.start ≤ right.start) :
    (tree.withoutComments renumber).hasTokenBefore token limit =
      tree.hasTokenBefore token limit := by
  have stillOrdered : (tree.withoutComments renumber).children.Pairwise
      fun left right => left.start ≤ right.start := by
    rw [children_withoutComments, List.pairwise_map]
    simp only [start_withoutComments]
    exact ordered.filter _
  rw [hasTokenBefore, hasTokenBefore, any_takeWhile_of_ordered _ _ ordered,
    any_takeWhile_of_ordered _ _ stillOrdered]
  refine any_children_withoutComments renumber tree (fun child => ?_) fun child chosen => ?_
  · rw [isToken_withoutComments, start_withoutComments]
  · rw [Bool.and_eq_true] at chosen
    exact isComment_eq_false_of_isToken other chosen.2

end Reading

/-! ## Answers for fields -/

mutual

/-- A tree found by its number has that number, and is at or below the tree it was found in. -/
theorem mem_subtrees_of_find? {number : Nat} {found : Tree} : (tree : Tree) →
    find? number tree = some found → found ∈ tree.subtrees ∧ found.id = number
  | .node header children, result => by
    rw [find?] at result
    rw [subtrees, List.mem_cons]
    split at result
    · rename_i self
      cases result
      exact ⟨.inl rfl, self⟩
    · obtain ⟨below, same⟩ := mem_subtreesAmong_of_findAmong? children result
      exact ⟨.inr below, same⟩

/-- A tree found by its number among trees has that number, and is at or below one of them. -/
theorem mem_subtreesAmong_of_findAmong? {number : Nat} {found : Tree} : (trees : List Tree) →
    findAmong? number trees = some found → found ∈ subtreesAmong trees ∧ found.id = number
  | [], result => by simp [findAmong?] at result
  | tree :: others, result => by
    rw [findAmong?, Option.or_eq_some_iff] at result
    rw [subtreesAmong, List.mem_append]
    rcases result with result | ⟨_, result⟩
    · obtain ⟨below, same⟩ := mem_subtrees_of_find? tree result
      exact ⟨.inl below, same⟩
    · obtain ⟨below, same⟩ := mem_subtreesAmong_of_findAmong? others result
      exact ⟨.inr below, same⟩

end

/-- The answer for a field is below the tree, and is recorded or fills the field. -/
theorem mem_subtrees_of_child? {tree found : Tree} {field : String}
    (result : tree.child? field = some found) : found ∈ tree.subtrees ∧
      ((field, some found.id) ∈ tree.header.lookups ∨ found.header.field = some field) := by
  rw [mem_subtrees, ← mem_subtreesAmong]
  unfold child? at result
  split at result
  · rename_i answer recorded
    obtain ⟨number, rfl, result⟩ := Option.bind_eq_some_iff.mp result
    obtain ⟨below, rfl⟩ := mem_subtreesAmong_of_findAmong? tree.children result
    obtain ⟨front, back, split, _⟩ := List.lookup_eq_some_iff.mp recorded
    rw [split]
    exact ⟨.inr below, .inl (by simp)⟩
  · have fills := List.find?_some result
    have member := List.mem_of_find?_eq_some result
    have self : found ∈ found.subtrees := mem_subtrees.mpr (.inl rfl)
    exact ⟨.inr (mem_subtreesAmong.mpr ⟨found, member, self⟩), .inr (beq_iff_eq.mp fills)⟩

/-- Comments stand apart that are leaves, fill no field and are not recorded as answers. -/
theorem CommentsApart.of_leaves {root : Tree}
    (leaves : ∀ tree ∈ root.uncommented,
      (tree.children.Pairwise fun left right => left.start ≤ right.start) ∧
      ∀ comment ∈ tree.subtrees, comment.isComment = true →
        comment.header.hasError = false ∧ comment.children.isEmpty = true ∧
        comment.header.field = none ∧
        ∀ lookup ∈ tree.header.lookups, lookup.2 ≠ some comment.id) :
    root.CommentsApart := by
  intro tree member
  obtain ⟨ordered, leaves⟩ := leaves tree member
  refine ⟨ordered, fun child inside isComment => ?_, ?_⟩
  · have self : child ∈ child.subtrees := mem_subtrees.mpr (.inl rfl)
    exact (leaves child (mem_subtrees.mpr (.inr ⟨child, inside, self⟩)) isComment).1
  · intro field found result comment below isComment inside
    obtain ⟨-, leaf, unfilled, unrecorded⟩ := leaves comment below isComment
    have same : found = comment := by
      rcases mem_subtrees.mp inside with same | ⟨child, member, _⟩
      · exact same
      · rw [List.isEmpty_iff.mp leaf] at member
        exact absurd member List.not_mem_nil
    subst same
    rcases (mem_subtrees_of_child? result).2 with recorded | fills
    · exact unrecorded _ recorded rfl
    · rw [unfilled] at fills
      cases fills

/-- The answer for a field stays, and so do those for its own fields. -/
theorem CommentsApart.of_child? {tree found : Tree} {field : String} (apart : tree.CommentsApart)
    (result : tree.child? field = some found) : found.CommentsApart := by
  rcases mem_uncommented_or_comment tree (mem_subtrees_of_child? result).1 with
    stays | ⟨comment, below, isComment, inside⟩
  · exact of_mem_uncommented tree apart stays
  · exact absurd inside (apart.undisturbed.answers field found result comment below isComment)

section Renumbering

variable {renumber : Nat → Nat}

mutual

/-- A tree that is found outside comments is found in the tree without comments. -/
theorem find?_withoutComments (injective : Function.Injective renumber) {number : Nat} :
    (tree : Tree) → (∀ found, find? number tree = some found →
      ∀ comment ∈ tree.subtrees, comment.isComment = true → found ∉ comment.subtrees) →
    find? (renumber number) (tree.withoutComments renumber) =
      (find? number tree).map (withoutComments renumber)
  | .node header children, outside => by
    rw [withoutComments, find?, find?]
    by_cases self : header.id = number
    · have same : (header.renumbered renumber).id = renumber number := congrArg renumber self
      rw [if_pos self, if_pos same, Option.map_some, withoutComments]
    · have other : (header.renumbered renumber).id ≠ renumber number :=
        fun equal => self (injective equal)
      rw [if_neg self, if_neg other]
      refine findAmong?_withoutComments injective children fun found result comment below => ?_
      rw [find?, if_neg self] at outside
      exact outside found result comment (List.mem_cons_of_mem _ below)

/-- Among trees a node is found by its new number as it was by the old one, unless a comment holds
it. -/
theorem findAmong?_withoutComments (injective : Function.Injective renumber) {number : Nat} :
    (trees : List Tree) → (∀ found, findAmong? number trees = some found →
      ∀ comment ∈ subtreesAmong trees, comment.isComment = true → found ∉ comment.subtrees) →
    findAmong? (renumber number) (withoutCommentsAmong renumber trees) =
      (findAmong? number trees).map (withoutComments renumber)
  | [], _ => rfl
  | tree :: others, outside => by
    have first : ∀ found, find? number tree = some found → ∀ comment ∈ tree.subtrees,
        comment.isComment = true → found ∉ comment.subtrees := by
      intro found result comment below
      refine outside found ?_ comment (List.mem_append_left _ below)
      rw [findAmong?, result, Option.some_or]
    have rest : find? number tree = none →
        findAmong? (renumber number) (withoutCommentsAmong renumber others) =
          (findAmong? number others).map (withoutComments renumber) := by
      intro none
      refine findAmong?_withoutComments injective others fun found result comment below => ?_
      refine outside found ?_ comment (List.mem_append_right _ below)
      rw [findAmong?, none, Option.none_or, result]
    -- The search meets the kept trees in the same order as before.
    rw [withoutCommentsAmong, findAmong?]
    cases isComment : tree.isComment with
    | true =>
      -- A tree that is found in the comment would lie inside it.
      have none : find? number tree = none := by
        rw [Option.eq_none_iff_forall_ne_some]
        intro found result
        have self : tree ∈ tree.subtrees := mem_subtrees.mpr (.inl rfl)
        exact first found result tree self isComment
          (mem_subtrees_of_find? tree result).1
      rw [if_pos rfl, none, Option.none_or, rest none]
    | false =>
      rw [if_neg Bool.false_ne_true, findAmong?, find?_withoutComments injective tree first]
      cases result : find? number tree with
      | none => rw [Option.map_none, Option.none_or, Option.none_or, rest result]
      | some found => rfl

end

/-- What is found first is also found first among the trees that are kept, if it is kept. -/
theorem find?_filter_of_kept {test kept : Tree → Bool} {trees : List Tree}
    (stays : ∀ found, trees.find? test = some found → kept found = true) :
    (trees.filter kept).find? test = trees.find? test := by
  induction trees with
  | nil => rfl
  | cons tree others ih =>
    cases passes : test tree with
    | true =>
      have first : (tree :: others).find? test = some tree := List.find?_cons_of_pos passes
      rw [List.filter_cons_of_pos (stays tree first), first, List.find?_cons_of_pos passes]
    | false =>
      have notFirst := Bool.eq_false_iff.mp passes
      rw [List.find?_cons_of_neg notFirst] at stays ⊢
      rw [← ih stays]
      cases keeps : kept tree with
      | true => rw [List.filter_cons_of_pos keeps, List.find?_cons_of_neg notFirst]
      | false => rw [List.filter_cons_of_neg (Bool.eq_false_iff.mp keeps)]

/-- A field is answered by the same node, without its comments. -/
theorem child?_withoutComments (injective : Function.Injective renumber) {tree : Tree}
    (undisturbed : tree.Undisturbed) (field : String) :
    (tree.withoutComments renumber).child? field =
      (tree.child? field).map (withoutComments renumber) := by
  have answers := undisturbed.answers field
  unfold child? at answers ⊢
  rw [header_withoutComments, Header.lookup_renumbered]
  cases recorded : tree.header.lookups.lookup field with
  | some answer =>
    rw [recorded] at answers
    cases answer with
    | none => rfl
    | some number =>
      rw [children_withoutComments, ← withoutCommentsAmong_eq]
      refine findAmong?_withoutComments injective tree.children fun found result comment below => ?_
      refine answers found result comment ?_
      rw [mem_subtrees, ← mem_subtreesAmong]
      exact .inr below
  | none =>
    rw [recorded] at answers
    have outside : ∀ found, tree.children.find? (fun child => child.header.field == some field) =
        some found → (!found.isComment) = true := by
      intro found result
      have self : found ∈ found.subtrees := mem_subtrees.mpr (.inl rfl)
      have below := mem_subtrees.mpr (.inr ⟨found, List.mem_of_find?_eq_some result, self⟩)
      rw [Bool.not_eq_true', ← Bool.not_eq_true]
      exact fun isComment => answers found result found below isComment self
    have sameField : (fun child : Tree => child.header.field == some field) ∘
        withoutComments renumber = fun child => child.header.field == some field := by
      funext child
      rw [Function.comp_apply, header_withoutComments]
      rfl
    dsimp only [Option.map_none]
    rw [children_withoutComments, List.find?_map, sameField, find?_filter_of_kept outside]

end Renumbering

end Tree

end CodeClones.Concrete
