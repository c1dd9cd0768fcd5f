import CodeClones.Syntax.Span

/-!
# Concrete syntax trees

What a grammar makes of a source text: every token and every comment is a node. A node knows
the range it covers, whether the grammar names it, and the field of its parent that it fills.
Looking a field up usually gives the first child that fills it; a grammar may answer otherwise,
and the tree then records which node below it answers, or that none does.
-/

namespace CodeClones.Concrete

/-- What a grammar says of one node. -/
structure Header where
  /-- Number of the node in its tree; different nodes have different numbers. -/
  id : Nat
  /-- The grammar's name for the construct or token. -/
  kind : String
  /-- The range of bytes that the node covers. -/
  span : Span
  /-- Whether the grammar names the node; tokens are not named. -/
  named : Bool
  /-- The field of its parent that the node fills. -/
  field : Option String
  /-- Whether the node stands for text that fits no rule. -/
  isError : Bool
  /-- Whether the node was put in because the text lacks it. -/
  isMissing : Bool
  /-- Whether something is wrong at or below the node. -/
  hasError : Bool
  /-- Fields with an answer of their own: the number of a node below, or none. -/
  lookups : List (String × Option Nat)

/-- A concrete syntax tree. -/
inductive Tree where
  /-- A node with its children in order. -/
  | node (header : Header) (children : List Tree)

namespace Tree

/-- What the grammar says of the root. -/
def header : Tree → Header
  | .node header _ => header

/-- The direct children of the root. -/
def children : Tree → List Tree
  | .node _ children => children

/-- Number of the root. -/
def id (tree : Tree) : Nat := tree.header.id

/-- The grammar's name for the root. -/
def kind (tree : Tree) : String := tree.header.kind

/-- The range that the tree covers. -/
def span (tree : Tree) : Span := tree.header.span

/-- First byte of the tree. -/
def start (tree : Tree) : Nat := tree.span.start

/-- One past the last byte of the tree. -/
def stop (tree : Tree) : Nat := tree.span.stop

/-- Whether the grammar names the root. -/
def named (tree : Tree) : Bool := tree.header.named

/-- Whether the tree is a comment. -/
def isComment (tree : Tree) : Bool := tree.kind == "comment"

/-- Whether the tree counts as a part of its parent: it is named and no comment. -/
def isPart (tree : Tree) : Bool := tree.named && !tree.isComment

/-- The named children, comments left out. -/
def parts (tree : Tree) : List Tree :=
  tree.children.filter isPart

/-- The first named child. -/
def firstPart? (tree : Tree) : Option Tree :=
  tree.parts.head?

/-- The named children that fill a field, comments left out. -/
def partsOf (tree : Tree) (field : String) : List Tree :=
  tree.children.filter fun child => child.header.field == some field && child.isPart

/-- The first named child of a kind. -/
def partOfKind? (tree : Tree) (kind : String) : Option Tree :=
  tree.parts.find? fun child => child.kind == kind

/-- Whether the child is a given token. -/
def isToken (token : String) (tree : Tree) : Bool :=
  !tree.named && tree.kind == token

/-- Whether a token is among the children. -/
def hasToken (tree : Tree) (token : String) : Bool :=
  tree.children.any (isToken token)

/-- Whether a token is among the children that start before the limit, taken from the front. -/
def hasTokenBefore (tree : Tree) (token : String) (limit : Nat) : Bool :=
  (tree.children.takeWhile fun child => child.start < limit).any (isToken token)

mutual

/-- The first tree with a number among a tree and those below it. -/
def find? (number : Nat) : Tree → Option Tree
  | .node header children =>
    if header.id = number then some (.node header children) else findAmong? number children

/-- The first tree with a number among trees and those below them. -/
def findAmong? (number : Nat) : List Tree → Option Tree
  | [] => none
  | tree :: others => (find? number tree).or (findAmong? number others)

end

/-- The node that answers for a field: the recorded one if the tree has an answer of its own
for the field, otherwise the first child that fills it. -/
def child? (tree : Tree) (field : String) : Option Tree :=
  match tree.header.lookups.lookup field with
  | some answer => answer.bind fun number => findAmong? number tree.children
  | none => tree.children.find? fun child => child.header.field == some field

/-- Every child is smaller than its tree. -/
theorem sizeOf_lt_of_mem_children {tree child : Tree} (member : child ∈ tree.children) :
    sizeOf child < sizeOf tree := by
  cases tree with
  | node header children =>
    have := List.sizeOf_lt_of_mem (show child ∈ children from member)
    simp only [Tree.node.sizeOf_spec]
    omega

/-- Every named child is smaller than its tree. -/
theorem sizeOf_lt_of_mem_parts {tree child : Tree} (member : child ∈ tree.parts) :
    sizeOf child < sizeOf tree :=
  sizeOf_lt_of_mem_children (List.mem_filter.mp member).1

/-- A tree in front of others is larger than its named children in front of them. -/
theorem sizeOf_parts_append_lt (tree : Tree) (pending : List Tree) :
    sizeOf (tree.parts ++ pending) < sizeOf (tree :: pending) := by
  have filtered : ∀ trees : List Tree,
      sizeOf (trees.filter isPart ++ pending) < sizeOf trees + sizeOf pending := by
    intro trees
    induction trees with
    | nil => simp
    | cons first others ih =>
      rw [List.filter_cons]
      split
      · simp only [List.cons_append, List.cons.sizeOf_spec]
        omega
      · simp only [List.cons.sizeOf_spec]
        omega
  cases tree with
  | node header children =>
    have smaller := filtered children
    simp only [List.cons.sizeOf_spec, Tree.node.sizeOf_spec]
    change sizeOf (children.filter isPart ++ pending) < _
    omega

mutual

/-- A tree found by its number is no larger than the tree it was found in. -/
theorem sizeOf_le_of_find? {number : Nat} {found : Tree} :
    (tree : Tree) → find? number tree = some found → sizeOf found ≤ sizeOf tree
  | .node header children, result => by
    simp only [find?] at result
    split at result
    · cases result
      exact Nat.le_refl _
    · have := sizeOf_le_of_findAmong? children result
      simp only [Tree.node.sizeOf_spec]
      omega

/-- A tree found by its number is no larger than the trees it was found in. -/
theorem sizeOf_le_of_findAmong? {number : Nat} {found : Tree} :
    (trees : List Tree) → findAmong? number trees = some found → sizeOf found ≤ sizeOf trees
  | [], result => by simp [findAmong?] at result
  | tree :: others, result => by
    simp only [findAmong?, Option.or_eq_some_iff] at result
    simp only [List.cons.sizeOf_spec]
    rcases result with result | ⟨_, result⟩
    · have := sizeOf_le_of_find? tree result
      omega
    · have := sizeOf_le_of_findAmong? others result
      omega

end

/-- The answer for a field is smaller than the tree. -/
theorem sizeOf_lt_of_child? {tree found : Tree} {field : String}
    (result : tree.child? field = some found) : sizeOf found < sizeOf tree := by
  unfold child? at result
  split at result
  · obtain ⟨number, _, result⟩ := Option.bind_eq_some_iff.mp result
    have := sizeOf_le_of_findAmong? tree.children result
    cases tree with
    | node header below =>
      simp only [Tree.children, Tree.node.sizeOf_spec] at this ⊢
      omega
  · exact sizeOf_lt_of_mem_children (List.mem_of_find?_eq_some result)

end Tree

/-- One node of a tree as a flat list gives it: the node, then how many children follow. -/
structure Row where
  /-- What the grammar says of the node; its number is its position in the list. -/
  header : Header
  /-- Number of direct children, whose trees follow in order. -/
  childCount : Nat

/-- Put a node in front of trees, the first of which become its children. -/
def Row.gather (row : Row) (trees : List Tree) : List Tree :=
  .node row.header (trees.take row.childCount) :: trees.drop row.childCount

/-- The tree that a flat list gives, each node before its children. -/
def Tree.ofRows? (rows : List Row) : Option Tree :=
  (rows.foldr Row.gather []).head?

end CodeClones.Concrete
