import CodeClones.Lowering.Templates
import CodeClones.Lowering.Names

/-!
# Ranges of concrete trees

What a grammar is relied on for. Every node of a concrete tree covers a piece of the source, and
its children lie inside it; and in three constructs, out of which lowering makes ranges of its
own, the parts stand as one expects: the keyword of a loop before its target, the pattern of a
parameter before its default value, and two delimiters around a template. `WellFormed` says this
of all nodes of a tree. The trees that lowering looks at are then all inside the tree it started
from (`Inside`), however it finds them: among the children, through a field, or along a chain.
-/

namespace CodeClones.Concrete.Tree

mutual

/-- A tree and all trees below it, each before those below it. -/
def subtrees : Tree → List Tree
  | .node header children => .node header children :: subtreesAmong children

/-- The trees of a list and all trees below them. -/
def subtreesAmong : List Tree → List Tree
  | [] => []
  | tree :: others => subtrees tree ++ subtreesAmong others

end

/-- The trees at and below a list of trees are those at and below one of them. -/
theorem mem_subtreesAmong {trees : List Tree} {part : Tree} :
    part ∈ subtreesAmong trees ↔ ∃ tree ∈ trees, part ∈ tree.subtrees := by
  induction trees with
  | nil => simp [subtreesAmong]
  | cons tree others ih => simp [subtreesAmong, ih]

/-- A tree consists of its root and of what its children consist of. -/
theorem mem_subtrees {tree part : Tree} :
    part ∈ tree.subtrees ↔ part = tree ∨ ∃ child ∈ tree.children, part ∈ child.subtrees := by
  cases tree with
  | node header children => rw [subtrees, List.mem_cons, mem_subtreesAmong]; rfl

/-- What a grammar is relied on for at one node, whose text is a source. -/
structure Lawful (source : String) (tree : Tree) : Prop where
  /-- The node does not end before it begins. -/
  ordered : tree.start ≤ tree.stop
  /-- The node ends no later than the source. -/
  stop_le_size : tree.stop ≤ Text.size source
  /-- The node begins between two characters. -/
  start_boundary : Text.isBoundary source tree.start = true
  /-- The node ends between two characters. -/
  stop_boundary : Text.isBoundary source tree.stop = true
  /-- Every child lies inside the node. -/
  children_inside : ∀ child ∈ tree.children, tree.start ≤ child.start ∧ child.stop ≤ tree.stop
  /-- The keyword of a loop over keys or values stands before its target. -/
  keyword_before : tree.kind = "for_in_statement" → ∀ keyword ∈ tree.child? "kind",
    ∀ target ∈ tree.child? "left", keyword.stop ≤ target.start
  /-- The pattern of a parameter stands before its default value. -/
  pattern_before : tree.kind = "required_parameter" ∨ tree.kind = "optional_parameter" →
    ∀ pattern ∈ tree.child? "pattern", ∀ value ∈ tree.child? "value", pattern.stop ≤ value.start
  /-- A template holds at least its two delimiters. -/
  delimited : tree.kind = "template_string" ∨ tree.kind = "template_literal_type" →
    tree.start + 2 ≤ tree.stop

/-- Whether a node is lawful is decided by looking at its ranges. -/
instance (source : String) (tree : Tree) : Decidable (Lawful source tree) :=
  decidable_of_iff (tree.start ≤ tree.stop ∧ tree.stop ≤ Text.size source ∧
      Text.isBoundary source tree.start = true ∧ Text.isBoundary source tree.stop = true ∧
      (∀ child ∈ tree.children, tree.start ≤ child.start ∧ child.stop ≤ tree.stop) ∧
      (tree.kind = "for_in_statement" → ∀ keyword ∈ tree.child? "kind",
        ∀ target ∈ tree.child? "left", keyword.stop ≤ target.start) ∧
      (tree.kind = "required_parameter" ∨ tree.kind = "optional_parameter" →
        ∀ pattern ∈ tree.child? "pattern", ∀ value ∈ tree.child? "value",
          pattern.stop ≤ value.start) ∧
      (tree.kind = "template_string" ∨ tree.kind = "template_literal_type" →
        tree.start + 2 ≤ tree.stop))
    ⟨fun ⟨ordered, size, start, stop, children, keyword, pattern, delimited⟩ =>
        ⟨ordered, size, start, stop, children, keyword, pattern, delimited⟩,
      fun ⟨ordered, size, start, stop, children, keyword, pattern, delimited⟩ =>
        ⟨ordered, size, start, stop, children, keyword, pattern, delimited⟩⟩

/-- Every node of the tree is lawful. -/
def WellFormed (source : String) (tree : Tree) : Prop :=
  ∀ part ∈ tree.subtrees, Lawful source part

/-- Whether a tree is well-formed is decided by looking at its nodes. -/
instance (source : String) (tree : Tree) : Decidable (WellFormed source tree) :=
  inferInstanceAs (Decidable (∀ part ∈ tree.subtrees, Lawful source part))

/-- A tree is well-formed exactly if its root is lawful and its children are well-formed. -/
theorem wellFormed_iff {source : String} {tree : Tree} :
    tree.WellFormed source ↔
      tree.Lawful source ∧ ∀ child ∈ tree.children, child.WellFormed source := by
  constructor
  · intro formed
    refine ⟨formed tree (mem_subtrees.mpr (Or.inl rfl)), fun child member part below => ?_⟩
    exact formed part (mem_subtrees.mpr (Or.inr ⟨child, member, below⟩))
  · rintro ⟨lawful, children⟩ part member
    rcases mem_subtrees.mp member with rfl | ⟨child, member, below⟩
    · exact lawful
    · exact children child member part below

/-- Every tree at or below a well-formed tree is well-formed. -/
theorem WellFormed.of_mem_subtrees {source : String} {part : Tree} (tree : Tree)
    (formed : tree.WellFormed source) (member : part ∈ tree.subtrees) :
    part.WellFormed source := by
  rcases mem_subtrees.mp member with rfl | ⟨child, inChildren, below⟩
  · exact formed
  · exact of_mem_subtrees child ((wellFormed_iff.mp formed).2 child inChildren) below
termination_by sizeOf tree
decreasing_by exact sizeOf_lt_of_mem_children inChildren

/-! ## Trees inside a range -/

/-- The tree is well-formed and lies inside a range of the source. -/
structure Inside (source : String) (range : Span) (tree : Tree) : Prop where
  /-- All nodes of the tree are lawful. -/
  wellFormed : tree.WellFormed source
  /-- The tree begins no earlier than the range. -/
  start_le : range.start ≤ tree.start
  /-- The tree ends no later than the range. -/
  stop_le : tree.stop ≤ range.stop

variable {source : String} {range : Span} {tree : Tree}

/-- A well-formed tree lies inside its own range. -/
theorem WellFormed.inside (formed : tree.WellFormed source) : tree.Inside source tree.span :=
  ⟨formed, Nat.le_refl _, Nat.le_refl _⟩

namespace Inside

/-- The root of a tree inside a range is lawful. -/
theorem lawful (inside : tree.Inside source range) : tree.Lawful source :=
  (wellFormed_iff.mp inside.wellFormed).1

/-- A child of a tree inside a range is inside it. -/
theorem of_mem_children (inside : tree.Inside source range) {child : Tree}
    (member : child ∈ tree.children) : child.Inside source range := by
  have bounds := inside.lawful.children_inside child member
  have below := inside.start_le
  have above := inside.stop_le
  exact ⟨(wellFormed_iff.mp inside.wellFormed).2 child member, by omega, by omega⟩

/-- A named child of a tree inside a range is inside it. -/
theorem of_mem_parts (inside : tree.Inside source range) {child : Tree}
    (member : child ∈ tree.parts) : child.Inside source range :=
  inside.of_mem_children (List.mem_filter.mp member).1

/-- A named child that fills a field of a tree inside a range is inside it. -/
theorem of_mem_partsOf (inside : tree.Inside source range) {child : Tree} {field : String}
    (member : child ∈ tree.partsOf field) : child.Inside source range :=
  inside.of_mem_children (List.mem_filter.mp member).1

/-- The first named child of a tree inside a range is inside it. -/
theorem of_firstPart? (inside : tree.Inside source range) {child : Tree}
    (found : tree.firstPart? = some child) : child.Inside source range :=
  inside.of_mem_parts (List.mem_of_head? found)

/-- The first named child of a kind is inside the range of the tree. -/
theorem of_partOfKind? (inside : tree.Inside source range) {child : Tree} {kind : String}
    (found : tree.partOfKind? kind = some child) : child.Inside source range :=
  inside.of_mem_parts (List.mem_of_find?_eq_some found)

mutual

/-- A tree found by its number is inside the range of the tree it was found in. -/
theorem of_find? {number : Nat} {found : Tree} : (tree : Tree) → tree.Inside source range →
    find? number tree = some found → found.Inside source range
  | .node header children, inside, result => by
    simp only [find?] at result
    split at result
    · cases result
      exact inside
    · exact of_findAmong? children (fun _ member => inside.of_mem_children member) result

/-- A tree found by its number is inside the range of the trees it was found in. -/
theorem of_findAmong? {number : Nat} {found : Tree} : (trees : List Tree) →
    (∀ tree ∈ trees, tree.Inside source range) → findAmong? number trees = some found →
    found.Inside source range
  | [], _, result => by simp [findAmong?] at result
  | tree :: others, inside, result => by
    simp only [findAmong?, Option.or_eq_some_iff] at result
    rcases result with result | ⟨_, result⟩
    · exact of_find? tree (inside tree List.mem_cons_self) result
    · exact of_findAmong? others (fun _ member => inside _ (List.mem_cons_of_mem _ member)) result

end

/-- The answer for a field of a tree inside a range is inside it. -/
theorem of_child? (inside : tree.Inside source range) {child : Tree} {field : String}
    (found : tree.child? field = some child) : child.Inside source range := by
  unfold child? at found
  split at found
  · obtain ⟨number, _, result⟩ := Option.bind_eq_some_iff.mp found
    exact of_findAmong? tree.children (fun _ member => inside.of_mem_children member) result
  · exact inside.of_mem_children (List.mem_of_find?_eq_some found)

/-- Both sides of a dotted name inside a range are inside it. -/
theorem of_sides? (inside : tree.Inside source range) {left right : Tree}
    {leftFields rightFields : List String}
    (found : Lowering.sides? tree leftFields rightFields = some (left, right)) :
    left.Inside source range ∧ right.Inside source range := by
  have sides : ∀ side ∈ [left, right], side.Inside source range := by
    intro side member
    rcases Lowering.field_or_part_of_sides? found side member with ⟨field, answer⟩ | part
    · exact inside.of_child? answer
    · exact inside.of_mem_parts part
  exact ⟨sides left (by simp), sides right (by simp)⟩

/-- The operands of a chain inside a range are inside it. -/
theorem of_mem_operands {kind : String} {operand : Tree} (tree : Tree)
    (inside : tree.Inside source range) (member : operand ∈ Lowering.operands kind tree) :
    operand.Inside source range := by
  rw [Lowering.operands] at member
  obtain ⟨⟨child, inParts⟩, _, chosen⟩ := List.mem_flatMap.mp member
  have insideChild := inside.of_mem_parts inParts
  simp only at chosen
  split at chosen
  · exact of_mem_operands child insideChild chosen
  · exact List.mem_singleton.mp chosen ▸ insideChild
termination_by sizeOf tree
decreasing_by exact sizeOf_lt_of_mem_parts ‹_›

end Inside

/-! ## Lists of trees inside a range -/

/-- All trees of a list lie inside a range. -/
def AllInside (source : String) (range : Span) (trees : List Tree) : Prop :=
  ∀ tree ∈ trees, tree.Inside source range

/-- No trees lie inside every range. -/
@[simp]
theorem allInside_nil : AllInside source range [] := by
  simp [AllInside]

/-- Trees lie inside a range exactly if the first one does and the others do. -/
@[simp]
theorem allInside_cons {trees : List Tree} :
    AllInside source range (tree :: trees) ↔
      tree.Inside source range ∧ AllInside source range trees := by
  simp [AllInside]

/-- Trees that are among trees inside a range are inside it. -/
theorem AllInside.mono {trees chosen : List Tree} (inside : AllInside source range trees)
    (among : chosen ⊆ trees) : AllInside source range chosen :=
  fun tree member => inside tree (among member)

/-- The first tree is inside the range of all. -/
@[simp]
theorem allInside_head? {trees : List Tree} (inside : AllInside source range trees) :
    AllInside source range trees.head?.toList := by
  intro tree member
  exact inside tree (List.mem_of_head? (Option.mem_toList.mp member))

namespace Inside

/-- The named children of a tree are inside its range. -/
@[simp]
theorem allInside_parts (inside : tree.Inside source range) :
    AllInside source range tree.parts :=
  fun _ member => inside.of_mem_parts member

/-- The named children that pass a test are inside the range of the tree. -/
@[simp]
theorem allInside_filter_parts (inside : tree.Inside source range) (test : Tree → Bool) :
    AllInside source range (tree.parts.filter test) :=
  inside.allInside_parts.mono List.filter_sublist.subset

/-- The first named child that passes a test is inside the range of the tree. -/
@[simp]
theorem allInside_find?_parts (inside : tree.Inside source range) (test : Tree → Bool) :
    AllInside source range (tree.parts.find? test).toList :=
  fun _ member => inside.of_mem_parts (List.mem_of_find?_eq_some (Option.mem_toList.mp member))

/-- The named children that fill a field are inside the range of the tree. -/
@[simp]
theorem allInside_partsOf (inside : tree.Inside source range) (field : String) :
    AllInside source range (tree.partsOf field) :=
  fun _ member => inside.of_mem_partsOf member

/-- The first named child is inside the range of the tree. -/
@[simp]
theorem allInside_firstPart? (inside : tree.Inside source range) :
    AllInside source range tree.firstPart?.toList :=
  allInside_head? inside.allInside_parts

/-- The answer for a field is inside the range of the tree. -/
@[simp]
theorem allInside_child? (inside : tree.Inside source range) (field : String) :
    AllInside source range (tree.child? field).toList :=
  fun _ member => inside.of_child? (Option.mem_toList.mp member)

/-- The operands of a chain are inside the range of the chain. -/
@[simp]
theorem allInside_operands (inside : tree.Inside source range) (kind : String) :
    AllInside source range (Lowering.operands kind tree) :=
  fun _ member => of_mem_operands tree inside member

/-- What a chain is unrolled to is inside the range of the chain. -/
@[simp]
theorem allInside_unroll (inside : tree.Inside source range) (kind : String) :
    AllInside source range (Lowering.unroll kind [tree]) := by
  rw [Lowering.unroll_singleton, Lowering.spread]
  split
  · exact inside.allInside_operands kind
  · exact fun _ member => List.mem_singleton.mp member ▸ inside

/-- The substitutions of a template are inside the range of the template. -/
@[simp]
theorem allInside_substitutions (inside : tree.Inside source range) (kind : String) :
    AllInside source range (Lowering.substitutions kind tree) :=
  inside.allInside_filter_parts _

end Inside

end CodeClones.Concrete.Tree
