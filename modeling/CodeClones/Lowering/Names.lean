import CodeClones.Lowering.Basic

/-!
# Lowering: dotted names and chains

Dotted names are lowered without counting their nesting, and so are chains of one operator:
however long a name or a chain is, it is one level of nesting.
-/

namespace CodeClones.Lowering

open Syntax Concrete

/-- The two sides of a dotted name: the first fields that answer, or else the first and the
last named child. There are none when both sides are the same node. -/
def sides? (tree : Tree) (leftFields rightFields : List String) : Option (Tree × Tree) :=
  let left := (leftFields.findSome? tree.child?).or tree.parts.head?
  let right := (rightFields.findSome? tree.child?).or tree.parts.getLast?
  match left, right with
  | some left, some right => if left.id = right.id then none else some (left, right)
  | _, _ => none

/-- Each side of a dotted name answers for one of its fields or is a named child. -/
theorem field_or_part_of_sides? {tree left right : Tree} {leftFields rightFields : List String}
    (result : sides? tree leftFields rightFields = some (left, right)) :
    ∀ side ∈ [left, right], (∃ field, tree.child? field = some side) ∨ side ∈ tree.parts := by
  have answered : ∀ {fields : List String} {found : Tree},
      fields.findSome? tree.child? = some found → ∃ field, tree.child? field = some found := by
    intro fields found answer
    obtain ⟨field, _, answer⟩ := List.exists_of_findSome?_eq_some answer
    exact ⟨field, answer⟩
  unfold sides? at result
  simp only at result
  split at result
  · rename_i first second firstFound secondFound
    split at result
    · cases result
    · cases result
      rw [Option.or_eq_some_iff] at firstFound secondFound
      simp only [List.forall_mem_cons]
      refine ⟨?_, ?_, by simp⟩
      · exact firstFound.imp answered fun found => List.mem_of_head? found.2
      · exact secondFound.imp answered fun found => List.mem_of_getLast? found.2
  · cases result

/-- Both sides of a dotted name are smaller than the name. -/
theorem sizeOf_lt_of_sides? {tree left right : Tree} {leftFields rightFields : List String}
    (result : sides? tree leftFields rightFields = some (left, right)) :
    sizeOf left < sizeOf tree ∧ sizeOf right < sizeOf tree := by
  have smaller : ∀ side ∈ [left, right], sizeOf side < sizeOf tree := by
    intro side member
    rcases field_or_part_of_sides? result side member with ⟨field, answer⟩ | part
    · exact Tree.sizeOf_lt_of_child? answer
    · exact Tree.sizeOf_lt_of_mem_parts part
  exact ⟨smaller left (by simp), smaller right (by simp)⟩

/-- The operands of a chain, left to right: the named children, where those that are chains of
the same kind stand for their own operands. -/
def operands (kind : String) (tree : Tree) : List Tree :=
  tree.parts.attach.flatMap fun ⟨child, _⟩ =>
    if child.kind = kind then operands kind child else [child]
termination_by sizeOf tree
decreasing_by exact Tree.sizeOf_lt_of_mem_parts ‹_›

/-- The operands among the trees on a stack, the first tree on top: a chain is taken off and its
named children are put in its place, any other tree is an operand. -/
def unroll (kind : String) : (stack : List Tree) → List Tree
  | [] => []
  | tree :: stack =>
    if tree.kind = kind then unroll kind (tree.parts ++ stack) else tree :: unroll kind stack
termination_by stack => sizeOf stack
decreasing_by
  · exact Tree.sizeOf_parts_append_lt tree stack
  · simp only [List.cons.sizeOf_spec]
    omega

/-- What a tree adds to a chain: its own operands if it is a chain, otherwise itself. -/
def spread (kind : String) (tree : Tree) : List Tree :=
  if tree.kind = kind then operands kind tree else [tree]

/-- The operands of a chain are what its named children add to it. -/
theorem operands_eq (kind : String) (tree : Tree) :
    operands kind tree = tree.parts.flatMap (spread kind) := by
  have flat : operands kind tree = tree.parts.flatMap fun part =>
      if part.kind = kind then operands kind part else [part] := by
    rw [operands]
    simp
  exact flat

/-- A chain adds what its named children add. -/
theorem spread_chain {kind : String} {tree : Tree} (chain : tree.kind = kind) :
    spread kind tree = tree.parts.flatMap (spread kind) := by
  rw [spread, if_pos chain, operands_eq]

/-- The walk with a stack gives the operands of all trees on it. -/
theorem unroll_eq (kind : String) (stack : List Tree) :
    unroll kind stack = stack.flatMap (spread kind) := by
  fun_induction unroll kind stack with
  | case1 => rfl
  | case2 tree stack chain ih =>
    rw [ih, List.flatMap_append, List.flatMap_cons, spread_chain chain]
  | case3 tree stack other ih =>
    rw [ih, List.flatMap_cons, spread, if_neg other, List.singleton_append]

/-- The walk that begins with one tree gives what this tree adds to a chain. -/
theorem unroll_singleton (kind : String) (tree : Tree) : unroll kind [tree] = spread kind tree := by
  rw [unroll_eq, List.flatMap_singleton]

namespace Context

/-- A dotted name of a type, nested to the left. -/
def qualifiedName (context : Context) (tree : Tree) : Lowered Node :=
  if tree.kind = "nested_type_identifier" ∨ tree.kind = "nested_identifier" ∨
      tree.kind = "member_expression" then
    match _found : sides? tree ["module", "object"] ["name", "property"] with
    | some (left, right) => do
      let left ← context.qualifiedName left
      let right ← context.name right
      pure (place tree .qualifiedName (.child left <| .child right .done))
    | none => pure (unmodelled tree)
  else context.name tree
termination_by sizeOf tree
decreasing_by exact (sizeOf_lt_of_sides? _found).1

/-- The name of a markup element or attribute; a dotted name is a chain of members. -/
def markupName (context : Context) (tree : Tree) : Lowered Node :=
  if tree.kind = "member_expression" ∨ tree.kind = "nested_identifier" then
    match _found : sides? tree ["object"] ["property"] with
    | some (object, property) => do
      let object ← context.markupName object
      let property ← context.markupName property
      pure (place tree .jsxMemberName (.child object <| .child property .done))
    | none => pure (unmodelled tree)
  else if tree.kind = "jsx_namespace_name" then
    match tree.parts with
    | [space, name] => do
      let space ← context.name space
      let name ← context.name name
      pure (place tree .jsxNamespacedName (.child space <| .child name .done))
    | _ => pure (unmodelled tree)
  else context.name tree
termination_by sizeOf tree
decreasing_by
  · exact (sizeOf_lt_of_sides? _found).1
  · exact (sizeOf_lt_of_sides? _found).2

/-- The name of a type that has type arguments. -/
def genericName (context : Context) (tree : Tree) : Lowered Node :=
  match tree.child? "name" with
  | some name => context.qualifiedName name
  | none => pure (unmodelled tree)

/-- One entry of a list of superclasses or interfaces, with its type arguments. -/
def heritageEntry (context : Context) (tree : Tree) : Lowered Node := do
  if tree.kind = "generic_type" then
    let name ← context.genericName tree
    let arguments ← context.optional tree "type_arguments"
    pure (place tree .heritageEntry (.child name <| .optionalChild arguments .done))
  else
    let name ← context.qualifiedName tree
    pure (place tree .heritageEntry (.child name <| .optionalChild none .done))

/-- The entries of a list of superclasses or interfaces. -/
def heritage (context : Context) (clause : Tree) : Lowered (List Node) :=
  .all (clause.parts.map context.heritageEntry)

end Context

end CodeClones.Lowering
