import CodeClones.Lowering.Markup
import CodeClones.Proofs.Concrete.Comments

/-!
# The order of trees

What a grammar is relied on for besides ranges. The children of a node stand one behind the other,
and the trees that lowering reads off a construct stand in the order that the grammar gives to its
parts. `Construct.places` lists where these trees are found, in that order, whatever order a syntax
node keeps them in. Four facts about single constructs come with it: functions have
no decorators, names of classes are plain names, only the first clause about ancestors can name a
superclass, and an element is opened by an opening tag. `Arranged` says all this of the nodes of a
well-formed tree.
-/

namespace CodeClones.Concrete.Tree

/-- Each of the trees ends before the later ones begin. -/
def InOrder (trees : List Tree) : Prop :=
  trees.Pairwise fun tree later => tree.stop ≤ later.start

instance (trees : List Tree) : Decidable (InOrder trees) :=
  inferInstanceAs (Decidable (trees.Pairwise fun tree later => tree.stop ≤ later.start))

/-! ## What is read of a construct -/

/-- Where in a construct trees are found. -/
inductive Place where
  /-- The answer for a field. -/
  | field (name : String)
  /-- The named children that fill a field. -/
  | filling (name : String)
  /-- All named children. -/
  | parts
  /-- The named children of some kinds. -/
  | partsOfKinds (kinds : List String)
  /-- The answer for the first of two fields that has one. -/
  | eitherField (name other : String)
  /-- The answer for a field, or else the first named child. -/
  | fieldOrFirst (name : String)
  /-- The answer for a field, or else the last named child. -/
  | fieldOrLast (name : String)
  /-- The attributes of a tag. -/
  | attributes
  /-- The tags of an element and what stands between them. -/
  | element

/-- The attributes of a tag: its named children besides its name and its type arguments. -/
def attributes (tree : Tree) : List Tree :=
  tree.parts.filter fun child =>
    some child.id != (tree.child? "name").map (·.id) && child.kind != "type_arguments"

/-- The opening tag of an element. -/
def opening? (tree : Tree) : Option Tree :=
  (tree.child? "open_tag").or (tree.partOfKind? "jsx_opening_element")

/-- The closing tag of an element. -/
def closing? (tree : Tree) : Option Tree :=
  (tree.child? "close_tag").or (tree.partOfKind? "jsx_closing_element")

/-- The named children besides two tags. -/
def between (tree opening closing : Tree) : List Tree :=
  tree.parts.filter fun child => child.id != opening.id && child.id != closing.id

/-- The trees at a place. -/
def standingAt (tree : Tree) : Place → List Tree
  | .field name => (tree.child? name).toList
  | .filling name => tree.partsOf name
  | .parts => tree.parts
  | .partsOfKinds kinds => tree.parts.filter fun child => kinds.any (child.kind == ·)
  | .eitherField name other => ((tree.child? name).or (tree.child? other)).toList
  | .fieldOrFirst name => ((tree.child? name).or tree.parts.head?).toList
  | .fieldOrLast name => ((tree.child? name).or tree.parts.getLast?).toList
  | .attributes => tree.attributes
  | .element =>
    match tree.opening?, tree.closing? with
    | some opening, some closing => opening :: (tree.between opening closing ++ [closing])
    | _, _ => []

/-- Where the trees of a parameter are found behind its decorators. -/
def parameterPlaces : List Place :=
  [.field "pattern", .field "type", .field "value"]

/-- Where the trees of a function are found behind its name. -/
def functionPlaces : List Place :=
  [.field "type_parameters", .field "parameters", .field "parameter", .field "return_type",
    .field "body"]

/-- Where the trees of a class are found behind its name. -/
def classPlaces : List Place :=
  [.field "type_parameters", .partsOfKinds ["class_heritage"], .field "body"]

/-- The constructs that have an order of their own for what is read of them. Of all others the named
children are read. -/
inductive Construct where
  | withStatement | labeledStatement | ifStatement | switchStatement | switchCase | switchDefault
  | tryStatement | catchClause | breakStatement | continueStatement | whileLoop | doLoop
  | forLoop | forInLoop | declarator
  | functionDeclaration | generatorDeclaration | functionSignature | functionExpression
  | functionKeyword | generatorFunction | arrowFunction | methodDefinition | methodSignature
  | abstractMethodSignature
  | classDeclaration | abstractClassDeclaration | classExpression | extendsClause | staticBlock
  | publicField | plainField | requiredParameter | optionalParameter
  | interfaceDeclaration | typeAlias | enumDeclaration | enumAssignment | innerModule | module
  | importStatement | exportStatement
  | pair | call | construction | memberAccess | nestedName | subscript | binary | unary | update
  | assignment | augmentedAssignment | ternary
  | pairPattern | assignmentPattern | objectAssignmentPattern
  | genericType | propertySignature | indexSignature | callSignature | constructSignature
  | openingTag | selfClosingTag | element
deriving DecidableEq

namespace Construct

/-- All these constructs. -/
def all : List Construct :=
  [.withStatement, .labeledStatement, .ifStatement, .switchStatement, .switchCase, .switchDefault,
    .tryStatement, .catchClause, .breakStatement, .continueStatement, .whileLoop, .doLoop,
    .forLoop, .forInLoop, .declarator, .functionDeclaration, .generatorDeclaration,
    .functionSignature, .functionExpression, .functionKeyword, .generatorFunction, .arrowFunction,
    .methodDefinition, .methodSignature, .abstractMethodSignature, .classDeclaration,
    .abstractClassDeclaration, .classExpression, .extendsClause, .staticBlock, .publicField,
    .plainField, .requiredParameter, .optionalParameter, .interfaceDeclaration, .typeAlias,
    .enumDeclaration, .enumAssignment, .innerModule, .module, .importStatement, .exportStatement,
    .pair, .call, .construction, .memberAccess, .nestedName, .subscript, .binary, .unary, .update,
    .assignment, .augmentedAssignment, .ternary, .pairPattern, .assignmentPattern,
    .objectAssignmentPattern, .genericType, .propertySignature, .indexSignature, .callSignature,
    .constructSignature, .openingTag, .selfClosingTag, .element]

/-- The list of constructs leaves none out. -/
theorem mem_all (construct : Construct) : construct ∈ all := by
  cases construct <;> decide

/-- What holds of all these constructs, or of one of them, is decided one by one. -/
instance {holds : Construct → Prop} [DecidablePred holds] :
    Decidable (∀ construct, holds construct) :=
  decidable_of_iff (∀ construct ∈ all, holds construct)
    ⟨fun each construct => each construct (mem_all construct), fun each construct _ =>
      each construct⟩

instance {holds : Construct → Prop} [DecidablePred holds] :
    Decidable (∃ construct, holds construct) :=
  decidable_of_iff (∃ construct ∈ all, holds construct)
    ⟨fun ⟨construct, _, found⟩ => ⟨construct, found⟩, fun ⟨construct, found⟩ =>
      ⟨construct, mem_all construct, found⟩⟩

/-- The name of the construct in the grammar. -/
def kind : Construct → String
  | withStatement => "with_statement"
  | labeledStatement => "labeled_statement"
  | ifStatement => "if_statement"
  | switchStatement => "switch_statement"
  | switchCase => "switch_case"
  | switchDefault => "switch_default"
  | tryStatement => "try_statement"
  | catchClause => "catch_clause"
  | breakStatement => "break_statement"
  | continueStatement => "continue_statement"
  | whileLoop => "while_statement"
  | doLoop => "do_statement"
  | forLoop => "for_statement"
  | forInLoop => "for_in_statement"
  | declarator => "variable_declarator"
  | functionDeclaration => "function_declaration"
  | generatorDeclaration => "generator_function_declaration"
  | functionSignature => "function_signature"
  | functionExpression => "function_expression"
  | functionKeyword => "function"
  | generatorFunction => "generator_function"
  | arrowFunction => "arrow_function"
  | methodDefinition => "method_definition"
  | methodSignature => "method_signature"
  | abstractMethodSignature => "abstract_method_signature"
  | classDeclaration => "class_declaration"
  | abstractClassDeclaration => "abstract_class_declaration"
  | classExpression => "class"
  | extendsClause => "extends_clause"
  | staticBlock => "class_static_block"
  | publicField => "public_field_definition"
  | plainField => "field_definition"
  | requiredParameter => "required_parameter"
  | optionalParameter => "optional_parameter"
  | interfaceDeclaration => "interface_declaration"
  | typeAlias => "type_alias_declaration"
  | enumDeclaration => "enum_declaration"
  | enumAssignment => "enum_assignment"
  | innerModule => "internal_module"
  | module => "module"
  | importStatement => "import_statement"
  | exportStatement => "export_statement"
  | pair => "pair"
  | call => "call_expression"
  | construction => "new_expression"
  | memberAccess => "member_expression"
  | nestedName => "nested_identifier"
  | subscript => "subscript_expression"
  | binary => "binary_expression"
  | unary => "unary_expression"
  | update => "update_expression"
  | assignment => "assignment_expression"
  | augmentedAssignment => "augmented_assignment_expression"
  | ternary => "ternary_expression"
  | pairPattern => "pair_pattern"
  | assignmentPattern => "assignment_pattern"
  | objectAssignmentPattern => "object_assignment_pattern"
  | genericType => "generic_type"
  | propertySignature => "property_signature"
  | indexSignature => "index_signature"
  | callSignature => "call_signature"
  | constructSignature => "construct_signature"
  | openingTag => "jsx_opening_element"
  | selfClosingTag => "jsx_self_closing_element"
  | element => "jsx_element"

/-- Whether the construct has parameters of its own and no decorators. -/
def isFunction : Construct → Bool
  | functionDeclaration | generatorDeclaration | functionSignature | functionExpression
  | functionKeyword | generatorFunction | arrowFunction | methodDefinition | methodSignature
  | abstractMethodSignature => true
  | _ => false

/-- Whether the construct is a class. -/
def isClass : Construct → Bool
  | classDeclaration | abstractClassDeclaration | classExpression => true
  | _ => false

/-- Where the trees that are read of the construct are found, in the order of the grammar. -/
def places : Construct → List Place
  | withStatement => [.field "object", .field "body"]
  | labeledStatement => [.field "label", .field "body"]
  | ifStatement | ternary => [.field "condition", .field "consequence", .field "alternative"]
  | switchStatement => [.field "value", .field "body"]
  | switchCase => [.field "value", .filling "body"]
  | switchDefault => [.filling "body"]
  | tryStatement => [.field "body", .field "handler", .field "finalizer"]
  | catchClause => [.field "parameter", .field "type", .field "body"]
  | breakStatement | continueStatement => [.field "label"]
  | whileLoop => [.field "condition", .field "body"]
  | doLoop => [.field "body", .field "condition"]
  | forLoop => [.filling "initializer", .filling "condition", .filling "increment", .field "body"]
  | forInLoop => [.field "kind", .field "left", .field "right", .field "body"]
  | declarator => [.field "name", .field "type", .field "value"]
  | functionDeclaration | generatorDeclaration | functionSignature | functionExpression
  | functionKeyword | generatorFunction | arrowFunction | methodDefinition | methodSignature
  | abstractMethodSignature => .field "name" :: functionPlaces
  | classDeclaration | abstractClassDeclaration | classExpression =>
    .partsOfKinds ["decorator"] :: .field "name" :: classPlaces
  | extendsClause => [.fieldOrFirst "value", .field "type_arguments"]
  | staticBlock => [.field "body"]
  | publicField | plainField =>
    [.partsOfKinds ["decorator"], .eitherField "name" "property", .field "type", .field "value"]
  | requiredParameter | optionalParameter => .partsOfKinds ["decorator"] :: parameterPlaces
  | interfaceDeclaration =>
    [.field "name", .field "type_parameters", .partsOfKinds ["extends_type_clause"], .field "body"]
  | typeAlias => [.field "name", .field "type_parameters", .field "value"]
  | enumDeclaration | innerModule | module => [.field "name", .field "body"]
  | enumAssignment => [.field "name", .field "value"]
  | importStatement => [.partsOfKinds ["import_clause"], .field "source"]
  | exportStatement => [.partsOfKinds ["export_clause", "namespace_export"], .field "source"]
  | pair | pairPattern => [.field "key", .field "value"]
  | call => [.field "function", .field "type_arguments", .field "arguments"]
  | construction => [.field "constructor", .field "type_arguments", .field "arguments"]
  | memberAccess | nestedName => [.fieldOrFirst "object", .fieldOrLast "property"]
  | subscript => [.field "object", .field "index"]
  | binary | assignment | augmentedAssignment | assignmentPattern | objectAssignmentPattern =>
    [.field "left", .field "right"]
  | unary | update => [.field "argument"]
  | genericType => [.field "name", .field "type_arguments"]
  | propertySignature | indexSignature => [.field "name", .field "type"]
  | callSignature => [.field "type_parameters", .field "parameters", .field "return_type"]
  | constructSignature => [.field "type_parameters", .field "parameters", .field "type"]
  | openingTag | selfClosingTag => [.field "name", .field "type_arguments", .attributes]
  | element => [.element]

end Construct

/-- The trees that are read of a construct, in the order of the grammar. -/
def reading (tree : Tree) (construct : Construct) : List Tree :=
  construct.places.flatMap tree.standingAt

/-- The trees are what is read of the tree, as one of the constructs. -/
def Reads (tree : Tree) (trees : List Tree) : Prop :=
  ∃ construct : Construct, tree.kind = construct.kind ∧ tree.reading construct = trees

/-- The tree is a function. -/
def IsFunction (tree : Tree) : Prop :=
  ∃ construct : Construct, tree.kind = construct.kind ∧ construct.isFunction = true

/-- The tree is a class. -/
def IsClass (tree : Tree) : Prop :=
  ∃ construct : Construct, tree.kind = construct.kind ∧ construct.isClass = true

/-! ## Arranged trees -/

/-- What a grammar is relied on for at one node, besides its range. -/
structure Tidy (tree : Tree) : Prop where
  /-- The children stand one behind the other. -/
  children_inOrder : InOrder tree.children
  /-- What is read of the construct stands in the order of the grammar. -/
  reading_inOrder : ∀ construct : Construct, tree.kind = construct.kind →
    InOrder (tree.reading construct)
  /-- A function has no decorators. -/
  undecorated : tree.IsFunction → ∀ part ∈ tree.parts, part.kind ≠ "decorator"
  /-- The name of a class is a plain name. -/
  plainly_named : tree.IsClass →
    ∀ name ∈ tree.child? "name", Lowering.nameKinds.contains name.kind = true
  /-- Behind the first clause about ancestors stand interfaces only. -/
  interfaces_last : tree.kind = "class_heritage" →
    ∀ clause ∈ tree.parts.tail, clause.kind = "implements_clause"
  /-- What opens an element is an opening tag. -/
  opened : tree.kind = "jsx_element" →
    ∀ opening ∈ tree.child? "open_tag", opening.kind = "jsx_opening_element"

instance (tree : Tree) : Decidable tree.IsFunction :=
  inferInstanceAs (Decidable (∃ _ : Construct, _))

instance (tree : Tree) : Decidable tree.IsClass :=
  inferInstanceAs (Decidable (∃ _ : Construct, _))

/-- Whether a node is tidy is decided by looking at its children and its fields. -/
instance (tree : Tree) : Decidable (Tidy tree) :=
  decidable_of_iff (InOrder tree.children ∧
      (∀ construct : Construct, tree.kind = construct.kind → InOrder (tree.reading construct)) ∧
      (tree.IsFunction → ∀ part ∈ tree.parts, part.kind ≠ "decorator") ∧
      (tree.IsClass →
        ∀ name ∈ tree.child? "name", Lowering.nameKinds.contains name.kind = true) ∧
      (tree.kind = "class_heritage" →
        ∀ clause ∈ tree.parts.tail, clause.kind = "implements_clause") ∧
      (tree.kind = "jsx_element" →
        ∀ opening ∈ tree.child? "open_tag", opening.kind = "jsx_opening_element"))
    ⟨fun ⟨children, reading, undecorated, named, interfaces, opened⟩ =>
        ⟨children, reading, undecorated, named, interfaces, opened⟩,
      fun ⟨children, reading, undecorated, named, interfaces, opened⟩ =>
        ⟨children, reading, undecorated, named, interfaces, opened⟩⟩

/-- The tree is well-formed, and all its nodes are tidy. -/
structure Arranged (source : String) (tree : Tree) : Prop where
  /-- All nodes cover pieces of the source, each inside the one above it. -/
  wellFormed : tree.WellFormed source
  /-- All nodes are tidy. -/
  tidy : ∀ part ∈ tree.subtrees, part.Tidy

/-- Whether a tree is arranged is decided by looking at its nodes. -/
instance (source : String) (tree : Tree) : Decidable (Arranged source tree) :=
  decidable_of_iff (tree.WellFormed source ∧ ∀ part ∈ tree.subtrees, part.Tidy)
    ⟨fun ⟨formed, tidy⟩ => ⟨formed, tidy⟩, fun ⟨formed, tidy⟩ => ⟨formed, tidy⟩⟩

variable {source : String} {tree part : Tree}

/-- Every tree counts as one of its own subtrees. -/
theorem mem_subtrees_self (tree : Tree) : tree ∈ tree.subtrees :=
  mem_subtrees.mpr (.inl rfl)

/-- What is below a tree that is below another one is below that one. -/
theorem mem_subtrees_trans {below : Tree} (tree : Tree) (member : part ∈ tree.subtrees)
    (inside : below ∈ part.subtrees) : below ∈ tree.subtrees := by
  rcases mem_subtrees.mp member with rfl | ⟨child, inChildren, member⟩
  · exact inside
  · exact mem_subtrees.mpr (.inr ⟨child, inChildren, mem_subtrees_trans child member inside⟩)
termination_by sizeOf tree
decreasing_by exact sizeOf_lt_of_mem_children inChildren

/-- A child is a subtree. -/
theorem mem_subtrees_of_mem_children (member : part ∈ tree.children) : part ∈ tree.subtrees :=
  mem_subtrees.mpr (.inr ⟨part, member, mem_subtrees_self part⟩)

/-- A named child is a subtree. -/
theorem mem_subtrees_of_mem_parts (member : part ∈ tree.parts) : part ∈ tree.subtrees :=
  mem_subtrees_of_mem_children (List.mem_filter.mp member).1

/-- The trees at a place are below the construct. -/
theorem mem_subtrees_of_mem_standingAt (place : Place) (member : part ∈ tree.standingAt place) :
    part ∈ tree.subtrees := by
  have answered : ∀ {field part}, tree.child? field = some part → part ∈ tree.subtrees :=
    fun answer => (mem_subtrees_of_child? answer).1
  have tagged : ∀ {field kind part}, (tree.child? field).or (tree.partOfKind? kind) = some part →
      part ∈ tree.subtrees := by
    intro field kind part found
    rcases Option.or_eq_some_iff.mp found with found | ⟨-, found⟩
    · exact answered found
    · exact mem_subtrees_of_mem_parts (List.mem_of_find?_eq_some found)
  cases place with
  | field name => exact answered (Option.mem_toList.mp member)
  | filling name => exact mem_subtrees_of_mem_children (List.mem_filter.mp member).1
  | parts => exact mem_subtrees_of_mem_parts member
  | partsOfKinds kinds => exact mem_subtrees_of_mem_parts (List.mem_filter.mp member).1
  | eitherField name other =>
    rcases Option.or_eq_some_iff.mp (Option.mem_toList.mp member) with found | ⟨-, found⟩
    · exact answered found
    · exact answered found
  | fieldOrFirst name =>
    rcases Option.or_eq_some_iff.mp (Option.mem_toList.mp member) with found | ⟨-, found⟩
    · exact answered found
    · exact mem_subtrees_of_mem_parts (List.mem_of_head? found)
  | fieldOrLast name =>
    rcases Option.or_eq_some_iff.mp (Option.mem_toList.mp member) with found | ⟨-, found⟩
    · exact answered found
    · exact mem_subtrees_of_mem_parts (List.mem_of_getLast? found)
  | attributes => exact mem_subtrees_of_mem_parts (List.mem_filter.mp member).1
  | element =>
    simp only [standingAt] at member
    split at member
    · rename_i opening closing foundOpening foundClosing
      rcases List.mem_cons.mp member with rfl | member
      · exact tagged foundOpening
      · rcases List.mem_append.mp member with member | member
        · exact mem_subtrees_of_mem_parts (List.mem_filter.mp member).1
        · exact List.mem_singleton.mp member ▸ tagged foundClosing
    · cases member

/-- What is read of a construct are subtrees of it. -/
theorem Reads.mem_subtrees {trees : List Tree} (reads : tree.Reads trees)
    (member : part ∈ trees) : part ∈ tree.subtrees := by
  obtain ⟨construct, -, rfl⟩ := reads
  obtain ⟨place, -, member⟩ := List.mem_flatMap.mp member
  exact mem_subtrees_of_mem_standingAt place member

/-- What is read of a function are its name and what stands behind it. -/
theorem IsFunction.reads (isFunction : tree.IsFunction) :
    tree.Reads ((tree.child? "name").toList ++ functionPlaces.flatMap tree.standingAt) := by
  obtain ⟨construct, kind, isFunction⟩ := isFunction
  refine ⟨construct, kind, ?_⟩
  cases construct <;> cases isFunction <;> rfl

/-- What is read of a class are its decorators, its name and what stands behind it. -/
theorem IsClass.reads (isClass : tree.IsClass) :
    tree.Reads (tree.standingAt (.partsOfKinds ["decorator"]) ++
      ((tree.child? "name").toList ++ classPlaces.flatMap tree.standingAt)) := by
  obtain ⟨construct, kind, isClass⟩ := isClass
  refine ⟨construct, kind, ?_⟩
  cases construct <;> cases isClass <;> rfl

/-- What is read of a dotted name are its two sides. -/
theorem reads_of_sides? {object property : Tree}
    (dotted : tree.kind = "member_expression" ∨ tree.kind = "nested_identifier")
    (sides : Lowering.sides? tree ["object"] ["property"] = some (object, property)) :
    tree.Reads [object, property] := by
  have standing : tree.standingAt (.fieldOrFirst "object") ++
      (tree.standingAt (.fieldOrLast "property") ++ []) = [object, property] := by
    simp only [Lowering.sides?, List.findSome?_singleton] at sides
    split at sides
    · rename_i left right foundLeft foundRight
      split at sides
      · cases sides
      · cases sides
        simp [standingAt, foundLeft, foundRight]
    · cases sides
  rcases dotted with kind | kind
  · exact ⟨.memberAccess, kind, standing⟩
  · exact ⟨.nestedName, kind, standing⟩

/-- A tree below a well-formed one lies inside its range. -/
theorem WellFormed.inside_of_mem_subtrees (tree : Tree) (formed : tree.WellFormed source)
    (member : part ∈ tree.subtrees) : part.Inside source tree.span := by
  rcases mem_subtrees.mp member with rfl | ⟨child, inChildren, below⟩
  · exact formed.inside
  · have insideChild := formed.inside.of_mem_children inChildren
    have inside := inside_of_mem_subtrees child insideChild.wellFormed below
    exact ⟨inside.wellFormed, Nat.le_trans insideChild.start_le inside.start_le,
      Nat.le_trans inside.stop_le insideChild.stop_le⟩
termination_by sizeOf tree
decreasing_by exact sizeOf_lt_of_mem_children inChildren

namespace Arranged

/-- Every tree below an arranged one is arranged. -/
theorem of_mem_subtrees (arranged : tree.Arranged source) (member : part ∈ tree.subtrees) :
    part.Arranged source :=
  ⟨arranged.wellFormed.of_mem_subtrees _ member,
    fun _ below => arranged.tidy _ (mem_subtrees_trans tree member below)⟩

/-- The named children of an arranged tree are arranged. -/
theorem of_mem_parts (arranged : tree.Arranged source) (member : part ∈ tree.parts) :
    part.Arranged source :=
  arranged.of_mem_subtrees (mem_subtrees_of_mem_parts member)

/-- The answer for a field of an arranged tree is arranged. -/
theorem of_child? (arranged : tree.Arranged source) {field : String}
    (answer : tree.child? field = some part) : part.Arranged source :=
  arranged.of_mem_subtrees (mem_subtrees_of_child? answer).1

/-- An arranged tree is tidy at its root. -/
theorem self_tidy (arranged : tree.Arranged source) : tree.Tidy :=
  arranged.tidy tree (mem_subtrees_self tree)

/-- The named children stand one behind the other. -/
theorem parts_inOrder (arranged : tree.Arranged source) : InOrder tree.parts :=
  arranged.self_tidy.children_inOrder.filter _

end Arranged

end CodeClones.Concrete.Tree
