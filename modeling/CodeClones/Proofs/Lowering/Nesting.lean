import CodeClones.Proofs.Lowering.Depth

/-!
# The bound on nesting

Every rule rises at most five levels above what its context lowers, so lowering that goes down a
number of levels gives nodes within five times as many levels, and one more. A program is
refused as too deep when lowering would have to go further down. What is left are dotted names,
which take no levels: the last part shows an element whose name alone is nested deeper than the
bound for all other nodes.
-/

namespace CodeClones.Lowering

open Syntax Concrete

/-! ## All rules -/

/-- The rule rises at most five levels above what its context lowers. -/
def Rule.Shallow (rule : Rule) : Prop :=
  ∀ (context : Context) (tree : Tree), context.Above 5 (rule context tree).value

/-- An expression statement is the expression itself or one level above it. -/
theorem expressionStatement_shallow : Rule.Shallow expressionStatement := by
  intro context tree
  unfold expressionStatement
  split
  · simp
  · split <;> simp

/-- A declarator stands one level above its binding and its value. -/
theorem variableDeclarator_shallow : Rule.Shallow variableDeclarator := by
  intro context tree
  unfold variableDeclarator
  cases tree.child? "name" <;> simp

/-- An interface stands one level above its ancestors and its body. -/
theorem interfaceDeclaration_shallow : Rule.Shallow interfaceDeclaration := by
  intro context tree
  unfold interfaceDeclaration
  cases tree.partOfKind? "extends_type_clause" <;> cases tree.child? "body" <;> simp

/-- An enumeration stands one level above its members. -/
theorem enumDeclaration_shallow : Rule.Shallow enumDeclaration := by
  intro context tree
  have members : ∀ trees : List Tree,
      context.AllAbove 4 (Lowered.all (trees.map context.enumMember)).value :=
    fun _ => Context.allAbove_all fun _ => Context.above_enumMember
  unfold enumDeclaration
  cases tree.child? "body" <;> simp [members]

/-- A module stands one level above its block. -/
theorem moduleDeclaration_shallow : Rule.Shallow moduleDeclaration := by
  intro context tree
  have body : context.AllAbove 4
      (Lowered.optional ((tree.child? "body").map context.moduleBlock)).value.toList :=
    Context.allAbove_optional fun _ => Context.above_moduleBlock
  simp [moduleDeclaration, body]

/-- All rules for statements are shallow; classes rise highest. -/
theorem statementRules_shallow : ∀ entry ∈ statementRules, Rule.Shallow entry.2 := by
  simp only [statementRules, List.forall_mem_cons, List.not_mem_nil, false_implies, implies_true,
    and_true, true_and, expressionStatement_shallow, variableDeclarator_shallow,
    interfaceDeclaration_shallow, enumDeclaration_shallow, moduleDeclaration_shallow]
  and_intros
  all_goals
    intro context tree
    simp [variableDeclaration, functionDeclaration, classDeclaration, Context.allAbove_all,
      Context.allAbove_optional, Context.above_method, Context.above_property]

/-- A function type stands one level above its parameters. -/
theorem functionType_shallow : Rule.Shallow functionType := by
  intro context tree
  have returned : context.AllAbove 4 (context.optional tree "return_type").value.toList :=
    Context.allAbove_optionalField
  simp only [functionType, Lowered.value_bind]
  cases found : (context.optional tree "return_type").value with
  | none => simp
  | some type =>
    rw [found] at returned
    simpa using returned

/-- A type query stands one level above the expression and its arguments. -/
theorem typeQuery_shallow : Rule.Shallow typeQuery := by
  intro context tree
  simp only [typeQuery, Lowered.value_bind]
  split <;> simp

/-- An indexed access stands one level above its two types. -/
theorem indexedAccess_shallow : Rule.Shallow indexedAccess := by
  intro context tree
  unfold indexedAccess
  split <;> simp

/-- An inferred type stands two levels above its name, as a parameter is in between. -/
theorem inferType_shallow : Rule.Shallow inferType := by
  intro context tree
  unfold inferType
  split <;> simp

/-- All rules for types are shallow. -/
theorem typeRules_shallow : ∀ entry ∈ typeRules, Rule.Shallow entry.2 := by
  simp only [typeRules, List.forall_mem_cons, List.not_mem_nil, false_implies, implies_true,
    and_true, true_and, functionType_shallow, typeQuery_shallow, indexedAccess_shallow,
    inferType_shallow]
  and_intros
  all_goals
    intro context tree
    simp [ascription, methodSignature, Context.wrapping]

/-- A subscript stands two levels above its sides, or three in an optional chain. -/
theorem subscript_shallow : Rule.Shallow subscript := by
  intro context tree
  unfold subscript
  cases tree.child? "index" <;> simp

/-- A cast written behind stands one level above the expression and the type. -/
theorem castBehind_shallow : Rule.Shallow castBehind := by
  intro context tree
  unfold castBehind
  split <;> simp

/-- A check written behind stands one level above the expression and the type. -/
theorem checkBehind_shallow : Rule.Shallow checkBehind := by
  intro context tree
  unfold checkBehind
  split <;> simp

/-- A cast written in front stands one level above the type and the expression. -/
theorem castBefore_shallow : Rule.Shallow castBefore := by
  intro context tree
  unfold castBefore
  split
  · split <;> simp
  · simp

/-- A number has nothing below it, whether it can be read or not. -/
theorem above_numberNode {context : Context} {levels : Nat} {tree : Tree} {text : String} :
    context.Above levels (numberNode tree text) := by
  unfold numberNode
  dsimp only
  split
  · exact Context.above_leaf rfl
  · split
    · exact Context.above_leaf rfl
    · exact Context.above_unmodelled

/-- The arguments of a call are lowered by the context. -/
theorem allAbove_arguments {context : Context} {levels : Nat} {tree : Tree} {field : String} :
    context.AllAbove levels
      ((Lowered.optional ((tree.child? field).map context.parts)).value.getD []) := by
  cases tree.child? field with
  | none => exact Context.allAbove_nil
  | some list => exact Context.allAbove_parts

/-- All rules for expressions are shallow. -/
theorem expressionRules_shallow : ∀ entry ∈ expressionRules, Rule.Shallow entry.2 := by
  simp only [expressionRules, List.forall_mem_cons, List.not_mem_nil, false_implies, implies_true,
    and_true, true_and, subscript_shallow, castBehind_shallow, checkBehind_shallow,
    castBefore_shallow]
  and_intros
  all_goals
    intro context tree
    simp [identifierRule, functionExpression, above_numberNode, allAbove_arguments,
      Context.allAbove_all]

/-- An opening tag by itself is shallow, with a name or without. -/
theorem openingElement_shallow : Rule.Shallow openingElement := by
  intro context tree
  unfold openingElement
  split <;> simp

/-- A closing tag stands one level above its name, or closes a fragment. -/
theorem closingElement_shallow : Rule.Shallow closingElement := by
  intro context tree
  unfold closingElement
  split <;> simp

/-- An attribute stands one level above its name and its value. -/
theorem markupAttribute_shallow : Rule.Shallow markupAttribute := by
  intro context tree
  unfold markupAttribute
  split <;> simp

/-- Code in markup stands one level above the expression that it holds. -/
theorem markupExpression_shallow : Rule.Shallow markupExpression := by
  intro context tree
  unfold markupExpression
  split <;> simp

/-- All rules for markup are shallow. -/
theorem markupRules_shallow : ∀ entry ∈ markupRules, Rule.Shallow entry.2 := by
  simp only [markupRules, List.forall_mem_cons, List.not_mem_nil, false_implies, implies_true,
    and_true, true_and, openingElement_shallow, closingElement_shallow, markupAttribute_shallow,
    markupExpression_shallow]
  and_intros
  all_goals
    intro context tree
    simp [markupText]

/-- Whatever rule a construct has is shallow. -/
theorem shallow_of_rule? {kind : String} {rule : Rule} (found : rule? kind = some rule) :
    Rule.Shallow rule :=
  forall_of_rule? (motive := fun _ rule => Rule.Shallow rule) statementRules_shallow
    typeRules_shallow expressionRules_shallow markupRules_shallow found

/-- Each level that lowering may go down adds at most five levels of nodes. -/
theorem within_lower (source : String) (levels : Nat) (tree : Tree) :
    (lower source levels tree).value.Within (5 * levels + 1) := by
  induction levels generalizing tree with
  | zero =>
    have leaf : ∀ child ∈ (unmodelled tree).stored, child.Within 0 := by
      intro child member
      cases member
    exact Node.within_iff.mpr leaf
  | succ levels ih =>
    have above : Context.Above ⟨source, lower source levels⟩ 5
        (lower source (levels + 1) tree).value := by
      change Context.Above _ 5 (applyRule _ tree).value
      unfold applyRule
      split
      · rename_i rule found
        exact shallow_of_rule? found _ tree
      · exact Context.above_unmodelled
    exact (above (5 * levels + 1) (by omega) ih).mono (by omega)

end CodeClones.Lowering

namespace CodeClones

open Syntax Concrete Lowering

/-- Number of the nodes of a chain that are dotted names. -/
def Syntax.dotted (chain : List Node) : Nat :=
  chain.countP fun node => node.kind.isDotted

/-- Every node of a chain is a dotted name or none. -/
theorem Syntax.length_eq_undotted_add_dotted (chain : List Node) :
    chain.length = undotted chain + dotted chain := by
  rw [List.length_eq_countP_add_countP fun node => node.kind.isDotted, undotted, dotted,
    Nat.add_comm]
  simp only [Bool.not_eq_true, Bool.decide_eq_false]

/-- A tree in which nothing is wrong is refused as too deep, or else no chain of nested nodes in
its program has more than eight nodes for each level that lowering may go down, not counting the
dotted names in the chain. -/
theorem ofTree_nested_le (source : String) (points : Nat → Point) (root : Tree) :
    match Program.ofTree maxNesting source points root with
    | .ok program => ∀ first ∈ program.body, ∀ below, Nested (first :: below) →
        (first :: below).length ≤ 8 * maxNesting + dotted (first :: below)
    | .error error => root.header.hasError = true ∨ error = .tooDeep maxNesting := by
  unfold Program.ofTree
  by_cases wrong : root.header.hasError = true
  · rw [if_pos wrong]
    exact .inl wrong
  · rw [if_neg wrong]
    by_cases deep : (programBody source maxNesting root).tooDeep = true
    · rw [if_pos deep]
      exact .inr rfl
    · rw [if_neg deep]
      intro first member below nested
      simp only [programBody, Lowered.all, List.map_map, List.mem_map, Function.comp_apply]
        at member
      obtain ⟨tree, _, rfl⟩ := member
      have bound := within_lower source maxNesting tree below nested
      have parts := length_eq_undotted_add_dotted ((lower source maxNesting tree).value :: below)
      have room : 5 * maxNesting + 1 ≤ 8 * maxNesting := by decide
      omega

/-! ## A long dotted name -/

/-- A node of the tree of an element, with neither errors nor fields of its own. -/
def partAt (id : Nat) (kind : String) (span : Span) (named : Bool) (field : Option String)
    (children : List Tree) : Tree :=
  .node ⟨id, kind, span, named, field, false, false, false, []⟩ children

/-- The tree of the name `a.a.a`, with the given number of dots, where an element begins. -/
def dottedName (id : Nat) (field : String) : (dots : Nat) → Tree
  | 0 => partAt id "identifier" ⟨1, 2⟩ true (some field) []
  | dots + 1 =>
    partAt id "member_expression" ⟨1, 2 * dots + 4⟩ true (some field)
      [dottedName (id + 1) "object" dots,
        partAt (id + 3 * dots + 2) "." ⟨2 * dots + 2, 2 * dots + 3⟩ false none [],
        partAt (id + 3 * dots + 3) "property_identifier" ⟨2 * dots + 3, 2 * dots + 4⟩ true
          (some "property") []]

/-- The tree of the element `<a.a.a />`, with the given number of dots. -/
def dottedElement (dots : Nat) : Tree :=
  partAt 2 "jsx_self_closing_element" ⟨0, 2 * dots + 5⟩ true none
    [partAt 3 "<" ⟨0, 1⟩ false none [], dottedName 4 "name" dots,
      partAt (3 * dots + 5) "/>" ⟨2 * dots + 3, 2 * dots + 5⟩ false none []]

/-- The tree of the statement that consists of that element. -/
def dottedStatement (dots : Nat) : Tree :=
  partAt 1 "expression_statement" ⟨0, 2 * dots + 6⟩ true none
    [dottedElement dots, partAt (3 * dots + 6) ";" ⟨2 * dots + 5, 2 * dots + 6⟩ false none []]

/-- The tree of the program that consists of that statement. -/
def dottedProgram (dots : Nat) : Tree :=
  partAt 0 "program" ⟨0, 2 * dots + 6⟩ true none [dottedStatement dots]

/-- The text of that program. -/
def dottedSource (dots : Nat) : String :=
  "<" ++ ".".intercalate (List.replicate (dots + 1) "a") ++ " />;"

/-- The name behind the last dot. -/
def lastName (id dots : Nat) : Tree :=
  partAt (id + 3 * dots + 3) "property_identifier" ⟨2 * dots + 3, 2 * dots + 4⟩ true
    (some "property") []

/-- The two sides of a dotted name are the name before its last dot and the one behind. -/
theorem sides?_dottedName (id : Nat) (field : String) (dots : Nat) :
    sides? (dottedName id field (dots + 1)) ["object"] ["property"] =
      some (dottedName (id + 1) "object" dots, lastName id dots) := by
  have object : (dottedName id field (dots + 1)).child? "object" =
      some (dottedName (id + 1) "object" dots) := by cases dots <;> rfl
  have property : (dottedName id field (dots + 1)).child? "property" =
      some (lastName id dots) := by cases dots <;> rfl
  have differ : ¬ (dottedName (id + 1) "object" dots).id = (lastName id dots).id := by
    have first : (dottedName (id + 1) "object" dots).id = id + 1 := by cases dots <;> rfl
    have last : (lastName id dots).id = id + 3 * dots + 3 := rfl
    omega
  simp only [sides?, List.findSome?_cons, object, property, Option.some_or]
  rw [if_neg differ]

/-- A dotted name of markup is made of its two sides, by the walk itself and not by the context. -/
theorem markupName_of_sides {context : Context} {tree object property : Tree}
    (dotted : tree.kind = "member_expression")
    (sides : sides? tree ["object"] ["property"] = some (object, property)) :
    context.markupName tree =
      (context.markupName object >>= fun object =>
        context.markupName property >>= fun property =>
          pure (place tree .jsxMemberName (.child object <| .child property .done))) := by
  rw [Context.markupName, if_pos (.inl dotted)]
  split
  · rename_i found
    cases sides.symm.trans found
    rfl
  · rename_i found
    cases sides.symm.trans found

/-- A dotted name goes down once for each dot, and nothing in it counts as a level. -/
theorem descends_markupName (context : Context) (id : Nat) (field : String) (dots : Nat) :
    (context.markupName (dottedName id field dots)).tooDeep = false ∧
    (context.markupName (dottedName id field dots)).value.Descends dots := by
  induction dots generalizing id field with
  | zero =>
    have leaf : context.markupName (dottedName id field 0) =
        pure (plainIdentifier (dottedName id field 0)
          (context.textOf (dottedName id field 0))) := by
      rw [Context.markupName]
      rfl
    rw [leaf]
    exact ⟨rfl, [], List.isChain_singleton _, rfl⟩
  | succ dots ih =>
    obtain ⟨shallow, descends⟩ := ih (id + 1) "object"
    have last : (context.markupName (lastName id dots)).tooDeep = false := by
      rw [Context.markupName]
      rfl
    rw [markupName_of_sides rfl (sides?_dottedName id field dots)]
    refine ⟨?_, descends.under List.mem_cons_self⟩
    change (_ || (_ || false)) = false
    rw [shallow, last]
    rfl

/-- The element has neither attributes nor type arguments. -/
theorem openingTag_dottedElement (context : Context) (dots : Nat) :
    context.openingTag true (dottedElement dots) =
      (context.markupName (dottedName 4 "name" dots) >>= fun name =>
        pure (place (dottedElement dots) .jsxOpening
          (.child name <| .optionalChild none <| .children [] <| .attribute true .done))) := by
  have name : (dottedElement dots).child? "name" = some (dottedName 4 "name" dots) := by
    cases dots <;> rfl
  have typeArguments : (dottedElement dots).child? "type_arguments" = none := by
    cases dots <;> rfl
  have parts : (dottedElement dots).parts = [dottedName 4 "name" dots] := by
    cases dots <;> rfl
  have attributes : ((dottedElement dots).parts.filter fun child =>
      some child.id != (some (dottedName 4 "name" dots)).map (·.id) &&
        child.kind != "type_arguments") = [] := by
    rw [parts, List.filter_cons_of_neg]
    · rfl
    · simp
  simp only [Context.openingTag, Context.optional, name, typeArguments, attributes]
  rfl

/-- The statement takes two levels however long the name is. It goes down once for each dot and
thrice besides: to its element, to the tag of the element and to the name. -/
theorem descends_dottedStatement (source : String) (levels dots : Nat) :
    (lower source (levels + 2) (dottedStatement dots)).tooDeep = false ∧
    (lower source (levels + 2) (dottedStatement dots)).value.Descends (dots + 3) := by
  obtain ⟨shallow, descends⟩ :=
    descends_markupName ⟨source, lower source levels⟩ 4 "name" dots
  have statement : lower source (levels + 2) (dottedStatement dots) =
      (lower source (levels + 1) (dottedElement dots) >>= fun expression =>
        pure (place (dottedStatement dots) .expressionStatement (.child expression .done))) :=
    rfl
  have element : lower source (levels + 1) (dottedElement dots) =
      (Context.openingTag ⟨source, lower source levels⟩ true (dottedElement dots) >>= fun tag =>
        pure (place (dottedElement dots) .jsxElement
          (.child tag <| .children [] <| .optionalChild none .done))) :=
    rfl
  rw [statement, element, openingTag_dottedElement]
  constructor
  · change (((_ || false) || false) || false) = false
    rw [shallow]
    rfl
  · refine Node.Descends.under ?_ List.mem_cons_self
    refine Node.Descends.under ?_ List.mem_cons_self
    exact descends.under List.mem_cons_self

/-- The program is accepted however long the name is. -/
theorem ofTree_dottedProgram (dots : Nat) (points : Nat → Point) :
    ∃ program, Program.ofTree maxNesting (dottedSource dots) points (dottedProgram dots) =
        .ok program ∧
      ∃ first ∈ program.body, first.Descends (dots + 3) := by
  obtain ⟨shallow, descends⟩ := descends_dottedStatement (dottedSource dots) 998 dots
  have right : ¬ (dottedProgram dots).header.hasError = true := Bool.false_ne_true
  have body : programBody (dottedSource dots) maxNesting (dottedProgram dots) =
      .all [lower (dottedSource dots) (998 + 2) (dottedStatement dots)] := rfl
  have fits :
      ¬ (programBody (dottedSource dots) maxNesting (dottedProgram dots)).tooDeep = true := by
    simp [body, Lowered.all, shallow]
  unfold Program.ofTree
  rw [if_neg right, if_neg fits, body]
  exact ⟨_, rfl, _, List.mem_singleton_self _, descends⟩

/-- An element whose name has 7997 dots is accepted, although its program has a chain of more
than eight nodes for each of the levels that lowering may go down. -/
theorem ofTree_dotted_exceeds :
    ∃ program, Program.ofTree maxNesting (dottedSource 7997) (pointAt (dottedSource 7997))
        (dottedProgram 7997) = .ok program ∧
      ∃ first ∈ program.body, ∃ below, Nested (first :: below) ∧
        8 * maxNesting < (first :: below).length := by
  obtain ⟨program, accepted, first, member, below, nested, length⟩ := ofTree_dottedProgram 7997 _
  refine ⟨program, accepted, first, member, below, nested, ?_⟩
  rw [List.length_cons, length]
  decide

end CodeClones
