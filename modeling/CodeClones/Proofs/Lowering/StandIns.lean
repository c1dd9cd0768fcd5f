import CodeClones.Lowering.Rules
import CodeClones.Proofs.Lowering.Placement

/-!
# The tree that a node stands for

A node covers the range of the tree that it was lowered from. Five kinds of trees are the
exception: they are wrapped around one other tree, whose node may take their place. So the range
of every node is that of the tree itself or of one that is reached from it through such wrappers.
-/

namespace CodeClones.Lowering

open Syntax Concrete

/-- The tree in a wrapper, whose node may take the place of a node of the wrapper. -/
def wrapped? (tree : Tree) : Option Tree :=
  if tree.kind = "finally_clause" then tree.child? "body"
  else if ["expression_statement", "else_clause", "ambient_declaration",
      "template_substitution"].contains tree.kind then tree.firstPart?
  else none

/-- The trees whose node may take the place of a node of the first tree: this tree, and what is
reached from it through wrappers. -/
inductive StandsIn : (tree inner : Tree) → Prop
  | self (tree : Tree) : StandsIn tree tree
  | wrapped {tree held inner : Tree} (found : wrapped? tree = some held)
      (further : StandsIn held inner) : StandsIn tree inner

/-- Only the tree itself stands in for one that is no wrapper. -/
theorem StandsIn.eq_of_wrapped? {tree inner : Tree} (stands : StandsIn tree inner)
    (none : wrapped? tree = none) : inner = tree := by
  cases stands with
  | self => rfl
  | wrapped found _ =>
    rw [none] at found
    cases found

/-- The rule gives nodes that cover the range of their tree, or the node of what is wrapped. -/
def Rule.InPlace (kind : String) (rule : Rule) : Prop :=
  ∀ (context : Context) (tree : Tree), tree.kind = kind →
    (rule context tree).value.span = tree.span ∨
      ∃ held, wrapped? tree = some held ∧ (rule context tree).value = (context.lower held).value

/-! ## Constructs with a case distinction -/

section

variable {context : Context} {tree : Tree}

/-- A loop over keys or values covers its tree. -/
theorem span_loopOver : (context.loopOver tree).value.span = tree.span := by
  simp only [Context.loopOver, Lowered.value_bind]
  split <;> split <;> rfl

/-- A declarator covers its tree, with a name or without. -/
theorem span_variableDeclarator : (variableDeclarator context tree).value.span = tree.span := by
  unfold variableDeclarator
  split <;> rfl

/-- An interface covers its tree, with a body or without. -/
theorem span_interfaceDeclaration :
    (interfaceDeclaration context tree).value.span = tree.span := by
  unfold interfaceDeclaration
  cases tree.partOfKind? "extends_type_clause" <;> cases tree.child? "body" <;> rfl

/-- An enumeration covers its tree, with a body or without. -/
theorem span_enumDeclaration : (enumDeclaration context tree).value.span = tree.span := by
  unfold enumDeclaration
  cases tree.child? "body" <;> rfl

/-- A member of an enumeration covers its tree, also one that is a name only. -/
theorem span_enumMember : (context.enumMember tree).value.span = tree.span := by
  unfold Context.enumMember
  split <;> rfl

/-- An exported item covers its tree, whatever it exports. -/
theorem span_exportItem : (context.exportItem tree).value.span = tree.span := by
  unfold Context.exportItem
  split
  · rfl
  · rfl
  · simp only [Lowered.value_bind]
    split <;> rfl

/-- A method covers its tree, also the constructor. -/
theorem span_method (leading : List Node) : (context.method leading tree).value.span = tree.span := by
  simp only [Context.method, Lowered.value_bind]
  split <;> rfl

/-- A field of a class covers its tree. -/
theorem span_property (leading : List Node) :
    (context.property leading tree).value.span = tree.span := by
  unfold Context.property
  split <;> rfl

/-- A function type covers its tree. -/
theorem span_functionType : (functionType context tree).value.span = tree.span := by
  simp only [functionType, Lowered.value_bind]
  split <;> rfl

/-- An indexed access covers its tree. -/
theorem span_indexedAccess : (indexedAccess context tree).value.span = tree.span := by
  unfold indexedAccess
  split <;> rfl

/-- An inferred type covers its tree, not only its name. -/
theorem span_inferType : (inferType context tree).value.span = tree.span := by
  unfold inferType
  split <;> rfl

/-- An index signature covers its tree, also one that is a mapped type. -/
theorem span_keySignature : (context.keySignature tree).value.span = tree.span := by
  unfold Context.keySignature
  split <;> rfl

/-- A type query covers its tree. -/
theorem span_typeQuery : (typeQuery context tree).value.span = tree.span := by
  simp only [typeQuery, Lowered.value_bind]
  split <;> rfl

/-- An assertion covers its tree, also where it is the node of a predicate. -/
theorem span_assertion : (context.assertion tree).value.span = tree.span := by
  unfold Context.assertion
  split
  · rfl
  · split <;> rfl

/-- A number covers its tree, whether it can be read or not. -/
theorem span_numberNode (text : String) : (numberNode tree text).span = tree.span := by
  unfold numberNode
  dsimp only
  split
  · rfl
  · split <;> rfl

/-- An optional chain covers the same range as the node in it. -/
theorem span_chained (kind : Kind) (slots : Slots kind.layout) :
    (chained tree (place tree kind slots)).span = tree.span := by
  unfold chained
  split <;> rfl

/-- A call covers its tree, and so does a template with a tag. -/
theorem span_callOrTag : (context.callOrTag tree).value.span = tree.span := by
  simp only [Context.callOrTag, Lowered.value_bind]
  split
  · split
    · rfl
    · exact span_chained _ _
  · exact span_chained _ _

/-- A cast in front covers its tree. -/
theorem span_castBefore : (castBefore context tree).value.span = tree.span := by
  unfold castBefore
  split
  · dsimp only
    split <;> rfl
  · rfl

/-- A cast behind covers its tree. -/
theorem span_castBehind : (castBehind context tree).value.span = tree.span := by
  unfold castBehind
  split <;> rfl

/-- A check behind covers its tree. -/
theorem span_checkBehind : (checkBehind context tree).value.span = tree.span := by
  unfold checkBehind
  split <;> rfl

/-- A subscript covers its tree. -/
theorem span_subscript : (subscript context tree).value.span = tree.span := by
  unfold subscript
  split <;> exact span_chained _ _

/-- A parameter covers its tree with all its modifiers. -/
theorem span_fullParameter : (context.fullParameter tree).value.span = tree.span := by
  simp only [Context.fullParameter, Lowered.value_bind]
  split <;> rfl

/-- An element or a fragment covers its tree. -/
theorem span_element : (context.element tree).value.span = tree.span := by
  unfold Context.element
  dsimp only
  split
  · simp only [Lowered.value_bind]
    split <;> rfl
  · rfl

/-- An opening tag by itself covers its tree. -/
theorem span_openingElement : (openingElement context tree).value.span = tree.span := by
  simp only [openingElement, Context.openingTag]
  cases tree.child? "name" <;> rfl

/-- A closing tag covers its tree. -/
theorem span_closingElement : (closingElement context tree).value.span = tree.span := by
  unfold closingElement
  split <;> rfl

/-- An attribute covers its tree. -/
theorem span_markupAttribute : (markupAttribute context tree).value.span = tree.span := by
  unfold markupAttribute
  split <;> rfl

/-- Code in markup covers its tree. -/
theorem span_markupExpression : (markupExpression context tree).value.span = tree.span := by
  unfold markupExpression
  split <;> rfl

/-- A name with a namespace covers its tree. -/
theorem span_markupName (kind : tree.kind = "jsx_namespace_name") :
    (context.markupName tree).value.span = tree.span := by
  unfold Context.markupName
  rw [if_neg (by simp [kind]), if_pos kind]
  split <;> rfl

end

/-! ## Wrappers -/

/-- The node of a wrapper around the first named child, or a node that says that it lacks one. -/
theorem inPlace_firstRequired {context : Context} {tree : Tree}
    (wrapper : wrapped? tree = tree.firstPart?) :
    (context.firstRequired tree).value.span = tree.span ∨
      ∃ held, wrapped? tree = some held ∧
        (context.firstRequired tree).value = (context.lower held).value := by
  unfold Context.firstRequired
  cases found : tree.firstPart? with
  | none => exact .inl rfl
  | some held => exact .inr ⟨held, wrapper.trans found, rfl⟩

/-- An expression statement is the node of a module that it holds, or covers its tree. -/
theorem expressionStatement_inPlace : Rule.InPlace "expression_statement" expressionStatement := by
  intro context tree kind
  have wrapper : wrapped? tree = tree.firstPart? := by simp [wrapped?, kind]
  unfold expressionStatement
  cases found : tree.firstPart? with
  | none => exact .inl rfl
  | some inner =>
    dsimp only
    split
    · exact .inr ⟨inner, wrapper.trans found, rfl⟩
    · exact .inl rfl

/-- The other branch of a condition is the node of the statement in its clause. -/
theorem elseBranch_inPlace :
    Rule.InPlace "else_clause" fun context tree => context.elseBranch tree := by
  intro context tree kind
  have wrapper : wrapped? tree = tree.firstPart? := by simp [wrapped?, kind]
  simp only [Context.elseBranch, kind, if_true]
  exact inPlace_firstRequired wrapper

/-- The clause that ends a `try` is the node of its body. -/
theorem finallyClause_inPlace :
    Rule.InPlace "finally_clause" fun context tree => context.required tree "body" := by
  intro context tree kind
  have wrapper : wrapped? tree = tree.child? "body" := by simp [wrapped?, kind]
  simp only [Context.required]
  cases found : tree.child? "body" with
  | none => exact .inl rfl
  | some body => exact .inr ⟨body, wrapper.trans found, rfl⟩

/-- An ambient declaration is the node of what it declares, or a module of its own. -/
theorem ambient_inPlace :
    Rule.InPlace "ambient_declaration" fun context tree => context.ambient tree := by
  intro context tree kind
  have wrapper : wrapped? tree = tree.firstPart? := by simp [wrapped?, kind]
  simp only [Context.ambient]
  cases found : tree.firstPart? with
  | none => exact .inl rfl
  | some part =>
    dsimp only
    split
    · exact .inl rfl
    · exact .inr ⟨part, wrapper.trans found, rfl⟩

/-- A substitution is the node of the expression in it. -/
theorem substitution_inPlace :
    Rule.InPlace "template_substitution" fun context tree => context.firstRequired tree := by
  intro context tree kind
  exact inPlace_firstRequired (by simp [wrapped?, kind])

/-! ## All rules -/

/-- All rules for statements cover their tree, but for the wrappers. -/
theorem statementRules_inPlace : ∀ entry ∈ statementRules, Rule.InPlace entry.1 entry.2 := by
  simp only [statementRules, List.forall_mem_cons, List.not_mem_nil, false_implies, implies_true,
    and_true, true_and, expressionStatement_inPlace, elseBranch_inPlace, finallyClause_inPlace,
    ambient_inPlace]
  and_intros
  all_goals
    intro context tree kind
    left
    first
      | rfl
      | exact span_loopOver
      | exact span_enumMember
      | exact span_exportItem
      | exact span_method []
      | exact span_property []
      | exact span_variableDeclarator
      | exact span_interfaceDeclaration
      | exact span_enumDeclaration

/-- All rules for types cover their tree. -/
theorem typeRules_inPlace : ∀ entry ∈ typeRules, Rule.InPlace entry.1 entry.2 := by
  simp only [typeRules, List.forall_mem_cons, List.not_mem_nil, false_implies, implies_true,
    and_true]
  and_intros
  all_goals
    intro context tree kind
    left
    first
      | rfl
      | exact span_keySignature
      | exact span_typeQuery
      | exact span_assertion
      | exact span_functionType
      | exact span_indexedAccess
      | exact span_inferType

/-- All rules for expressions cover their tree, but for the substitution of a template. -/
theorem expressionRules_inPlace : ∀ entry ∈ expressionRules, Rule.InPlace entry.1 entry.2 := by
  simp only [expressionRules, List.forall_mem_cons, List.not_mem_nil, false_implies, implies_true,
    and_true, true_and, substitution_inPlace]
  and_intros
  all_goals
    intro context tree kind
    left
    first
      | rfl
      | exact span_numberNode _
      | exact span_chained _ _
      | exact span_callOrTag
      | exact span_castBefore
      | exact span_castBehind
      | exact span_checkBehind
      | exact span_subscript
      | exact span_fullParameter

/-- All rules for markup cover their tree. -/
theorem markupRules_inPlace : ∀ entry ∈ markupRules, Rule.InPlace entry.1 entry.2 := by
  simp only [markupRules, List.forall_mem_cons, List.not_mem_nil, false_implies, implies_true,
    and_true]
  and_intros
  all_goals
    intro context tree kind
    left
    first
      | rfl
      | exact span_element
      | exact span_openingElement
      | exact span_closingElement
      | exact span_markupAttribute
      | exact span_markupExpression
      | exact span_markupName kind

/-- The node of every tree covers the range of a tree that stands in for it. -/
theorem exists_standsIn_span (source : String) (levels : Nat) (tree : Tree) :
    ∃ inner, StandsIn tree inner ∧ (lower source levels tree).value.span = inner.span := by
  induction levels generalizing tree with
  | zero => exact ⟨tree, .self tree, rfl⟩
  | succ levels ih =>
    rw [lower, applyRule]
    cases found : rule? tree.kind with
    | none => exact ⟨tree, .self tree, rfl⟩
    | some rule =>
      have inPlace : Rule.InPlace tree.kind rule :=
        forall_of_rule? statementRules_inPlace typeRules_inPlace expressionRules_inPlace
          markupRules_inPlace found
      rcases inPlace ⟨source, lower source levels⟩ tree rfl with own | ⟨held, wrapped, taken⟩
      · exact ⟨tree, .self tree, own⟩
      · obtain ⟨inner, stands, span⟩ := ih held
        exact ⟨inner, .wrapped wrapped stands, (congrArg Node.span taken).trans span⟩

end CodeClones.Lowering
