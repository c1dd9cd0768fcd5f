import CodeClones.Proofs.Lowering.Simulation

/-!
# Rules lower related trees in the same way

Every rule keeps agreement: in contexts that simulate each other it makes results that agree out
of related trees. So do all rules together, level by level.
-/

namespace CodeClones.Lowering

open Syntax Concrete

/-- In contexts that simulate each other, the rule makes results that agree out of related
trees. -/
def Rule.KeepsAgreement (comparison : Comparison) (rule : Rule) : Prop :=
  ∀ ⦃related : Tree → Tree → Prop⦄ ⦃context other : Context⦄,
    Simulates comparison related context other → ∀ ⦃tree copy : Tree⦄, related tree copy →
      comparison.agree (rule context tree) (rule other copy)

variable {comparison : Comparison}

/-! ## Statements -/

/-- Whether the expression stands for itself depends on its kind only. -/
theorem expressionStatement_keepsAgreement :
    Rule.KeepsAgreement comparison expressionStatement := by
  intro related context other simulates tree copy same
  unfold expressionStatement
  rcases optionRel_cases (simulates.firstPart? same) with
    ⟨none, none'⟩ | ⟨inner, inner', found, found', equal⟩
  · rw [none, none', simulates.unmodelled same]
    exact comparison.agree_pure _
  · rw [found, found']
    dsimp only
    rw [simulates.kind equal]
    split
    · exact simulates.lower equal
    · refine comparison.agree_bind (simulates.lower equal) fun _ => ?_
      rw [simulates.place same]
      exact comparison.agree_pure _

/-- A declarator is made of a name, a type and a value. -/
theorem variableDeclarator_keepsAgreement :
    Rule.KeepsAgreement comparison variableDeclarator := by
  intro related context other simulates tree copy same
  unfold variableDeclarator
  rcases optionRel_cases (simulates.child? same "name") with
    ⟨none, none'⟩ | ⟨name, name', found, found', equal⟩
  on_goal 1 =>
    rw [none, none', simulates.unmodelled same]
    refine comparison.agree_bind (comparison.agree_pure _) fun _ => ?_
  on_goal 2 =>
    rw [found, found']
    refine comparison.agree_bind ?_ fun _ => ?_
    · exact simulates.binding equal (simulates.child? same "type") false
  all_goals
    refine comparison.agree_bind (simulates.optional same _) fun _ => ?_
    rw [simulates.place same]
    exact comparison.agree_pure _

/-- An interface is made of a name, parameters, ancestors and a body. -/
theorem interfaceDeclaration_keepsAgreement :
    Rule.KeepsAgreement comparison interfaceDeclaration := by
  intro related context other simulates tree copy same
  unfold interfaceDeclaration
  refine comparison.agree_bind (simulates.nameField same _) fun _ => ?_
  refine comparison.agree_bind (simulates.optional same _) fun _ => ?_
  simp only [simulates.place same, simulates.unmodelled same]
  rcases optionRel_cases (simulates.partOfKind? same "extends_type_clause") with
    ⟨none, none'⟩ | ⟨clause, clause', found, found', equal⟩
  on_goal 1 =>
    rw [none, none']
    refine comparison.agree_bind (comparison.agree_pure _) fun _ => ?_
  on_goal 2 =>
    rw [found, found']
    refine comparison.agree_bind (simulates.heritage equal) fun _ => ?_
  all_goals
    rcases optionRel_cases (simulates.child? same "body") with
      ⟨none, none'⟩ | ⟨body, body', found, found', equal⟩
    · rw [none, none']
      exact comparison.agree_bind (comparison.agree_pure _) fun _ => comparison.agree_pure _
    · rw [found, found']
      refine comparison.agree_bind (simulates.loweredParts equal) fun _ => ?_
      rw [simulates.place equal]
      exact comparison.agree_bind (comparison.agree_pure _) fun _ => comparison.agree_pure _

/-- An enumeration is made of its name and the members in its body. -/
theorem enumDeclaration_keepsAgreement :
    Rule.KeepsAgreement comparison enumDeclaration := by
  intro related context other simulates tree copy same
  unfold enumDeclaration
  refine comparison.agree_bind (simulates.nameField same _) fun _ => ?_
  rw [simulates.hasToken same "const" (by decide)]
  simp only [simulates.place same]
  rcases optionRel_cases (simulates.child? same "body") with
    ⟨none, none'⟩ | ⟨body, body', found, found', equal⟩
  · rw [none, none']
    exact comparison.agree_bind (comparison.agree_pure _) fun _ => comparison.agree_pure _
  · rw [found, found']
    refine comparison.agree_bind ?_ fun _ => comparison.agree_pure _
    exact comparison.agree_all (simulates.parts equal) fun _ _ => simulates.enumMember

/-- All rules for statements keep agreement. -/
theorem statementRules_keepAgreement :
    ∀ entry ∈ statementRules, Rule.KeepsAgreement comparison entry.2 := by
  simp only [statementRules, List.forall_mem_cons, List.not_mem_nil, false_implies, implies_true,
    and_true]
  and_intros
  all_goals
    first
    | exact expressionStatement_keepsAgreement
    | exact variableDeclarator_keepsAgreement
    | exact interfaceDeclaration_keepsAgreement
    | exact enumDeclaration_keepsAgreement
    -- The other rules put helpers in sequence. Nothing is unfolded to find the next one.
    | intro related context other simulates tree copy same
      simp only [variableDeclaration, functionDeclaration, classDeclaration, moduleDeclaration,
        simulates.place same, simulates.declarationKeyword same]
      with_reducible
        repeat' first
          | exact comparison.agree_pure _
          | exact simulates.required same _
          | exact simulates.optional same _
          | exact simulates.condition same _
          | exact simulates.nameField same _
          | exact simulates.optionalName same _
          | exact simulates.loweredParts same
          | exact simulates.partsWithin same _
          | exact simulates.many same _
          | exact simulates.first same
          | exact simulates.firstRequired same
          | exact simulates.elseBranch same
          | exact simulates.loopPart same _
          | exact simulates.loopOver same
          | exact simulates.enumMember same
          | exact simulates.ambient same
          | exact simulates.exportItem same
          | exact simulates.method same _
          | exact simulates.property same _
          | exact simulates.functionParts same
          | exact simulates.classParts same
          | exact simulates.lowerAll (simulates.partsOfKind same _)
          | exact comparison.agree_all (simulates.importedNames same) fun _ _ => simulates.name
          | exact comparison.agree_optional (simulates.child? same _) fun _ _ =>
              simulates.elseBranch
          | exact comparison.agree_optional (simulates.child? same _) fun _ _ =>
              simulates.moduleBlock
          | exact comparison.agree_optional (simulates.child? same _) fun _ _ equal =>
              simulates.required equal _
          | exact comparison.agree_optional (simulates.child? same _) fun _ _ equal =>
              simulates.binding equal (simulates.child? same _) _
          | refine comparison.agree_bind ?_ fun _ => ?_

/-! ## Types -/

/-- A function type is made of its parameters and the type it returns. -/
theorem functionType_keepsAgreement : Rule.KeepsAgreement comparison functionType := by
  intro related context other simulates tree copy same
  unfold functionType
  refine comparison.agree_bind (simulates.signatureParameters same) fun _ => ?_
  refine comparison.agree_bind (simulates.optional same _) fun _ => ?_
  refine comparison.agree_bind (simulates.optional same _) fun returned => ?_
  simp only [simulates.place same]
  cases returned with
  | none => exact comparison.agree_bind (simulates.optional same _) fun _ => comparison.agree_pure _
  | some type =>
    exact comparison.agree_bind (comparison.agree_pure _) fun _ => comparison.agree_pure _

/-- A type query is made of the first named child that is no list of type arguments, and of the
first that is one. -/
theorem typeQuery_keepsAgreement : Rule.KeepsAgreement comparison typeQuery := by
  intro related context other simulates tree copy same
  have expressions : Option.Rel related
      (tree.parts.find? fun child => child.kind != "type_arguments")
      (copy.parts.find? fun child => child.kind != "type_arguments") := by
    refine optionRel_find? (simulates.parts same) fun first second equal => ?_
    rw [simulates.kind equal]
  unfold typeQuery
  refine comparison.agree_bind ?_ fun _ => ?_
  · exact simulates.lowerOptional (simulates.partOfKind? same "type_arguments")
  · simp only [simulates.place same, simulates.unmodelled same]
    rcases optionRel_cases expressions with
      ⟨none, none'⟩ | ⟨expression, expression', found, found', equal⟩
    · rw [none, none']
      exact comparison.agree_pure _
    · rw [found, found']
      exact comparison.agree_bind (simulates.lower equal) fun _ => comparison.agree_pure _

/-- An indexed access is made of the first two named children. -/
theorem indexedAccess_keepsAgreement : Rule.KeepsAgreement comparison indexedAccess := by
  intro related context other simulates tree copy same
  have parts := simulates.parts same
  unfold indexedAccess
  simp only [simulates.place same, simulates.unmodelled same]
  generalize tree.parts = trees, copy.parts = copies at parts
  cases parts with
  | nil => exact comparison.agree_pure _
  | cons objects parts =>
    cases parts with
    | nil => exact comparison.agree_pure _
    | cons indices _ =>
      refine comparison.agree_bind (simulates.lower objects) fun _ => ?_
      exact comparison.agree_bind (simulates.lower indices) fun _ => comparison.agree_pure _

/-- An inferred type is made of the name and what constrains it. -/
theorem inferType_keepsAgreement : Rule.KeepsAgreement comparison inferType := by
  intro related context other simulates tree copy same
  have parts := simulates.parts same
  unfold inferType
  simp only [simulates.place same, simulates.unmodelled same]
  generalize tree.parts = trees, copy.parts = copies at parts
  cases parts with
  | nil => exact comparison.agree_pure _
  | cons names others =>
    refine comparison.agree_bind (simulates.name names) fun _ => ?_
    refine comparison.agree_bind (simulates.lowerOptional (optionRel_head? others)) fun _ => ?_
    rw [simulates.place names]
    exact comparison.agree_pure _

/-- All rules for types keep agreement. -/
theorem typeRules_keepAgreement :
    ∀ entry ∈ typeRules, Rule.KeepsAgreement comparison entry.2 := by
  simp only [typeRules, List.forall_mem_cons, List.not_mem_nil, false_implies, implies_true,
    and_true]
  and_intros
  all_goals
    first
    | exact functionType_keepsAgreement
    | exact typeQuery_keepsAgreement
    | exact indexedAccess_keepsAgreement
    | exact inferType_keepsAgreement
    | intro related context other simulates tree copy same
      simp only [ascription, methodSignature, simulates.place same, simulates.textOf same,
        simulates.source, simulates.templateSegments same, simulates.hasToken same "?" (by decide),
        simulates.hasToken same "readonly" (by decide),
        simulates.hasToken same "abstract" (by decide)]
      with_reducible
        repeat' first
          | exact comparison.agree_pure _
          | exact simulates.required same _
          | exact simulates.optional same _
          | exact simulates.name same
          | exact simulates.nameField same _
          | exact simulates.loweredParts same
          | exact simulates.firstWithin same _
          | exact simulates.wrapping same fun _ => rfl
          | exact simulates.qualifiedName same
          | exact simulates.genericName same
          | exact simulates.signatureParameters same
          | exact simulates.keySignature same
          | exact simulates.assertion same
          | exact simulates.templateHoles same _
          | exact simulates.lowerAll (simulates.operands _ same)
          | refine comparison.agree_bind ?_ fun _ => ?_

/-! ## Expressions -/

/-- A subscript is made of an object and an index, and of the mark of an optional chain. -/
theorem subscript_keepsAgreement : Rule.KeepsAgreement comparison subscript := by
  intro related context other simulates tree copy same
  unfold subscript
  simp only [simulates.place same, simulates.unmodelled same, simulates.chained same]
  rcases optionRel_cases (simulates.child? same "index") with
    ⟨none, none'⟩ | ⟨index, index', found, found', equal⟩
  · rw [none, none']
    refine comparison.agree_bind (comparison.agree_pure _) fun _ => ?_
    exact comparison.agree_bind (simulates.required same _) fun _ => comparison.agree_pure _
  · rw [found, found']
    refine comparison.agree_bind (simulates.lower equal) fun _ => ?_
    rw [simulates.place equal]
    refine comparison.agree_bind (comparison.agree_pure _) fun _ => ?_
    exact comparison.agree_bind (simulates.required same _) fun _ => comparison.agree_pure _

/-- A cast behind is made of the expression and the type, or of the expression alone. -/
theorem castBehind_keepsAgreement : Rule.KeepsAgreement comparison castBehind := by
  intro related context other simulates tree copy same
  have parts := simulates.parts same
  unfold castBehind
  simp only [simulates.place same, simulates.unmodelled same]
  generalize tree.parts = trees, copy.parts = copies at parts
  cases parts with
  | nil => exact comparison.agree_pure _
  | cons expressions parts =>
    cases parts with
    | nil =>
      exact comparison.agree_bind (simulates.lower expressions) fun _ => comparison.agree_pure _
    | cons types _ =>
      refine comparison.agree_bind (simulates.lower expressions) fun _ => ?_
      exact comparison.agree_bind (simulates.lower types) fun _ => comparison.agree_pure _

/-- A check is made of the expression and the type. -/
theorem checkBehind_keepsAgreement : Rule.KeepsAgreement comparison checkBehind := by
  intro related context other simulates tree copy same
  have parts := simulates.parts same
  unfold checkBehind
  simp only [simulates.place same, simulates.unmodelled same]
  generalize tree.parts = trees, copy.parts = copies at parts
  cases parts with
  | nil => exact comparison.agree_pure _
  | cons expressions parts =>
    cases parts with
    | nil => exact comparison.agree_pure _
    | cons types _ =>
      refine comparison.agree_bind (simulates.lower expressions) fun _ => ?_
      exact comparison.agree_bind (simulates.lower types) fun _ => comparison.agree_pure _

/-- A cast in front is made of the type and the expression behind it. -/
theorem castBefore_keepsAgreement : Rule.KeepsAgreement comparison castBefore := by
  intro related context other simulates tree copy same
  have parts := simulates.parts same
  unfold castBefore
  simp only [simulates.place same, simulates.unmodelled same]
  generalize tree.parts = trees, copy.parts = copies at parts
  cases parts with
  | nil => exact comparison.agree_pure _
  | cons brackets parts =>
    cases parts with
    | nil => exact comparison.agree_pure _
    | cons expressions _ =>
      dsimp only
      rw [simulates.kind brackets]
      split
      · refine comparison.agree_bind (simulates.firstRequired brackets) fun _ => ?_
        exact comparison.agree_bind (simulates.lower expressions) fun _ => comparison.agree_pure _
      · refine comparison.agree_bind (simulates.lower brackets) fun _ => ?_
        exact comparison.agree_bind (simulates.lower expressions) fun _ => comparison.agree_pure _

/-- Whether an operator stands before its operand is the same for related trees. -/
theorem Simulates.isBefore {related : Tree → Tree → Prop} {context other : Context}
    (simulates : Simulates comparison related context other) {tree copy : Tree}
    (same : related tree copy) :
    ((copy.child? "operator").any fun operator =>
        operator.start < ((copy.child? "argument").map (·.start)).getD 0) =
      (tree.child? "operator").any fun operator =>
        operator.start < ((tree.child? "argument").map (·.start)).getD 0 := by
  have start : (copy.child? "argument").map (·.start) = (tree.child? "argument").map (·.start) := by
    rcases optionRel_cases (simulates.child? same "argument") with
      ⟨none, none'⟩ | ⟨_, _, found, found', equal⟩
    · rw [none, none']
    · rw [found, found', Option.map_some, Option.map_some, simulates.start equal]
  rw [start]
  rcases optionRel_cases (simulates.child? same "operator") with
    ⟨none, none'⟩ | ⟨_, _, found, found', equal⟩
  · rw [none, none']
  · rw [found, found', Option.any_some, Option.any_some, simulates.start equal]

/-- All rules for expressions keep agreement. -/
theorem expressionRules_keepAgreement :
    ∀ entry ∈ expressionRules, Rule.KeepsAgreement comparison entry.2 := by
  simp only [expressionRules, List.forall_mem_cons, List.not_mem_nil, false_implies, implies_true,
    and_true]
  and_intros
  all_goals
    first
    | exact subscript_keepsAgreement
    | exact castBehind_keepsAgreement
    | exact checkBehind_keepsAgreement
    | exact castBefore_keepsAgreement
    | intro related context other simulates tree copy same
      simp only [identifierRule, functionExpression, simulates.place same, simulates.textOf same,
        simulates.source, simulates.templateSegments same, simulates.plainIdentifier same,
        simulates.numberNode same, simulates.chained same, simulates.operator same,
        simulates.fieldText same, simulates.isBefore same,
        simulates.hasToken same "*" (by decide)]
      with_reducible
        repeat' first
          | exact comparison.agree_pure _
          | exact simulates.required same _
          | exact simulates.optional same _
          | exact simulates.nameField same _
          | exact simulates.optionalName same _
          | exact simulates.loweredParts same
          | exact simulates.first same
          | exact simulates.firstRequired same
          | exact simulates.templateHoles same _
          | exact simulates.functionParts same
          | exact simulates.classParts same
          | exact simulates.callOrTag same
          | exact simulates.fullParameter same
          | exact simulates.lowerAll (simulates.unroll same _)
          | exact comparison.agree_all (simulates.parts same) fun _ _ => simulates.objectMember
          | exact comparison.agree_all (simulates.parts same) fun _ _ => simulates.patternMember
          | exact comparison.agree_optional (simulates.child? same _) fun _ _ =>
              simulates.loweredParts
          | refine comparison.agree_bind ?_ fun _ => ?_

/-! ## Markup -/

/-- Related opening tags both have a name, or neither has. -/
theorem openingElement_keepsAgreement : Rule.KeepsAgreement comparison openingElement := by
  intro related context other simulates tree copy same
  unfold openingElement
  rcases optionRel_cases (simulates.child? same "name") with
    ⟨none, none'⟩ | ⟨_, _, found, found', _⟩
  · rw [none, none', simulates.place same]
    exact comparison.agree_pure _
  · rw [found, found']
    exact simulates.openingTag same false

/-- Related closing tags both have a name, or neither has. -/
theorem closingElement_keepsAgreement : Rule.KeepsAgreement comparison closingElement := by
  intro related context other simulates tree copy same
  unfold closingElement
  simp only [simulates.place same]
  rcases optionRel_cases (simulates.child? same "name") with
    ⟨none, none'⟩ | ⟨_, _, found, found', names⟩
  · rw [none, none']
    exact comparison.agree_pure _
  · rw [found, found']
    exact comparison.agree_bind (simulates.markupName names) fun _ => comparison.agree_pure _

/-- An attribute is made of its first named child and, if there is one, its second. -/
theorem markupAttribute_keepsAgreement : Rule.KeepsAgreement comparison markupAttribute := by
  intro related context other simulates tree copy same
  have parts := simulates.parts same
  unfold markupAttribute
  simp only [simulates.place same, simulates.unmodelled same]
  generalize tree.parts = trees, copy.parts = copies at parts
  cases parts with
  | nil => exact comparison.agree_pure _
  | cons names others =>
    refine comparison.agree_bind (simulates.markupName names) fun _ => ?_
    refine comparison.agree_bind (simulates.lowerOptional (optionRel_head? others)) fun _ => ?_
    exact comparison.agree_pure _

/-- Code in markup is made of its first named child, or empty. -/
theorem markupExpression_keepsAgreement : Rule.KeepsAgreement comparison markupExpression := by
  intro related context other simulates tree copy same
  unfold markupExpression
  simp only [simulates.place same]
  rcases optionRel_cases (simulates.firstPart? same) with
    ⟨none, none'⟩ | ⟨_, _, found, found', equal⟩
  · rw [none, none']
    exact comparison.agree_pure _
  · rw [found, found']
    exact comparison.agree_bind (simulates.lower equal) fun _ => comparison.agree_pure _

/-- All rules for markup keep agreement. -/
theorem markupRules_keepAgreement :
    ∀ entry ∈ markupRules, Rule.KeepsAgreement comparison entry.2 := by
  simp only [markupRules, List.forall_mem_cons, List.not_mem_nil, false_implies, implies_true,
    and_true]
  and_intros
  all_goals
    first
    | exact openingElement_keepsAgreement
    | exact closingElement_keepsAgreement
    | exact markupAttribute_keepsAgreement
    | exact markupExpression_keepsAgreement
    | intro related context other simulates tree copy same
      simp only [markupText, simulates.place same, simulates.textOf same]
      with_reducible
        repeat' first
          | exact comparison.agree_pure _
          | exact simulates.element same
          | exact simulates.openingTag same _
          | exact simulates.markupName same
          | refine comparison.agree_bind ?_ fun _ => ?_

/-! ## All rules together -/

/-- Whatever rule a construct has keeps agreement. -/
theorem keepsAgreement_of_rule? {kind : String} {rule : Rule} (found : rule? kind = some rule) :
    Rule.KeepsAgreement comparison rule :=
  forall_of_rule? (motive := fun _ rule => Rule.KeepsAgreement comparison rule)
    statementRules_keepAgreement typeRules_keepAgreement expressionRules_keepAgreement
    markupRules_keepAgreement found

/-- Related trees have the same rule or none, and the results agree. -/
theorem applyRule_agree {related : Tree → Tree → Prop} {context other : Context}
    (simulates : Simulates comparison related context other) {tree copy : Tree}
    (same : related tree copy) :
    comparison.agree (applyRule context tree) (applyRule other copy) := by
  unfold applyRule
  rw [simulates.kind same, simulates.unmodelled same]
  split
  · rename_i rule found
    exact keepsAgreement_of_rule? found simulates same
  · exact comparison.agree_pure _

/-! ## Whole trees -/

/-- Two results agree if they are the same. -/
def Comparison.equality : Comparison where
  agree first other := other = first
  agree_pure _ := rfl
  agree_bind := by
    intro α β first other next otherNext equal each
    rw [equal]
    exact congrArg (first >>= ·) (funext each)

/-- Trees that lowering cannot tell apart are lowered to the same node, with the same report on
the nesting. -/
theorem lower_eq_of_related {related : Tree → Tree → Prop} (law : Resemblance related)
    (source : String) (levels : Nat) {tree copy : Tree} (same : related tree copy) :
    lower source levels copy = lower source levels tree := by
  -- One level further down the two lowerings are the same function, which simulates itself.
  induction levels generalizing tree copy with
  | zero => rw [lower, lower, law.unmodelled same]
  | succ levels ih =>
    have simulates : Simulates .equality related ⟨source, lower source levels⟩
        ⟨source, lower source levels⟩ :=
      { law with
        source := rfl
        lower := ih }
    rw [lower, lower]
    exact applyRule_agree simulates same

/-- Related roots have related items. -/
theorem programItems_related {related : Tree → Tree → Prop} (law : Resemblance related)
    {root copy : Tree} (same : related root copy) :
    List.Forall₂ related (programItems root) (programItems copy) := by
  refine List.rel_filter (fun first second equal => ?_) (law.parts same)
  dsimp only
  rw [law.kind equal]

/-- Related programs have the same body. -/
theorem programBody_eq_of_related {related : Tree → Tree → Prop} (law : Resemblance related)
    (source : String) (levels : Nat) {root copy : Tree} (same : related root copy) :
    programBody source levels copy = programBody source levels root := by
  refine Comparison.equality.agree_all (programItems_related law same) ?_
  intro tree copy equal
  exact lower_eq_of_related law source levels equal

end CodeClones.Lowering
