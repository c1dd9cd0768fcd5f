import CodeClones.Lowering.Rules
import CodeClones.Proofs.Lowering.Constructs

/-!
# Where lowered trees stand

Every rule makes an anchored node out of a well-formed tree, given a sound context. As the
context that lowering gives to its rules is lowering with one level less, lowering is sound for
any number of levels: whatever a well-formed tree is lowered to stands in the range of the tree.
-/

namespace CodeClones.Lowering

open Syntax Concrete

variable {source : String} {range : Span} {tree : Tree} {context : Context}

/-! ## Statements and declarations -/

/-- The names in a list of imported or exported names are inside the range of the list. -/
theorem allInside_listedNames (inside : tree.Inside source range) :
    Tree.AllInside source range (listedNames tree) := by
  intro name member
  obtain ⟨entry, inParts, named⟩ := List.mem_filterMap.mp member
  have insideEntry := inside.of_mem_parts inParts
  exact (Option.or_eq_some_iff.mp named).elim insideEntry.of_child?
    fun named => insideEntry.of_child? named.2

/-- The names that an import binds are inside its range. -/
@[simp]
theorem allInside_importedNames (inside : tree.Inside source range) :
    Tree.AllInside source range (importedNames tree) := by
  unfold importedNames
  cases found : tree.partOfKind? "import_clause" with
  | none => simp
  | some clause =>
    intro name member
    obtain ⟨part, inParts, chosen⟩ := List.mem_flatMap.mp member
    have insidePart := (inside.of_partOfKind? found).of_mem_parts inParts
    split at chosen
    · exact List.mem_singleton.mp chosen ▸ insidePart
    · exact insidePart.allInside_firstPart? name chosen
    · exact allInside_listedNames insidePart name chosen
    · cases chosen

/-- The names that an export lists are inside its range. -/
@[simp]
theorem allInside_exportedNames (inside : tree.Inside source range) :
    Tree.AllInside source range (exportedNames tree) := by
  intro name member
  obtain ⟨part, inParts, chosen⟩ := List.mem_flatMap.mp member
  have insidePart := inside.of_mem_parts inParts
  split at chosen
  · exact allInside_listedNames insidePart name chosen
  · exact insidePart.allInside_firstPart? name chosen
  · cases chosen

namespace Context.Sound

/-- An `else` branch is anchored. -/
@[simp]
theorem elseBranch (sound : context.Sound) (inside : tree.Inside context.source range) :
    Anchored context.source range (context.elseBranch tree).value := by
  unfold Context.elseBranch
  split
  · exact sound.firstRequired inside
  · exact sound.lower inside

/-- A part of the head of a loop is enclosed. -/
@[simp]
theorem loopPart (sound : context.Sound) (inside : tree.Inside context.source range)
    (field : String) :
    AllEnclosed context.source range (context.loopPart tree field).value.toList := by
  unfold Context.loopPart
  cases found : (tree.partsOf field).head? with
  | none => simp
  | some part =>
    have insidePart := inside.of_mem_partsOf (List.mem_of_head? found)
    dsimp only
    split
    all_goals simp [sound, insidePart]

/-- The target of a loop over keys or values is anchored. A declaration reaches from the keyword
to the end of the target, which stands behind the keyword. -/
@[simp]
theorem loopTarget (sound : context.Sound) (inside : tree.Inside context.source range)
    (loop : tree.kind = "for_in_statement") :
    Anchored context.source range (context.loopTarget tree).value := by
  unfold Context.loopTarget
  cases target : tree.child? "left" with
  | none => simp [inside]
  | some left =>
    have insideLeft := inside.of_child? target
    cases keyword : tree.child? "kind" with
    | none => simp [sound, insideLeft]
    | some word =>
      have insideWord := inside.of_child? keyword
      have before := inside.lawful.keyword_before loop word keyword left target
      have ordered : word.start ≤ left.stop :=
        calc word.start ≤ word.stop := insideWord.lawful.ordered
          _ ≤ left.start := before
          _ ≤ left.stop := insideLeft.lawful.ordered
      have piece : Piece context.source range ⟨word.start, left.stop⟩ :=
        (piece_span insideWord).through (piece_span insideLeft) ordered
      simp [sound, insideLeft, piece]

/-- A loop over keys or values is anchored. -/
@[simp]
theorem loopOver (sound : context.Sound) (inside : tree.Inside context.source range)
    (loop : tree.kind = "for_in_statement") :
    Anchored context.source range (context.loopOver tree).value := by
  simp only [Context.loopOver, Lowered.value_bind]
  split
  all_goals
    split
    all_goals simp [sound, inside, loop]

/-- A member of an enumeration is anchored. -/
@[simp]
theorem enumMember (sound : context.Sound) (inside : tree.Inside context.source range) :
    Anchored context.source range (context.enumMember tree).value := by
  unfold Context.enumMember
  split
  all_goals simp [sound, inside]

/-- The body of a namespace or module is anchored. -/
@[simp]
theorem moduleBlock (sound : context.Sound) (inside : tree.Inside context.source range) :
    Anchored context.source range (context.moduleBlock tree).value := by
  simp [Context.moduleBlock, sound, inside]

/-- A declaration of something that exists elsewhere is anchored. -/
@[simp]
theorem ambient (sound : context.Sound) (inside : tree.Inside context.source range) :
    Anchored context.source range (context.ambient tree).value := by
  unfold Context.ambient
  cases found : tree.firstPart? with
  | none => simp [inside]
  | some part =>
    have insidePart := inside.of_firstPart? found
    dsimp only
    split
    all_goals simp [sound, inside, insidePart]

/-- An export is anchored. -/
@[simp]
theorem exportItem (sound : context.Sound) (inside : tree.Inside context.source range) :
    Anchored context.source range (context.exportItem tree).value := by
  unfold Context.exportItem
  cases found : tree.child? "declaration" with
  | some declaration => simp [sound, inside, inside.of_child? found]
  | none =>
    cases found : tree.child? "value" with
    | some value => simp [sound, inside, inside.of_child? found]
    | none =>
      simp only [Lowered.value_bind]
      split
      · rename_i expression chosen
        have among := inside.allInside_find?_parts _ expression
          (Option.mem_toList.mpr (Option.ite_none_right_eq_some.mp chosen).2)
        simp [sound, inside, among]
      · simp +contextual [sound, inside]

end Context.Sound

/-- An expression that stands as a statement is anchored. -/
@[simp]
theorem anchored_expressionStatement (sound : context.Sound)
    (inside : tree.Inside context.source range) :
    Anchored context.source range (expressionStatement context tree).value := by
  unfold expressionStatement
  cases found : tree.firstPart? with
  | none => simp [inside]
  | some inner =>
    have insideInner := inside.of_firstPart? found
    dsimp only
    split
    all_goals simp [sound, inside, insideInner]

/-- A declared variable is anchored. -/
@[simp]
theorem anchored_variableDeclarator (sound : context.Sound)
    (inside : tree.Inside context.source range) :
    Anchored context.source range (variableDeclarator context tree).value := by
  unfold variableDeclarator
  cases found : tree.child? "name" with
  | none => simp [sound, inside]
  | some name => simp [sound, inside, inside.of_child? found]

/-- An interface is anchored. -/
@[simp]
theorem anchored_interfaceDeclaration (sound : context.Sound)
    (inside : tree.Inside context.source range) :
    Anchored context.source range (interfaceDeclaration context tree).value := by
  unfold interfaceDeclaration
  cases clause : tree.partOfKind? "extends_type_clause" with
  | none =>
    cases body : tree.child? "body" with
    | none => simp [sound, inside]
    | some body' => simp [sound, inside, inside.of_child? body]
  | some ancestors =>
    have insideAncestors := inside.of_partOfKind? clause
    cases body : tree.child? "body" with
    | none => simp [sound, inside, insideAncestors]
    | some body' => simp [sound, inside, insideAncestors, inside.of_child? body]

/-- An enumeration is anchored. -/
@[simp]
theorem anchored_enumDeclaration (sound : context.Sound)
    (inside : tree.Inside context.source range) :
    Anchored context.source range (enumDeclaration context tree).value := by
  unfold enumDeclaration
  cases found : tree.child? "body" with
  | none => simp [sound, inside]
  | some body => simp +contextual [sound, inside, inside.of_child? found]

/-- The rule makes an anchored node out of a well-formed tree of a kind, given a sound
context. -/
def Rule.Sound (kind : String) (rule : Rule) : Prop :=
  ∀ (context : Context) (tree : Tree), context.Sound → tree.WellFormed context.source →
    tree.kind = kind → Anchored context.source tree.span (rule context tree).value

/-- The rules for statements, declarations and members of classes are sound. -/
theorem statementRules_sound : ∀ entry ∈ statementRules, Rule.Sound entry.1 entry.2 := by
  simp only [statementRules, List.forall_mem_cons, List.not_mem_nil, false_implies, implies_true,
    and_true]
  and_intros
  all_goals
    intro context tree sound formed kind
    have inside := formed.inside
    -- What is lowered below is anchored or enclosed, and the tree gives the place.
    simp +contextual [sound, inside, kind, variableDeclaration, functionDeclaration,
      classDeclaration, moduleDeclaration]

/-! ## Types -/

/-- A claim stays anchored when it is marked as asserted. -/
@[simp]
theorem anchored_markedAsserted {node : Node} (anchored : Anchored source range node) :
    Anchored source range (markedAsserted node) := by
  fun_cases markedAsserted node
  all_goals simp_all

/-- An anchored node is anchored at any piece of the source as well. -/
theorem anchored_withSpan {node : Node} {span : Span} (anchored : Anchored source range node)
    (piece : Piece source range span) : Anchored source range (node.withSpan span) :=
  ⟨piece, anchored.stored⟩

/-- A name with the type of its keys is anchored. -/
@[simp]
theorem anchored_withKeyType {node : Node} {type : Option Node}
    (anchored : Anchored source range node) (typed : AllEnclosed source range type.toList) :
    Anchored source range (withKeyType type node) := by
  fun_cases withKeyType type node
  all_goals simp_all

namespace Context.Sound

/-- A mapped type is anchored. -/
@[simp]
theorem mappedType (sound : context.Sound) (inside : tree.Inside context.source range)
    {clause : Tree} (insideClause : clause.Inside context.source range) :
    Anchored context.source range (context.mappedType clause tree).value := by
  simp [Context.mappedType, sound, inside, insideClause]

/-- The type of the keys of a signature is enclosed. -/
@[simp]
theorem keyType (sound : context.Sound) (inside : tree.Inside context.source range) :
    AllEnclosed context.source range (context.keyType tree).value.toList := by
  refine allEnclosed_optional_map (inside.allInside_child? _) fun type insideType => ?_
  simp [sound, insideType]

/-- The typed key of a signature is anchored. -/
@[simp]
theorem signatureKey (sound : context.Sound) (inside : tree.Inside context.source range)
    {name : Tree} (insideName : name.Inside context.source range) :
    Anchored context.source range (context.signatureKey tree name).value := by
  simp only [Context.signatureKey, Lowered.value_bind]
  split
  all_goals simp [sound, inside, insideName]

/-- A signature of keys is anchored. -/
@[simp]
theorem keySignature (sound : context.Sound) (inside : tree.Inside context.source range) :
    Anchored context.source range (context.keySignature tree).value := by
  unfold Context.keySignature
  cases found : tree.partOfKind? "mapped_type_clause" with
  | none => simp +contextual [sound, inside]
  | some clause => simp [sound, inside, inside.of_partOfKind? found]

/-- A claim that is asserted is anchored. -/
@[simp]
theorem assertion (sound : context.Sound) (inside : tree.Inside context.source range) :
    Anchored context.source range (context.assertion tree).value := by
  unfold Context.assertion
  cases found : tree.firstPart? with
  | none => simp [inside]
  | some inner =>
    have insideInner := inside.of_firstPart? found
    dsimp only
    split
    · exact anchored_withSpan (anchored_markedAsserted (sound.lower insideInner))
        (piece_span inside)
    · simp [sound, inside, insideInner]

end Context.Sound

/-- The type of a function is anchored. -/
@[simp]
theorem anchored_functionType (sound : context.Sound)
    (inside : tree.Inside context.source range) :
    Anchored context.source range (functionType context tree).value := by
  have returned := sound.optional inside "return_type"
  simp only [functionType, Lowered.value_bind]
  cases found : (context.optional tree "return_type").value with
  | none => simp [sound, inside]
  | some type =>
    rw [found, Option.toList_some, allEnclosed_cons] at returned
    simp [sound, inside, returned]

/-- The type of an expression is anchored. -/
@[simp]
theorem anchored_typeQuery (sound : context.Sound)
    (inside : tree.Inside context.source range) :
    Anchored context.source range (typeQuery context tree).value := by
  simp only [typeQuery, Lowered.value_bind]
  cases found : tree.parts.find? fun child => child.kind != "type_arguments" with
  | none => simp [inside]
  | some expression =>
    have insideExpression := inside.of_mem_parts (List.mem_of_find?_eq_some found)
    simp [sound, inside, insideExpression]

/-- The type of a member is anchored. -/
@[simp]
theorem anchored_indexedAccess (sound : context.Sound)
    (inside : tree.Inside context.source range) :
    Anchored context.source range (indexedAccess context tree).value := by
  have insideParts := inside.allInside_parts
  unfold indexedAccess
  split
  · rename_i object index others parts
    rw [parts, Tree.allInside_cons, Tree.allInside_cons] at insideParts
    simp [sound, inside, insideParts]
  · simp [inside]

/-- A type to be found by the choice around it is anchored. -/
@[simp]
theorem anchored_inferType (sound : context.Sound)
    (inside : tree.Inside context.source range) :
    Anchored context.source range (inferType context tree).value := by
  have insideParts := inside.allInside_parts
  unfold inferType
  split
  · simp [inside]
  · rename_i name others parts
    rw [parts, Tree.allInside_cons] at insideParts
    simp [sound, inside, insideParts]

/-- The rules for types are sound. -/
theorem typeRules_sound : ∀ entry ∈ typeRules, Rule.Sound entry.1 entry.2 := by
  simp only [typeRules, List.forall_mem_cons, List.not_mem_nil, false_implies, implies_true,
    and_true]
  and_intros
  all_goals
    intro context tree sound formed kind
    have inside := formed.inside
    simp +contextual [sound, inside, kind, ascription, methodSignature, Context.wrapping]

/-! ## Expressions -/

/-- A numeric literal is anchored. -/
@[simp]
theorem anchored_numberNode (inside : tree.Inside source range) (text : String) :
    Anchored source range (numberNode tree text) := by
  unfold numberNode
  dsimp only
  split
  · simp [inside]
  · split
    all_goals simp [inside]

/-- An access or a call is anchored exactly if the nodes stored in its fields are enclosed,
wrapped or not. -/
@[simp]
theorem anchored_chained_iff (inside : tree.Inside source range) {kind : Kind}
    {slots : Slots kind.layout} :
    Anchored source range (chained tree (place tree kind slots)) ↔
      AllEnclosed source range slots.stored := by
  unfold chained
  split
  all_goals simp [inside]

namespace Context.Sound

/-- The arguments of a construction are enclosed. -/
@[simp]
theorem optionalParts (sound : context.Sound) (inside : tree.Inside context.source range)
    (field : String) : AllEnclosed context.source range
      ((Lowered.optional ((tree.child? field).map context.parts)).value.getD []) := by
  cases found : tree.child? field with
  | none => exact allEnclosed_nil
  | some list => exact sound.parts (inside.of_child? found)

/-- A call is anchored, and so is a template behind a tag. -/
@[simp]
theorem callOrTag (sound : context.Sound) (inside : tree.Inside context.source range) :
    Anchored context.source range (context.callOrTag tree).value := by
  simp only [Context.callOrTag, Lowered.value_bind]
  cases found : tree.child? "arguments" with
  | none => simp [sound, inside]
  | some arguments =>
    have insideArguments := inside.of_child? found
    dsimp only
    split
    all_goals simp [sound, inside, insideArguments]

/-- A method, getter or setter of an object is anchored. -/
@[simp]
theorem objectMethod (sound : context.Sound) (inside : tree.Inside context.source range) :
    Anchored context.source range (context.objectMethod tree).value := by
  have parts := sound.functionParts inside
  simp only [FunctionParts.slots, Slots.stored, allEnclosed_append] at parts
  simp only [Context.objectMethod, Lowered.value_bind]
  split
  all_goals simp [sound, inside, parts]

/-- A member of an object is anchored. -/
@[simp]
theorem objectMember (sound : context.Sound) (inside : tree.Inside context.source range) :
    Anchored context.source range (context.objectMember tree).value := by
  unfold Context.objectMember
  split
  all_goals simp [sound, inside]

/-- A member of an object pattern is anchored. -/
@[simp]
theorem patternMember (sound : context.Sound) (inside : tree.Inside context.source range) :
    Anchored context.source range (context.patternMember tree).value := by
  unfold Context.patternMember
  split
  all_goals simp [sound, inside]

end Context.Sound

/-- Access to a member by a key is anchored. -/
@[simp]
theorem anchored_subscript (sound : context.Sound) (inside : tree.Inside context.source range) :
    Anchored context.source range (subscript context tree).value := by
  unfold subscript
  cases found : tree.child? "index" with
  | none => simp [sound, inside]
  | some index => simp [sound, inside, inside.of_child? found]

/-- A cast behind an expression is anchored. -/
@[simp]
theorem anchored_castBehind (sound : context.Sound)
    (inside : tree.Inside context.source range) :
    Anchored context.source range (castBehind context tree).value := by
  have insideParts := inside.allInside_parts
  unfold castBehind
  split
  · rename_i expression type others parts
    rw [parts, Tree.allInside_cons, Tree.allInside_cons] at insideParts
    simp [sound, inside, insideParts]
  · rename_i expression parts
    rw [parts, Tree.allInside_cons] at insideParts
    simp [sound, inside, insideParts]
  · simp [inside]

/-- A check of a type behind an expression is anchored. -/
@[simp]
theorem anchored_checkBehind (sound : context.Sound)
    (inside : tree.Inside context.source range) :
    Anchored context.source range (checkBehind context tree).value := by
  have insideParts := inside.allInside_parts
  unfold checkBehind
  split
  · rename_i expression type others parts
    rw [parts, Tree.allInside_cons, Tree.allInside_cons] at insideParts
    simp [sound, inside, insideParts]
  · simp [inside]

/-- A cast in front of an expression is anchored. -/
@[simp]
theorem anchored_castBefore (sound : context.Sound)
    (inside : tree.Inside context.source range) :
    Anchored context.source range (castBefore context tree).value := by
  have insideParts := inside.allInside_parts
  unfold castBefore
  split
  · rename_i bracketed expression others parts
    rw [parts, Tree.allInside_cons, Tree.allInside_cons] at insideParts
    split
    all_goals simp [sound, inside, insideParts]
  · simp [inside]

/-- The rules for expressions, literals and patterns are sound. -/
theorem expressionRules_sound : ∀ entry ∈ expressionRules, Rule.Sound entry.1 entry.2 := by
  simp only [expressionRules, List.forall_mem_cons, List.not_mem_nil, false_implies,
    implies_true, and_true]
  and_intros
  all_goals
    intro context tree sound formed kind
    have inside := formed.inside
    simp +contextual [sound, inside, kind, identifierRule, functionExpression]

/-! ## Markup -/

namespace Context.Sound

/-- The tag that opens an element is anchored. -/
@[simp]
theorem openingTag (sound : context.Sound) (inside : tree.Inside context.source range)
    (selfClosing : Bool) :
    Anchored context.source range (context.openingTag selfClosing tree).value := by
  unfold Context.openingTag
  cases found : tree.child? "name" with
  | none => simp [sound, inside]
  | some name => simp [sound, inside, inside.of_child? found]

/-- An element or a fragment is anchored. -/
@[simp]
theorem element (sound : context.Sound) (inside : tree.Inside context.source range) :
    Anchored context.source range (context.element tree).value := by
  have tag : ∀ field kind part,
      (tree.child? field).or (tree.partOfKind? kind) = some part →
        part.Inside context.source range := by
    intro field kind part found
    exact (Option.or_eq_some_iff.mp found).elim inside.of_child?
      fun found => inside.of_partOfKind? found.2
  unfold Context.element
  dsimp only
  split
  · rename_i opening closing foundOpening foundClosing
    have insideOpening := tag _ _ opening foundOpening
    have insideClosing := tag _ _ closing foundClosing
    simp only [Lowered.value_bind]
    split
    all_goals simp [sound, inside, insideOpening, insideClosing]
  · simp [inside]

end Context.Sound

/-- An opening tag by itself is anchored. -/
@[simp]
theorem anchored_openingElement (sound : context.Sound)
    (inside : tree.Inside context.source range) :
    Anchored context.source range (openingElement context tree).value := by
  unfold openingElement
  split
  all_goals simp [sound, inside]

/-- A closing tag is anchored. -/
@[simp]
theorem anchored_closingElement (sound : context.Sound)
    (inside : tree.Inside context.source range) :
    Anchored context.source range (closingElement context tree).value := by
  unfold closingElement
  cases found : tree.child? "name" with
  | none => simp [inside]
  | some name => simp [sound, inside, inside.of_child? found]

/-- An attribute of an element is anchored. -/
@[simp]
theorem anchored_markupAttribute (sound : context.Sound)
    (inside : tree.Inside context.source range) :
    Anchored context.source range (markupAttribute context tree).value := by
  have insideParts := inside.allInside_parts
  unfold markupAttribute
  split
  · simp [inside]
  · rename_i name others parts
    rw [parts, Tree.allInside_cons] at insideParts
    simp [sound, inside, insideParts]

/-- Code inside markup is anchored. -/
@[simp]
theorem anchored_markupExpression (sound : context.Sound)
    (inside : tree.Inside context.source range) :
    Anchored context.source range (markupExpression context tree).value := by
  unfold markupExpression
  cases found : tree.firstPart? with
  | none => simp [inside]
  | some inner => simp [sound, inside, inside.of_firstPart? found]

/-- The rules for markup are sound. -/
theorem markupRules_sound : ∀ entry ∈ markupRules, Rule.Sound entry.1 entry.2 := by
  simp only [markupRules, List.forall_mem_cons, List.not_mem_nil, false_implies, implies_true,
    and_true]
  and_intros
  all_goals
    intro context tree sound formed kind
    have inside := formed.inside
    simp [sound, inside, markupText]

/-! ## All rules -/

/-- Every rule is sound for the kind of trees it is applied to. -/
theorem sound_of_rule? {kind : String} {rule : Rule} (found : rule? kind = some rule) :
    Rule.Sound kind rule :=
  forall_of_rule? statementRules_sound typeRules_sound expressionRules_sound
    markupRules_sound found

/-- A well-formed tree is lowered to an anchored node, whatever rule it falls under. -/
theorem anchored_applyRule (sound : context.Sound) (formed : tree.WellFormed context.source) :
    Anchored context.source tree.span (applyRule context tree).value := by
  unfold applyRule
  cases found : rule? tree.kind with
  | none => exact anchored_unmodelled formed.inside
  | some rule => exact sound_of_rule? found context tree sound formed rfl

/-- However many levels lowering goes down, a well-formed tree is lowered to a node that is
anchored in the range of the tree. -/
theorem anchored_lower (levels : Nat) {tree : Tree} (formed : tree.WellFormed source) :
    Anchored source tree.span (lower source levels tree).value := by
  induction levels generalizing tree with
  | zero => exact anchored_unmodelled formed.inside
  | succ levels ih =>
    have sound : Context.Sound ⟨source, lower source levels⟩ := fun _ formed => ih formed
    exact anchored_applyRule sound formed

end CodeClones.Lowering
