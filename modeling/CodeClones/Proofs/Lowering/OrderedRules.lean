import CodeClones.Proofs.Lowering.OrderedStatements
import CodeClones.Proofs.Lowering.Rules

/-!
# Lowering keeps the order of statements

Every rule makes a node that traces its tree, given an orderly context. Types count no statements,
whatever they hold; expressions and markup list what they read in the order of the grammar, except
for a cast in front of an expression, which lists the expression first. As the context that
lowering gives to its rules is lowering with one level less, lowering is orderly for any number of
levels.
-/

namespace CodeClones.Lowering

open Syntax Concrete

variable {tree : Tree} {trees : List Tree} {context : Context}

/-! ## Types -/

/-- A claim holds no statements, asserted or not. -/
theorem onsets_markedAsserted (node : Node) : (markedAsserted node).onsets = node.onsets := by
  fun_cases markedAsserted node
  case case1 => rw [onsets_of_isType rfl, onsets_of_isType rfl]
  case case2 => rfl

/-- A node that traces a tree does so when it is moved to the place of the tree. -/
theorem traces_withSpan {source : String} {node : Node} (arranged : tree.Arranged source)
    (traces : Traces [tree] [node]) : Traces [tree] [node.withSpan tree.span] := by
  obtain ⟨span, kind, slots⟩ := node
  cases isType : kind.isType with
  | true => exact traces_place_of_isType _ isType
  | false =>
    refine traces_place arranged ?_
    have notType : ¬ (Node.mk span kind slots).kind.isType = true := Bool.eq_false_iff.mp isType
    unfold Traces at traces
    rw [List.flatMap_cons, List.flatMap_nil, List.append_nil, Node.onsets_eq,
      if_neg notType] at traces
    exact Follows.sublist traces (List.sublist_append_right _ _)

/-- A key keeps what it traces when it is given a type. -/
theorem traces_withKeyType {type : Option Node} {node : Node}
    (silent : type.toList.flatMap Node.onsets = []) (traces : Traces trees [node]) :
    Traces trees [withKeyType type node] := by
  fun_cases withKeyType type node
  case case1 =>
    refine .gathered (onsets_mk _ rfl rfl rfl) (.silent _ ?_)
    simpa [Slots.stored] using silent
  case case2 => exact traces

namespace Context.Orderly

variable (orderly : context.Orderly) (arranged : tree.Arranged context.source)

include orderly

/-- The key of an index signature traces its name, as its type is a type. -/
theorem signatureKey {name : Tree} (arranged : name.Arranged context.source) :
    Traces [name] [(context.signatureKey tree name).value] := by
  have typed : (context.keyType tree).value.toList.flatMap Node.onsets = [] := by
    unfold Context.keyType
    cases tree.child? "index_type" with
    | none => rfl
    | some type =>
      exact (List.append_nil _).trans (onsets_of_isType rfl)
  have key := orderly.name arranged
  simp only [Context.signatureKey, Lowered.value_bind]
  split
  · exact traces_withKeyType typed key
  · exact key

include arranged

/-- An index signature traces its tree. -/
theorem keySignature (kind : tree.kind = "index_signature") :
    Traces [tree] [(context.keySignature tree).value] := by
  unfold Context.keySignature
  cases tree.partOfKind? "mapped_type_clause" with
  | some clause => exact traces_place_of_isType _ rfl
  | none =>
    have key : Traces (tree.child? "name").toList
        (Lowered.optional ((tree.child? "name").map (context.signatureKey tree))).value.toList :=
      traces_optional_map fun _ answer => orderly.signatureKey (arranged.of_child? answer)
    have type : Traces (tree.child? "type").toList
        (context.lowerOptional (tree.child? "type")).value.toList :=
      orderly.lowerOptional fun _ answer => arranged.of_child? answer
    exact traces_reading rfl arranged (key.append (type.append (.none [])))
      ⟨.indexSignature, kind, rfl⟩

/-- An assertion traces its tree. -/
theorem assertion : Traces [tree] [(context.assertion tree).value] := by
  unfold Context.assertion
  cases found : tree.firstPart? with
  | none => exact .silent _ (by simp)
  | some inner =>
    have member := List.mem_of_head? found
    have claim := (orderly.lower (arranged.of_mem_parts member)).of_mem_parts member
    dsimp only
    split
    · refine traces_withSpan arranged (.gathered ?_ (claim.of_parts arranged))
      rw [List.flatMap_cons, List.flatMap_nil, List.append_nil]
      exact onsets_markedAsserted _
    · exact traces_place_of_isType _ rfl

end Context.Orderly

section

variable (context : Context) (tree : Tree)

/-- A function type traces its tree: it is a type, so no statement in it counts. -/
theorem traces_functionType : Traces [tree] [(functionType context tree).value] := by
  simp only [functionType, Lowered.value_bind]
  split
  all_goals exact traces_place_of_isType _ rfl

/-- A type query traces its tree, as a type or unmodelled. -/
theorem traces_typeQuery : Traces [tree] [(typeQuery context tree).value] := by
  simp only [typeQuery, Lowered.value_bind]
  split
  · exact traces_place_of_isType _ rfl
  · exact .silent _ (by simp)

/-- An indexed access traces its tree, as a type or unmodelled. -/
theorem traces_indexedAccess : Traces [tree] [(indexedAccess context tree).value] := by
  unfold indexedAccess
  split
  · exact traces_place_of_isType _ rfl
  · exact .silent _ (by simp)

/-- An inferred type traces its tree, as a type or unmodelled. -/
theorem traces_inferType : Traces [tree] [(inferType context tree).value] := by
  unfold inferType
  split
  · exact .silent _ (by simp)
  · exact traces_place_of_isType _ rfl

end

/-- The signature of a method traces its tree, read like a function without a body. -/
theorem traces_methodSignature (orderly : context.Orderly)
    (arranged : tree.Arranged context.source)
    (isFunction : tree.IsFunction) :
    Traces [tree] [(methodSignature context tree).value] := by
  have unread : ∀ field, Traces (tree.child? field).toList [] := fun _ => .none _
  exact traces_reading rfl arranged ((orderly.nameField arranged "name").cons
    ((orderly.optional arranged "type_parameters").append
      ((orderly.signatureParameters arranged).append ((unread "parameter").append
        ((orderly.optional arranged "return_type").append ((unread "body").append (.none [])))))))
    isFunction.reads

/-! ## Expressions -/

/-- No statement begins in a number. -/
theorem onsets_numberNode (tree : Tree) (text : String) : (numberNode tree text).onsets = [] := by
  unfold numberNode
  dsimp only
  split
  · exact onsets_place_of_stored_eq_nil rfl rfl
  · split
    · exact onsets_place_of_stored_eq_nil rfl rfl
    · exact onsets_unmodelled tree

/-- An access or a call traces its tree, wrapped or not. -/
theorem traces_chained {source : String} {node : Node} (arranged : tree.Arranged source)
    (traces : Traces [tree] [node]) : Traces [tree] [chained tree node] := by
  unfold chained
  split
  · exact traces_fields rfl arranged traces
  · exact traces

namespace Context.Orderly

variable (orderly : context.Orderly) (arranged : tree.Arranged context.source)

include orderly arranged

/-- The arguments of a call trace the answer for their list. -/
theorem optionalParts (field : String) : Traces (tree.child? field).toList
    ((Lowered.optional ((tree.child? field).map context.parts)).value.getD []) := by
  cases found : tree.child? field with
  | none => exact .none _
  | some list =>
    have inner := arranged.of_child? found
    exact (orderly.parts inner).of_parts inner

/-- The first two named children trace all of them. -/
theorem firstTwo {first second : Tree} {others : List Tree}
    (parts : tree.parts = first :: second :: others) :
    Traces tree.parts [(context.lower first).value, (context.lower second).value] := by
  have inner : ∀ part ∈ first :: second :: others, part.Arranged context.source :=
    fun _ member => arranged.of_mem_parts (parts ▸ member)
  rw [List.forall_mem_cons, List.forall_mem_cons] at inner
  rw [parts]
  exact (orderly.lower inner.1).cons ((orderly.lower inner.2.1).cons (.none others))

/-- A call traces its tree: the function stands first, then the type arguments, then the arguments.
-/
theorem callOrTag (kind : tree.kind = "call_expression") :
    Traces [tree] [(context.callOrTag tree).value] := by
  have read : ∀ given : List Node, Traces (tree.child? "arguments").toList given →
      Traces [tree] ((context.required tree "function").value ::
        ((context.optional tree "type_arguments").value.toList ++ (given ++ []))) := by
    intro given traces
    exact ((orderly.required arranged "function").cons
      ((orderly.optional arranged "type_arguments").append
        (traces.append (.none [])))).of_reading ⟨.call, kind, rfl⟩ arranged
  simp only [Context.callOrTag, Lowered.value_bind]
  cases found : tree.child? "arguments" with
  | none => exact traces_chained arranged (traces_fields rfl arranged (read [] (.none _)))
  | some arguments =>
    have inner := arranged.of_child? found
    dsimp only
    split
    · refine traces_fields rfl arranged (read [_] ?_)
      rw [found]
      exact orderly.lower inner
    · refine traces_chained arranged (traces_fields rfl arranged (read _ ?_))
      rw [found]
      exact (orderly.parts inner).of_parts inner

/-- A method of an object traces its tree, read like a function with a name. -/
theorem objectMethod (kind : tree.kind = "method_definition") :
    Traces [tree] [(context.objectMethod tree).value] := by
  have isFunction : tree.IsFunction := ⟨.methodDefinition, kind, rfl⟩
  have reads := isFunction.reads
  have unread : ∀ field, Traces (tree.child? field).toList [] := fun _ => .none _
  have name := orderly.nameField arranged "name"
  have type := orderly.optional arranged "return_type"
  have body := (orderly.optional arranged "body").append (.none [])
  simp only [Context.objectMethod, Lowered.value_bind]
  split
  · exact traces_reading rfl arranged (name.cons ((unread "type_parameters").append
      ((unread "parameters").append ((unread "parameter").append (type.append body))))) reads
  · have parameters := (orderly.signatureParameters arranged).chosen (sublist_of_head? _)
    exact traces_reading rfl arranged (name.cons ((unread "type_parameters").append
      (parameters.append ((unread "parameter").append ((unread "return_type").append body)))))
      reads
  · exact traces_reading rfl arranged (name.cons (orderly.functionParts arranged isFunction)) reads

/-- A member of an object traces its tree. -/
theorem objectMember : Traces [tree] [(context.objectMember tree).value] := by
  unfold Context.objectMember
  split
  · rename_i kind
    exact orderly.objectMethod arranged kind
  · exact orderly.lower arranged

/-- A member of an object pattern traces its tree. -/
theorem patternMember : Traces [tree] [(context.patternMember tree).value] := by
  unfold Context.patternMember
  split
  · exact traces_fields rfl arranged (orderly.name arranged)
  · exact orderly.lower arranged

end Context.Orderly

/-- The operands of nested sequences trace the operands of the outermost one. -/
theorem traces_operands (orderly : context.Orderly) (kind : String) (tree : Tree)
    (arranged : tree.Arranged context.source) :
    Traces tree.parts (context.lowerAll (operands kind tree)).value := by
  rw [operands_eq]
  refine traces_all_flatMap fun child member => ?_
  have inner := arranged.of_mem_parts member
  unfold spread
  split
  · exact (traces_operands orderly kind child inner).of_parts inner
  · exact orderly.lower inner
termination_by sizeOf tree
decreasing_by exact Tree.sizeOf_lt_of_mem_parts member

/-- What a sequence is unrolled to traces its operands. -/
theorem traces_unroll (orderly : context.Orderly) {kind : String} (chain : tree.kind = kind)
    (arranged : tree.Arranged context.source) :
    Traces tree.parts (context.lowerAll (unroll kind [tree])).value := by
  rw [unroll_singleton, spread, if_pos chain]
  exact traces_operands orderly kind tree arranged

section

variable (orderly : context.Orderly) (arranged : tree.Arranged context.source)

include orderly arranged

/-- A function expression traces its tree. -/
theorem traces_functionExpression
    (isFunction : tree.IsFunction) :
    Traces [tree] [(functionExpression context tree).value] :=
  traces_reading rfl arranged
    ((orderly.optionalName arranged "name").append (orderly.functionParts arranged isFunction))
    isFunction.reads

/-- An arrow function traces its tree. -/
theorem traces_arrowFunction (isFunction : tree.IsFunction) :
    Traces [tree] [place tree .arrowFunction (context.functionParts tree).value.slots] :=
  traces_reading rfl arranged
    ((Traces.none (tree.child? "name").toList).append (orderly.functionParts arranged isFunction))
    isFunction.reads

/-- A class expression traces its tree: the name stands first, then the ancestors, then the body. -/
theorem traces_classExpression (isClass : tree.IsClass) :
    Traces [tree] [place tree .classExpression
      (.optionalChild (context.optionalName tree "name").value
        (context.classParts tree).value.slots)] := by
  have silent : (context.optionalName tree "name").value.toList.flatMap Node.onsets = [] := by
    unfold Context.optionalName
    cases found : tree.child? "name" with
    | none => rfl
    | some name =>
      exact (List.append_nil _).trans (onsets_name_of_isClass arranged isClass found)
  exact traces_class orderly arranged isClass silent rfl rfl

/-- Access to a member by its name. -/
theorem traces_memberAccess (kind : tree.kind = "member_expression") :
    Traces [tree] [place tree .memberAccess
      (.child (context.required tree "object").value <|
        .child (context.nameField tree "property").value .done)] := by
  have object : Traces ((tree.child? "object").or tree.parts.head?).toList
      [(context.required tree "object").value] := by
    unfold Context.required
    cases found : tree.child? "object" with
    | none => exact .silent _ (by simp)
    | some part => exact orderly.lower (arranged.of_child? found)
  have property : Traces ((tree.child? "property").or tree.parts.getLast?).toList
      [(context.nameField tree "property").value] := by
    unfold Context.nameField
    cases found : tree.child? "property" with
    | none => exact .silent _ (by simp)
    | some part => exact orderly.name (arranged.of_child? found)
  exact traces_reading rfl arranged (object.cons (property.cons (.none [])))
    ⟨.memberAccess, kind, rfl⟩

/-- A subscript traces its tree: the object stands before the index. -/
theorem traces_subscript (kind : tree.kind = "subscript_expression") :
    Traces [tree] [(subscript context tree).value] := by
  have read : ∀ property : Node, Traces (tree.child? "index").toList [property] →
      Traces [tree] [chained tree (place tree .memberAccess
        (.child (context.required tree "object").value <| .child property .done))] := by
    intro property traces
    exact traces_chained arranged (traces_reading rfl arranged
      ((orderly.required arranged "object").cons (traces.cons (.none [])))
      ⟨.subscript, kind, rfl⟩)
  unfold subscript
  cases found : tree.child? "index" with
  | none => exact read _ (.silent _ (by simp))
  | some index =>
    have inner := arranged.of_child? found
    refine read _ ?_
    rw [found]
    exact traces_fields rfl inner (orderly.lower inner)

/-- A cast behind traces its tree. -/
theorem traces_castBehind : Traces [tree] [(castBehind context tree).value] := by
  unfold castBehind
  split
  · rename_i expression type others parts
    exact traces_parts rfl arranged (orderly.firstTwo arranged parts)
  · rename_i expression parts
    have all := orderly.parts arranged
    rw [Context.parts, parts] at all
    refine traces_parts rfl arranged ?_
    rw [parts]
    exact all
  · exact .silent _ (by simp)

/-- A check behind traces its tree. -/
theorem traces_checkBehind : Traces [tree] [(checkBehind context tree).value] := by
  unfold checkBehind
  split
  · rename_i expression type others parts
    exact traces_parts rfl arranged (orderly.firstTwo arranged parts)
  · exact .silent _ (by simp)

/-- A cast in front of an expression lists the expression first, against the order in which the
two are written. -/
theorem traces_castBefore : Traces [tree] [(castBefore context tree).value] := by
  have arrangedParts : ∀ part ∈ tree.parts, part.Arranged context.source :=
    fun _ => arranged.of_mem_parts
  unfold castBefore
  split
  · rename_i bracketed expression others parts
    rw [parts, List.forall_mem_cons, List.forall_mem_cons] at arrangedParts
    have inner := arrangedParts.1
    have written : ∀ type : Node, Traces [bracketed] [type] →
        Traces [tree] [type, (context.lower expression).value] := by
      intro type traces
      refine Traces.of_parts ?_ arranged
      rw [parts]
      exact traces.cons ((orderly.lower arrangedParts.2.1).cons (.none others))
    split
    · exact traces_place arranged (written _ ((orderly.firstRequired inner).of_parts inner))
    · exact traces_place arranged (written _ (orderly.lower inner))
  · exact .silent _ (by simp)

end

/-! ## Markup -/

namespace Context.Orderly

variable (orderly : context.Orderly) (arranged : tree.Arranged context.source)

include orderly arranged

/-- An opening tag traces its tree: the name stands first, then the type arguments, then the
attributes. -/
theorem openingTag
    (isTag : tree.kind = "jsx_opening_element" ∨ tree.kind = "jsx_self_closing_element")
    (selfClosing : Bool) : Traces [tree] [(context.openingTag selfClosing tree).value] := by
  have reads : tree.Reads ((tree.child? "name").toList ++
      ((tree.child? "type_arguments").toList ++ (tree.attributes ++ []))) := by
    rcases isTag with kind | kind
    · exact ⟨.openingTag, kind, rfl⟩
    · exact ⟨.selfClosingTag, kind, rfl⟩
  have attributes : Traces tree.attributes (context.lowerAll tree.attributes).value :=
    orderly.lowerAll fun _ member => arranged.of_mem_parts (List.mem_filter.mp member).1
  have read : ∀ name : Node, Traces (tree.child? "name").toList [name] →
      Traces [tree] [place tree .jsxOpening
        (.child name <| .optionalChild (context.optional tree "type_arguments").value <|
          .children (context.lowerAll tree.attributes).value <|
          .attribute selfClosing .done)] := by
    intro name traces
    exact traces_reading rfl arranged (traces.cons
      ((orderly.optional arranged "type_arguments").append (attributes.append (.none [])))) reads
  unfold Context.openingTag
  dsimp only
  split
  · rename_i name found
    refine read _ ?_
    rw [found]
    exact orderly.markupName (arranged.of_child? found)
  · exact read _ (.silent _ (by simp))

/-- An element traces its tree: what it holds stands between its two tags. -/
theorem element (kind : tree.kind = "jsx_element") :
    Traces [tree] [(context.element tree).value] := by
  unfold Context.element
  dsimp only
  split
  · rename_i opening closing foundOpening foundClosing
    have standing : tree.standingAt .element =
        opening :: (tree.between opening closing ++ [closing]) := by
      simp only [Tree.standingAt, Tree.opening?, Tree.closing?, foundOpening, foundClosing]
    have reads : tree.Reads (opening :: (tree.between opening closing ++ [closing])) := by
      rw [← standing, ← List.append_nil (tree.standingAt .element)]
      exact ⟨.element, kind, rfl⟩
    have inner : ∀ part ∈ opening :: (tree.between opening closing ++ [closing]),
        part.Arranged context.source :=
      fun _ member => arranged.of_mem_subtrees (reads.mem_subtrees member)
    rw [List.forall_mem_cons, List.forall_mem_append, List.forall_mem_singleton] at inner
    obtain ⟨arrangedOpening, arrangedBetween, arrangedClosing⟩ := inner
    have isTag : opening.kind = "jsx_opening_element" := by
      rcases Option.or_eq_some_iff.mp foundOpening with found | ⟨-, found⟩
      · exact arranged.self_tidy.opened kind opening found
      · simpa using List.find?_some found
    have children := orderly.lowerAll arrangedBetween
    simp only [Lowered.value_bind]
    split
    · have opened : Traces [opening] [place opening .jsxOpeningFragment .done] :=
        traces_fields rfl arrangedOpening (.none _)
      have closed : Traces [closing] [place closing .jsxClosingFragment .done] :=
        traces_fields rfl arrangedClosing (.none _)
      exact traces_reading rfl arranged (opened.cons (children.append closed)) reads
    · have opened := orderly.openingTag arrangedOpening (.inl isTag) false
      have closed := orderly.lower arrangedClosing
      exact traces_reading rfl arranged (opened.cons (children.append closed)) reads
  · exact .silent _ (by simp)

end Context.Orderly

section

variable (orderly : context.Orderly) (arranged : tree.Arranged context.source)

include orderly arranged

/-- An opening tag by itself traces its tree. -/
theorem traces_openingElement (kind : tree.kind = "jsx_opening_element") :
    Traces [tree] [(openingElement context tree).value] := by
  unfold openingElement
  split
  · exact orderly.openingTag arranged (.inl kind) false
  · exact traces_fields rfl arranged (.none _)

/-- A closing tag traces its tree. -/
theorem traces_closingElement : Traces [tree] [(closingElement context tree).value] := by
  unfold closingElement
  cases found : tree.child? "name" with
  | none => exact traces_fields rfl arranged (.none _)
  | some name =>
    have traces := orderly.markupName (arranged.of_child? found)
    exact traces_fields rfl arranged (traces.of_child? found arranged)

/-- An attribute traces its tree: the name stands before the value. -/
theorem traces_markupAttribute : Traces [tree] [(markupAttribute context tree).value] := by
  unfold markupAttribute
  split
  · exact .silent _ (by simp)
  · rename_i name others parts
    have inner : ∀ part ∈ name :: others, part.Arranged context.source :=
      fun _ member => arranged.of_mem_parts (parts ▸ member)
    obtain ⟨arrangedName, arrangedOthers⟩ := List.forall_mem_cons.mp inner
    have value : Traces others.head?.toList (context.lowerOptional others.head?).value.toList :=
      orderly.lowerOptional fun part found => arrangedOthers part (List.mem_of_head? found)
    refine traces_parts rfl arranged ?_
    rw [parts, Slots.stored, Slots.stored, Slots.stored, List.append_nil]
    exact (orderly.markupName arrangedName).cons (value.widen (sublist_of_head? others))

/-- Code in markup traces its tree. -/
theorem traces_markupExpression : Traces [tree] [(markupExpression context tree).value] := by
  unfold markupExpression
  cases found : tree.firstPart? with
  | none => exact traces_fields rfl arranged (.none _)
  | some inner =>
    have member := List.mem_of_head? found
    have traces := orderly.lower (arranged.of_mem_parts member)
    exact traces_parts rfl arranged (traces.of_mem_parts member)

end

/-! ## All rules -/

/-- The rules for types are orderly. -/
theorem typeRules_orderly : ∀ entry ∈ typeRules, Rule.Orderly entry.1 entry.2 := by
  simp only [typeRules, List.forall_mem_cons, List.not_mem_nil, false_implies, implies_true,
    and_true]
  and_intros
  all_goals
    intro context tree orderly arranged kind
    -- What is below a type does not count.
    try exact traces_place_of_isType [tree] rfl
  · exact traces_functionType context tree
  · exact traces_interfaceBody orderly arranged
  · exact traces_reading rfl arranged ((orderly.nameField arranged _).cons
      ((orderly.optional arranged _).append (.none []))) ⟨.propertySignature, kind, rfl⟩
  · exact traces_methodSignature orderly arranged ⟨.methodSignature, kind, rfl⟩
  · exact traces_methodSignature orderly arranged ⟨.abstractMethodSignature, kind, rfl⟩
  · exact traces_reading rfl arranged ((orderly.optional arranged _).append
      ((orderly.signatureParameters arranged).append ((orderly.optional arranged _).append
      (.none [])))) ⟨.callSignature, kind, rfl⟩
  · exact traces_reading rfl arranged ((orderly.optional arranged _).append
      ((orderly.signatureParameters arranged).append ((orderly.optional arranged _).append
      (.none [])))) ⟨.constructSignature, kind, rfl⟩
  · exact orderly.keySignature arranged kind
  · exact traces_typeQuery context tree
  · exact traces_indexedAccess context tree
  · exact traces_inferType context tree
  · exact orderly.assertion arranged

/-- The rules for expressions, literals and patterns are orderly. -/
theorem expressionRules_orderly : ∀ entry ∈ expressionRules, Rule.Orderly entry.1 entry.2 := by
  simp only [expressionRules, List.forall_mem_cons, List.not_mem_nil, false_implies,
    implies_true, and_true]
  and_intros
  all_goals intro context tree orderly arranged kind
  · exact .silent _ (by simp [identifierRule])
  · exact .silent _ (by simp [identifierRule])
  · exact .silent _ (by simp [identifierRule])
  · exact .silent _ (by simp [identifierRule])
  · exact .silent _ (by simp [identifierRule])
  · exact .silent _ (by simp [identifierRule])
  · exact .silent _ (by simp [identifierRule])
  · exact traces_fields rfl arranged (.none _)
  · exact traces_fields rfl arranged (.none _)
  · exact traces_fields rfl arranged (.none _)
  · exact traces_fields rfl arranged (.none _)
  · exact traces_fields rfl arranged (.none _)
  · exact traces_fields rfl arranged (.none _)
  · exact .silent _ (by simp [onsets_numberNode])
  · exact traces_fields rfl arranged (.none _)
  · exact traces_template orderly arranged _ _
  · exact (orderly.firstRequired arranged).of_parts arranged
  · exact traces_fields rfl arranged (.none _)
  · exact traces_parts rfl arranged (orderly.parts arranged).last
  · exact traces_parts rfl arranged (traces_all_map fun _ member =>
      orderly.objectMember (arranged.of_mem_parts member)).last
  · exact traces_reading rfl arranged ((orderly.nameField arranged _).cons
      ((orderly.required arranged _).cons (.none []))) ⟨.pair, kind, rfl⟩
  · exact traces_parts rfl arranged (orderly.firstRequired arranged)
  · exact traces_parts rfl arranged (orderly.firstRequired arranged)
  · exact traces_functionExpression orderly arranged ⟨.functionExpression, kind, rfl⟩
  · exact traces_functionExpression orderly arranged ⟨.functionKeyword, kind, rfl⟩
  · exact traces_functionExpression orderly arranged ⟨.generatorFunction, kind, rfl⟩
  · exact traces_arrowFunction orderly arranged ⟨.arrowFunction, kind, rfl⟩
  · exact traces_classExpression orderly arranged ⟨.classExpression, kind, rfl⟩
  · exact orderly.callOrTag arranged kind
  · exact traces_reading rfl arranged ((orderly.required arranged _).cons
      ((orderly.optional arranged _).append ((orderly.optionalParts arranged _).append
      (.none [])))) ⟨.construction, kind, rfl⟩
  · exact traces_chained arranged (traces_memberAccess orderly arranged kind)
  · exact traces_subscript orderly arranged kind
  · exact traces_parts rfl arranged (orderly.firstRequired arranged)
  · exact traces_reading rfl arranged ((orderly.required arranged _).cons
      ((orderly.required arranged _).cons (.none []))) ⟨.binary, kind, rfl⟩
  · exact traces_reading rfl arranged ((orderly.required arranged _).cons (.none []))
      ⟨.unary, kind, rfl⟩
  · exact traces_reading rfl arranged ((orderly.required arranged _).cons (.none []))
      ⟨.update, kind, rfl⟩
  · exact traces_reading rfl arranged ((orderly.required arranged _).cons
      ((orderly.required arranged _).cons (.none []))) ⟨.assignment, kind, rfl⟩
  · exact traces_reading rfl arranged ((orderly.required arranged _).cons
      ((orderly.required arranged _).cons (.none []))) ⟨.augmentedAssignment, kind, rfl⟩
  · exact traces_reading rfl arranged ((orderly.required arranged _).cons
      ((orderly.required arranged _).cons ((orderly.required arranged _).cons (.none []))))
      ⟨.ternary, kind, rfl⟩
  · exact traces_parts rfl arranged (traces_unroll orderly kind arranged).last
  · exact traces_parts rfl arranged (orderly.firstRequired arranged)
  · exact traces_parts rfl arranged (orderly.first arranged).last
  · exact traces_fields rfl arranged (.none _)
  · exact traces_castBehind orderly arranged
  · exact traces_checkBehind orderly arranged
  · exact traces_parts rfl arranged (orderly.firstRequired arranged)
  · exact traces_castBefore orderly arranged
  · exact traces_parts rfl arranged (traces_all_map fun _ member =>
      orderly.patternMember (arranged.of_mem_parts member)).last
  · exact traces_parts rfl arranged (orderly.parts arranged).last
  · exact traces_reading rfl arranged ((orderly.required arranged _).cons
      ((orderly.required arranged _).cons (.none []))) ⟨.assignmentPattern, kind, rfl⟩
  · exact traces_parts rfl arranged (orderly.firstRequired arranged)
  · exact traces_reading rfl arranged ((orderly.nameField arranged _).cons
      ((orderly.required arranged _).cons (.none []))) ⟨.pairPattern, kind, rfl⟩
  · exact traces_reading rfl arranged ((orderly.nameField arranged _).cons
      ((orderly.optional arranged _).append (.none []))) ⟨.objectAssignmentPattern, kind, rfl⟩
  · exact orderly.fullParameter arranged (.inl kind)
  · exact orderly.fullParameter arranged (.inr kind)

/-- The rules for markup are orderly. -/
theorem markupRules_orderly : ∀ entry ∈ markupRules, Rule.Orderly entry.1 entry.2 := by
  simp only [markupRules, List.forall_mem_cons, List.not_mem_nil, false_implies, implies_true,
    and_true]
  and_intros
  all_goals intro context tree orderly arranged kind
  · exact orderly.element arranged kind
  · exact traces_fields rfl arranged (orderly.openingTag arranged (.inr kind) true)
  · exact traces_openingElement orderly arranged kind
  · exact traces_closingElement orderly arranged
  · exact traces_markupAttribute orderly arranged
  · exact traces_markupExpression orderly arranged
  · exact traces_fields rfl arranged (.none _)
  · exact traces_fields rfl arranged (.none _)
  · exact orderly.markupName arranged

/-- Every rule is orderly for the kind of trees it is applied to. -/
theorem orderly_of_rule? {kind : String} {rule : Rule} (found : rule? kind = some rule) :
    Rule.Orderly kind rule :=
  forall_of_rule? statementRules_orderly typeRules_orderly expressionRules_orderly
    markupRules_orderly found

/-- An arranged tree is lowered to a node that traces it, whatever rule it falls under. -/
theorem traces_applyRule (orderly : context.Orderly) (arranged : tree.Arranged context.source) :
    Traces [tree] [(applyRule context tree).value] := by
  unfold applyRule
  cases found : rule? tree.kind with
  | none => exact .silent _ (by simp)
  | some rule => exact orderly_of_rule? found context tree orderly arranged rfl

/-- However many levels lowering goes down, an arranged tree is lowered to a node that traces
it. -/
theorem traces_lower {source : String} (levels : Nat) {tree : Tree}
    (arranged : tree.Arranged source) : Traces [tree] [(lower source levels tree).value] := by
  induction levels generalizing tree with
  | zero => exact .silent _ (by simp [lower])
  | succ levels ih =>
    have orderly : Context.Orderly ⟨source, lower source levels⟩ :=
      ⟨fun _ formed => anchored_lower levels formed, fun arranged => ih arranged⟩
    exact traces_applyRule orderly arranged

end CodeClones.Lowering
