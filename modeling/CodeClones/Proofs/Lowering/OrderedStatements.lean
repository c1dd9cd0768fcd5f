import CodeClones.Proofs.Lowering.OrderedConstructs

/-!
# Statements and declarations in order

The rules for statements, declarations and members of classes make nodes that trace their trees,
given an orderly context. Most of them list what they read of a construct in the order of the
grammar. A `do` loop lists its condition before its body, which is written first.
-/

namespace CodeClones.Lowering

open Syntax Concrete

variable {tree : Tree} {trees : List Tree} {context : Context}

/-- What is lowered of some trees traces them if what is lowered of each of them does. -/
theorem traces_all_flatMap {given : Tree → List Tree} {lowering : Tree → Lowered Node}
    (each : ∀ tree ∈ trees, Traces [tree] (Lowered.all ((given tree).map lowering)).value) :
    Traces trees (Lowered.all ((trees.flatMap given).map lowering)).value := by
  induction trees with
  | nil => exact .none []
  | cons tree others ih =>
    obtain ⟨first, later⟩ := List.forall_mem_cons.mp each
    have traces := first.append (ih later)
    simpa [Lowered.all] using traces

namespace Context.Orderly

variable (orderly : context.Orderly) (arranged : tree.Arranged context.source)

include orderly arranged

/-- The first named child, as a name, traces the tree around it. -/
theorem firstName :
    Traces [tree] (Lowered.all (tree.firstPart?.toList.map context.name)).value := by
  cases found : tree.firstPart? with
  | none => exact .none _
  | some part =>
    have member := List.mem_of_head? found
    have name := orderly.name (arranged.of_mem_parts member)
    exact (name.of_mem_parts member).of_parts arranged

/-- The names in a list of imported or exported names trace the list. -/
theorem listedNames :
    Traces [tree] (Lowered.all ((Lowering.listedNames tree).map context.name)).value := by
  have listed : Lowering.listedNames tree = tree.parts.flatMap fun entry =>
      ((entry.child? "alias").or (entry.child? "name")).toList :=
    List.filterMap_eq_flatMap_toList _ _
  rw [listed]
  refine Traces.of_parts (traces_all_flatMap fun entry member => ?_) arranged
  have arrangedEntry := arranged.of_mem_parts member
  cases found : (entry.child? "alias").or (entry.child? "name") with
  | none => exact .none _
  | some name =>
    have named : ∃ field, entry.child? field = some name :=
      (Option.or_eq_some_iff.mp found).elim (fun found => ⟨_, found⟩) fun found => ⟨_, found.2⟩
    obtain ⟨field, answer⟩ := named
    have traces := orderly.name (arrangedEntry.of_child? answer)
    exact traces.of_child? answer arrangedEntry

/-- The names that an import binds trace its clause. -/
theorem importedNames :
    Traces (tree.standingAt (.partsOfKinds ["import_clause"]))
      (Lowered.all ((Lowering.importedNames tree).map context.name)).value := by
  unfold Lowering.importedNames
  cases found : tree.partOfKind? "import_clause" with
  | none => exact .none _
  | some clause =>
    have inner := arranged.of_mem_parts (List.mem_of_find?_eq_some found)
    refine Traces.of_partOfKind? (Traces.of_parts (traces_all_flatMap fun part member => ?_) inner)
      found
    have arrangedPart := inner.of_mem_parts member
    split
    · exact orderly.name arrangedPart
    · exact orderly.firstName arrangedPart
    · exact orderly.listedNames arrangedPart
    · exact .none _

/-- The names that an export lists trace the parts that list them. -/
theorem exportedNames :
    Traces (tree.standingAt (.partsOfKinds ["export_clause", "namespace_export"]))
      (Lowered.all ((Lowering.exportedNames tree).map context.name)).value := by
  unfold Lowering.exportedNames
  -- Other parts than these two list no names.
  rw [← @flatMap_filter_of_dropped _ _ fun part =>
    ["export_clause", "namespace_export"].any (part.kind == ·)]
  · refine traces_all_flatMap fun part member => ?_
    have arrangedPart := arranged.of_mem_parts (List.mem_filter.mp member).1
    split
    · exact orderly.listedNames arrangedPart
    · exact orderly.firstName arrangedPart
    · exact .none _
  · intro part other
    split
    · simp_all
    · simp_all
    · rfl

/-- The other branch of a condition traces its clause. -/
theorem elseBranch : Traces [tree] [(context.elseBranch tree).value] := by
  unfold Context.elseBranch
  split
  · exact (orderly.firstRequired arranged).of_parts arranged
  · exact orderly.lower arranged

/-- So it does where there may be none. -/
theorem optionalElse :
    Traces (tree.child? "alternative").toList
      (Lowered.optional ((tree.child? "alternative").map context.elseBranch)).value.toList :=
  traces_optional_map fun _ answer => orderly.elseBranch (arranged.of_child? answer)

/-- The block of a clause that ends a `try` traces the clause. -/
theorem finalizer :
    Traces (tree.child? "finalizer").toList
      (Lowered.optional ((tree.child? "finalizer").map fun finalizer =>
        context.required finalizer "body")).value.toList := by
  refine traces_optional_map fun finalizer answer => ?_
  have inner := arranged.of_child? answer
  exact (orderly.required inner "body").of_answer inner

/-- The parameter of a handler traces its pattern and its type. -/
theorem handlerParameter {rest : List Node} (later : Traces trees rest) :
    Traces ((tree.child? "parameter").toList ++ ((tree.child? "type").toList ++ trees))
      ((Lowered.optional ((tree.child? "parameter").map fun parameter =>
        context.binding parameter (tree.child? "type") false)).value.toList ++ rest) := by
  rw [← List.append_assoc]
  refine Traces.append ?_ later
  cases answer : tree.child? "parameter" with
  | none => exact .none _
  | some parameter => exact orderly.binding arranged (arranged.of_child? answer) "type" false

/-- A part of the head of a loop traces what fills the field. -/
theorem loopPart (field : String) :
    Traces (tree.partsOf field) (context.loopPart tree field).value.toList := by
  unfold Context.loopPart
  cases found : (tree.partsOf field).head? with
  | none => exact .none _
  | some part =>
    have member := List.mem_of_head? found
    have inner : part.Arranged context.source :=
      arranged.of_mem_subtrees (Tree.mem_subtrees_of_mem_standingAt (.filling field) member)
    have among : [part].Sublist (tree.partsOf field) := List.singleton_sublist.mpr member
    dsimp only
    split
    · exact .none _
    · exact ((orderly.first inner).of_parts inner).widen among
    · exact (orderly.lower inner).widen among

/-- The target of a loop traces its keyword, where a declaration begins, and its pattern. -/
theorem loopTarget :
    Traces ((tree.child? "kind").toList ++ (tree.child? "left").toList)
      [(context.loopTarget tree).value] := by
  unfold Context.loopTarget
  cases target : tree.child? "left" with
  | none => exact .silent _ (by cases tree.child? "kind" <;> simp)
  | some left =>
    have arrangedLeft := arranged.of_child? target
    cases keyword : tree.child? "kind" with
    | none => exact orderly.lower arrangedLeft
    | some word =>
      have ordered : word.start ≤ word.stop :=
        (arranged.of_child? keyword).wellFormed.inside.lawful.ordered
      have begins : Fits word.span [word.start] :=
        ⟨List.pairwise_singleton _ _,
          List.forall_mem_singleton.mpr ⟨Nat.le_refl _, ordered⟩⟩
      have name : Traces [left] [(context.binding left none false).value] :=
        traces_annotated (orderly.lower arrangedLeft) (.none [])
      have declarator : Traces [left] [place left .variableDeclarator
          (.child (context.binding left none false).value <| .optionalChild none .done)] :=
        .gathered (onsets_mk left.span rfl rfl rfl) name
      unfold Traces
      simp only [Lowered.value_bind, Lowered.value_pure, List.flatMap_cons, List.flatMap_nil,
        List.append_nil]
      rw [onsets_mk_of_isStatement _ rfl rfl rfl]
      exact Follows.cons begins declarator

/-- A loop over keys or values traces its tree: the target stands first, the body last. -/
theorem loopOver (kind : tree.kind = "for_in_statement") :
    Traces [tree] [(context.loopOver tree).value] := by
  have parts := (orderly.loopTarget arranged).cons
    ((orderly.required arranged "right").cons ((orderly.required arranged "body").cons (.none [])))
  have reads : tree.Reads ((tree.child? "kind").toList ++ (tree.child? "left").toList ++
      ((tree.child? "right").toList ++ ((tree.child? "body").toList ++ []))) := by
    rw [List.append_assoc]
    exact ⟨.forInLoop, kind, rfl⟩
  simp only [Context.loopOver, Lowered.value_bind]
  split
  all_goals
    split
    all_goals exact traces_reading rfl arranged parts reads

/-- A member of an enumeration traces its tree. -/
theorem enumMember : Traces [tree] [(context.enumMember tree).value] := by
  unfold Context.enumMember
  split
  · rename_i kind
    exact traces_reading rfl arranged ((orderly.nameField arranged "name").cons
      ((orderly.optional arranged "value").append (.none []))) ⟨.enumAssignment, kind, rfl⟩
  · exact .gathered (onsets_mk tree.span rfl rfl rfl) (orderly.name arranged)

/-- The block of a module traces its tree. -/
theorem moduleBlock : Traces [tree] [(context.moduleBlock tree).value] :=
  traces_parts rfl arranged (orderly.parts arranged).last

/-- An ambient declaration traces its tree, as a module or as what it declares. -/
theorem ambient : Traces [tree] [(context.ambient tree).value] := by
  unfold Context.ambient
  cases found : tree.firstPart? with
  | none => exact .silent _ (by simp)
  | some part =>
    have member := List.mem_of_head? found
    have inner := arranged.of_mem_parts member
    dsimp only
    split
    · have named : Traces [] [plainIdentifier tree "global"] := .silent [] (by simp)
      exact traces_parts rfl arranged ((named.cons (orderly.moduleBlock inner)).of_mem_parts member)
    · exact ((orderly.lower inner).of_mem_parts member).of_parts arranged

/-- An exported item traces its tree, whatever it exports. -/
theorem exportItem (kind : tree.kind = "export_statement") :
    Traces [tree] [(context.exportItem tree).value] := by
  unfold Context.exportItem
  cases found : tree.child? "declaration" with
  | some declaration =>
    have traces := orderly.lower (arranged.of_child? found)
    exact traces_fields rfl arranged (traces.of_child? found arranged)
  | none =>
    cases found : tree.child? "value" with
    | some value =>
      have traces := orderly.lower (arranged.of_child? found)
      exact traces_fields rfl arranged (traces.of_child? found arranged)
    | none =>
      simp only [Lowered.value_bind]
      split
      · rename_i expression chosen
        have member := List.mem_of_find?_eq_some (Option.ite_none_right_eq_some.mp chosen).2
        have traces := orderly.lower (arranged.of_mem_parts member)
        exact traces_parts rfl arranged (traces.of_mem_parts member)
      · exact traces_reading rfl arranged ((orderly.exportedNames arranged).append
          ((orderly.optional arranged "source").append (.none []))) ⟨.exportStatement, kind, rfl⟩

end Context.Orderly

/-- The name of a class holds no statements. -/
theorem onsets_name_of_isClass {name : Tree} (arranged : tree.Arranged context.source)
    (isClass : tree.IsClass) (found : tree.child? "name" = some name) :
    (context.name name).value.onsets = [] := by
  have plain := arranged.self_tidy.plainly_named isClass name found
  rw [Context.name, if_pos plain]
  exact onsets_plainIdentifier name _

section

variable (orderly : context.Orderly) (arranged : tree.Arranged context.source)

include orderly arranged

/-- An expression statement traces its tree, also where it is a module. -/
theorem traces_expressionStatement :
    Traces [tree] [(expressionStatement context tree).value] := by
  unfold expressionStatement
  cases found : tree.firstPart? with
  | none => exact .silent _ (by simp)
  | some inner =>
    have member := List.mem_of_head? found
    have traces := (orderly.lower (arranged.of_mem_parts member)).of_mem_parts member
    dsimp only
    split
    · exact traces.of_parts arranged
    · exact traces_parts rfl arranged traces

/-- A declaration of variables traces its tree, declarator by declarator. -/
theorem traces_variableDeclaration :
    Traces [tree] [(variableDeclaration context tree).value] := by
  have declarators : Traces (tree.parts.filter fun child => child.kind == "variable_declarator")
      (context.lowerAll
        (tree.parts.filter fun child => child.kind == "variable_declarator")).value :=
    orderly.lowerAll fun _ member => arranged.of_mem_parts (List.mem_filter.mp member).1
  exact traces_parts rfl arranged (declarators.widen List.filter_sublist).last

/-- A declarator traces its tree: the name stands first, then the type, then the value. -/
theorem traces_variableDeclarator (kind : tree.kind = "variable_declarator") :
    Traces [tree] [(variableDeclarator context tree).value] := by
  have reads : tree.Reads ((tree.child? "name").toList ++ (tree.child? "type").toList ++
      ((tree.child? "value").toList ++ [])) := by
    rw [List.append_assoc]
    exact ⟨.declarator, kind, rfl⟩
  have value := (orderly.optional arranged "value").append (.none [])
  unfold variableDeclarator
  cases found : tree.child? "name" with
  | none => exact traces_reading rfl arranged ((Traces.silent _ (by simp)).cons value) reads
  | some name =>
    have bound := orderly.binding arranged (arranged.of_child? found) "type" false
    rw [found] at reads
    exact traces_reading rfl arranged (bound.cons value) reads

/-- A declared function traces its tree. -/
theorem traces_functionDeclaration
    (isFunction : tree.IsFunction) :
    Traces [tree] [(functionDeclaration context tree).value] :=
  traces_reading rfl arranged
    ((orderly.nameField arranged "name").cons (orderly.functionParts arranged isFunction))
    isFunction.reads

/-- A declared class traces its tree. -/
theorem traces_classDeclaration (isClass : tree.IsClass) :
    Traces [tree] [(classDeclaration context tree).value] := by
  have silent : (context.nameField tree "name").value.onsets = [] := by
    unfold Context.nameField
    cases found : tree.child? "name" with
    | none => exact onsets_lacking tree "name"
    | some name => exact onsets_name_of_isClass arranged isClass found
  have names : [(context.nameField tree "name").value].flatMap Node.onsets = [] := by
    simpa using silent
  exact traces_class orderly arranged isClass names rfl rfl

/-- The body of an interface traces its tree. -/
theorem traces_interfaceBody :
    Traces [tree] [place tree .interfaceBody (.children (context.parts tree).value .done)] :=
  traces_parts rfl arranged (orderly.parts arranged).last

/-- An interface traces its tree: the name stands first, then the ancestors, then the body. -/
theorem traces_interfaceDeclaration (kind : tree.kind = "interface_declaration") :
    Traces [tree] [(interfaceDeclaration context tree).value] := by
  have node : ∀ (ancestors : List Node) (body : Node),
      Traces (tree.standingAt (.partsOfKinds ["extends_type_clause"])) ancestors →
      Traces (tree.child? "body").toList [body] →
      Traces [tree] [place tree .interfaceDeclaration
        (.child (context.nameField tree "name").value <|
          .optionalChild (context.optional tree "type_parameters").value <|
          .children ancestors <| .child body .done)] := by
    intro ancestors body extended members
    exact traces_reading rfl arranged ((orderly.nameField arranged "name").cons
      ((orderly.optional arranged "type_parameters").append
        (extended.append (members.cons (.none []))))) ⟨.interfaceDeclaration, kind, rfl⟩
  have members : ∀ body, tree.child? "body" = some body → Traces (tree.child? "body").toList
      [place body .interfaceBody (.children (context.parts body).value .done)] := by
    intro body found
    rw [found]
    exact traces_interfaceBody orderly (arranged.of_child? found)
  unfold interfaceDeclaration
  cases clause : tree.partOfKind? "extends_type_clause" with
  | none =>
    cases found : tree.child? "body" with
    | none => exact node _ _ (.none _) (.silent _ (by simp))
    | some body => exact node _ _ (.none _) (members body found)
  | some list =>
    have inner := arranged.of_mem_parts (List.mem_of_find?_eq_some clause)
    have extended := ((orderly.heritage inner).of_parts inner).of_partOfKind? clause
    cases found : tree.child? "body" with
    | none => exact node _ _ extended (.silent _ (by simp))
    | some body => exact node _ _ extended (members body found)

/-- An enumeration traces its tree: the name stands before the members. -/
theorem traces_enumDeclaration (kind : tree.kind = "enum_declaration") :
    Traces [tree] [(enumDeclaration context tree).value] := by
  have node : ∀ members : List Node, Traces (tree.child? "body").toList members →
      Traces [tree] [place tree .enumDeclaration
        (.child (context.nameField tree "name").value <|
          .attribute (tree.hasToken "const") <| .children members .done)] := by
    intro members traces
    exact traces_reading rfl arranged ((orderly.nameField arranged "name").cons
      (traces.append (.none []))) ⟨.enumDeclaration, kind, rfl⟩
  unfold enumDeclaration
  cases found : tree.child? "body" with
  | none => exact node [] (.none _)
  | some body =>
    have inner := arranged.of_child? found
    have members : Traces body.parts (Lowered.all (body.parts.map context.enumMember)).value :=
      traces_all_map fun _ member => orderly.enumMember (inner.of_mem_parts member)
    refine node _ ?_
    rw [found]
    exact members.of_parts inner

/-- A module traces its tree: the name stands before the block. -/
theorem traces_moduleDeclaration
    (isModule : tree.kind = "internal_module" ∨ tree.kind = "module") :
    Traces [tree] [(moduleDeclaration context tree).value] := by
  have body : Traces (tree.child? "body").toList
      (Lowered.optional ((tree.child? "body").map context.moduleBlock)).value.toList :=
    traces_optional_map fun _ answer => orderly.moduleBlock (arranged.of_child? answer)
  have reads : tree.Reads ((tree.child? "name").toList ++ ((tree.child? "body").toList ++ [])) := by
    rcases isModule with kind | kind
    · exact ⟨.innerModule, kind, rfl⟩
    · exact ⟨.module, kind, rfl⟩
  exact traces_reading rfl arranged
    ((orderly.nameField arranged "name").cons (body.append (.none [])))
    reads

/-- A loop that runs once before its condition lists the condition first, against the order in
which the two are written. -/
theorem traces_doWhileLoop (kind : tree.kind = "do_statement") :
    Traces [tree] [place tree .doWhileLoop
      (.child (context.condition tree "condition").value <|
        .child (context.required tree "body").value .done)] := by
  have written := (orderly.required arranged "body").cons
    ((orderly.condition arranged "condition").cons (.none []))
  exact traces_place arranged (written.of_reading ⟨.doLoop, kind, rfl⟩ arranged)

end

/-- The rule makes a node that traces its tree, given an orderly context. -/
def Rule.Orderly (kind : String) (rule : Rule) : Prop :=
  ∀ (context : Context) (tree : Tree), context.Orderly → tree.Arranged context.source →
    tree.kind = kind → Traces [tree] [(rule context tree).value]

/-- The rules for statements, declarations and members of classes are orderly. -/
theorem statementRules_orderly : ∀ entry ∈ statementRules, Rule.Orderly entry.1 entry.2 := by
  simp only [statementRules, List.forall_mem_cons, List.not_mem_nil, false_implies, implies_true,
    and_true]
  and_intros
  all_goals intro context tree orderly arranged kind
  · exact traces_expressionStatement orderly arranged
  · exact traces_parts rfl arranged (orderly.parts arranged).last
  · exact traces_fields rfl arranged (.none _)
  · exact traces_fields rfl arranged (.none _)
  · exact traces_reading rfl arranged ((orderly.condition arranged _).cons
      ((orderly.required arranged _).cons (.none []))) ⟨.withStatement, kind, rfl⟩
  · exact traces_parts rfl arranged (orderly.first arranged).last
  · exact traces_reading rfl arranged ((orderly.nameField arranged _).cons
      ((orderly.required arranged _).cons (.none []))) ⟨.labeledStatement, kind, rfl⟩
  · exact traces_reading rfl arranged ((orderly.optionalName arranged _).append (.none []))
      ⟨.breakStatement, kind, rfl⟩
  · exact traces_reading rfl arranged ((orderly.optionalName arranged _).append (.none []))
      ⟨.continueStatement, kind, rfl⟩
  · exact traces_reading rfl arranged ((orderly.condition arranged _).cons
      ((orderly.required arranged _).cons ((orderly.optionalElse arranged).append (.none []))))
      ⟨.ifStatement, kind, rfl⟩
  · exact orderly.elseBranch arranged
  · exact traces_reading rfl arranged ((orderly.condition arranged _).cons
      ((orderly.partsWithin arranged _).append (.none []))) ⟨.switchStatement, kind, rfl⟩
  · exact traces_reading rfl arranged ((orderly.optional arranged _).append
      ((orderly.many arranged _).append (.none []))) ⟨.switchCase, kind, rfl⟩
  · exact traces_reading rfl arranged ((orderly.many arranged _).append (.none []))
      ⟨.switchDefault, kind, rfl⟩
  · exact traces_parts rfl arranged (orderly.firstRequired arranged)
  · exact traces_reading rfl arranged ((orderly.required arranged _).cons
      ((orderly.optional arranged _).append ((orderly.finalizer arranged).append (.none []))))
      ⟨.tryStatement, kind, rfl⟩
  · exact traces_reading rfl arranged (orderly.handlerParameter arranged
      ((orderly.required arranged _).cons (.none []))) ⟨.catchClause, kind, rfl⟩
  · exact (orderly.required arranged _).of_answer arranged
  · exact traces_reading rfl arranged ((orderly.condition arranged _).cons
      ((orderly.required arranged _).cons (.none []))) ⟨.whileLoop, kind, rfl⟩
  · exact traces_doWhileLoop orderly arranged kind
  · exact traces_reading rfl arranged ((orderly.loopPart arranged _).append
      ((orderly.loopPart arranged _).append ((orderly.loopPart arranged _).append
      ((orderly.required arranged _).cons (.none []))))) ⟨.forLoop, kind, rfl⟩
  · exact orderly.loopOver arranged kind
  · exact traces_variableDeclaration orderly arranged
  · exact traces_variableDeclaration orderly arranged
  · exact traces_variableDeclarator orderly arranged kind
  · exact traces_functionDeclaration orderly arranged ⟨.functionDeclaration, kind, rfl⟩
  · exact traces_functionDeclaration orderly arranged ⟨.generatorDeclaration, kind, rfl⟩
  · exact traces_functionDeclaration orderly arranged ⟨.functionSignature, kind, rfl⟩
  · exact traces_classDeclaration orderly arranged ⟨.classDeclaration, kind, rfl⟩
  · exact traces_classDeclaration orderly arranged ⟨.abstractClassDeclaration, kind, rfl⟩
  · exact traces_interfaceDeclaration orderly arranged kind
  · exact traces_reading rfl arranged ((orderly.nameField arranged _).cons
      ((orderly.optional arranged _).append ((orderly.required arranged _).cons (.none []))))
      ⟨.typeAlias, kind, rfl⟩
  · exact traces_enumDeclaration orderly arranged kind
  · exact orderly.enumMember arranged
  · exact traces_moduleDeclaration orderly arranged (.inl kind)
  · exact traces_moduleDeclaration orderly arranged (.inr kind)
  · exact orderly.ambient arranged
  · exact traces_reading rfl arranged ((orderly.importedNames arranged).append
      ((orderly.required arranged _).cons (.none []))) ⟨.importStatement, kind, rfl⟩
  · exact orderly.exportItem arranged kind
  · exact orderly.method arranged ⟨.methodDefinition, kind, rfl⟩ (.none [])
  · exact orderly.property arranged (.inl kind) (.none [])
  · exact orderly.property arranged (.inr kind) (.none [])
  · exact traces_reading rfl arranged ((orderly.required arranged _).cons (.none []))
      ⟨.staticBlock, kind, rfl⟩
  · exact traces_parts rfl arranged (orderly.firstRequired arranged)

end CodeClones.Lowering
