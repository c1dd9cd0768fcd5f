import CodeClones.Lowering.Rules
import CodeClones.Proofs.Lowering.Constructs
import CodeClones.Proofs.Lowering.Onsets

/-!
# Templates, functions and classes in order

What an orderly context makes of these constructs traces their trees, though not all of them list
what they are made of in the order of the grammar. A template sorts its parts by where they start.
A function lists decorators that it never has, and a constructor drops those before it. A class
lists its name before its decorators, which only a plain name allows, and its members take the
decorators before them along.
-/

namespace CodeClones.Lowering

open Syntax Concrete

variable {tree : Tree} {trees : List Tree} {context : Context}

/-! ## Templates -/

/-- No statement begins in a segment of a template. -/
theorem onsets_of_mem_segments {source : String} {cursor stop : Nat} {parts : List Tree}
    {node : Node} (member : node ∈ segments source cursor stop parts) : node.onsets = [] := by
  have silent : ∀ start stop tail, (segment source start stop tail).onsets = [] := fun _ _ _ =>
    onsets_mk _ rfl rfl rfl
  induction parts generalizing cursor with
  | nil =>
    rw [List.mem_singleton.mp member]
    exact silent _ _ _
  | cons part others ih =>
    rcases List.mem_cons.mp member with rfl | member
    · exact silent _ _ _
    · exact ih member

/-- Leaving out what contributes nothing leaves the contributions as they are. -/
theorem flatMap_filter_of_dropped {α β : Type} {keep : α → Bool} {given : α → List β}
    (dropped : ∀ item, keep item = false → given item = []) (items : List α) :
    (items.filter keep).flatMap given = items.flatMap given := by
  induction items with
  | nil => rfl
  | cons item others ih =>
    cases kept : keep item with
    | true => simp [kept, ih]
    | false => simp [kept, ih, dropped item kept]

/-- Sorting nodes by where they start changes nothing if those with statements are sorted already:
the sort is stable. -/
theorem traces_mergeSort {silent holes : List Node} (none : ∀ node ∈ silent, node.onsets = [])
    (ascending : holes.Pairwise fun left right => left.span.start ≤ right.span.start)
    (traces : Traces trees holes) :
    Traces trees
      ((silent ++ holes).mergeSort fun left right => left.span.start ≤ right.span.start) := by
  let counts : Node → Bool := fun node => !node.onsets.isEmpty
  let earlier : Node → Node → Bool := fun left right => left.span.start ≤ right.span.start
  let sorted := (silent ++ holes).mergeSort earlier
  have kept : (holes.filter counts).Sublist (sorted.filter counts) := by
    refine List.Sublist.filter counts ?_
    refine List.sublist_mergeSort Node.starts_trans Node.starts_total ?_ ?_
    · exact ascending.imp decide_eq_true
    · exact List.sublist_append_right silent holes
  have length : (holes.filter counts).length = (sorted.filter counts).length := by
    have dropped : silent.filter counts = [] := by
      rw [List.filter_eq_nil_iff]
      intro node member
      simp [counts, none node member]
    have same := ((List.mergeSort_perm (silent ++ holes) earlier).filter counts).length_eq
    rw [List.filter_append, dropped, List.nil_append] at same
    exact same.symm
  have uncounted : ∀ node, counts node = false → node.onsets = [] := by
    intro node zero
    simpa [counts] using zero
  unfold Traces
  rw [← flatMap_filter_of_dropped uncounted, ← kept.eq_of_length length,
    flatMap_filter_of_dropped uncounted]
  exact traces

/-- What the substitutions of a template hold stands in order. -/
theorem templateHoles_ascending (orderly : context.Orderly)
    (arranged : tree.Arranged context.source) (kind : String) :
    (context.templateHoles kind tree).value.Pairwise fun left right =>
      left.span.start ≤ right.span.start := by
  have inOrder : Tree.InOrder (substitutions kind tree) := arranged.parts_inOrder.filter _
  have placed : ∀ part ∈ substitutions kind tree,
      Anchored context.source part.span (context.firstRequired part).value := by
    intro part member
    have formed := (arranged.of_mem_parts (List.mem_filter.mp member).1).wellFormed
    exact orderly.sound.firstRequired formed.inside
  simp only [Context.templateHoles, Lowered.all, List.map_map, List.pairwise_map,
    Function.comp_apply]
  refine inOrder.imp_of_mem fun {part later} member memberLater before => ?_
  have first := (placed part member).piece
  calc (context.firstRequired part).value.span.start
      ≤ (context.firstRequired part).value.span.stop := first.ordered
    _ ≤ part.stop := first.stop_le
    _ ≤ later.start := before
    _ ≤ (context.firstRequired later).value.span.start := (placed later memberLater).piece.start_le

/-- A template traces its tree. -/
theorem traces_template (orderly : context.Orderly) (arranged : tree.Arranged context.source)
    (source kind : String) :
    Traces [tree] [place tree .templateLiteral
      (.children (templateSegments source kind tree) <|
        .children (context.templateHoles kind tree).value .done)] := by
  have holes : Traces (substitutions kind tree) (context.templateHoles kind tree).value := by
    refine traces_all_map fun part member => ?_
    have inner := arranged.of_mem_parts (List.mem_filter.mp member).1
    exact (orderly.firstRequired inner).of_parts inner
  have silent : ∀ node ∈ templateSegments source kind tree, node.onsets = [] :=
    fun _ member => onsets_of_mem_segments member
  have sorted := traces_mergeSort silent (templateHoles_ascending orderly arranged kind) holes
  have written := (sorted.widen List.filter_sublist).of_parts arranged
  rw [← List.append_nil (context.templateHoles kind tree).value] at written
  exact traces_place arranged written

/-! ## Functions and their parameters -/

/-- A function has no decorators. -/
theorem decorators_eq_nil (arranged : tree.Arranged context.source)
    (isFunction : tree.IsFunction) :
    (context.decorators tree).value = [] := by
  have none := arranged.self_tidy.undecorated isFunction
  simpa [Context.decorators, Context.lowerAll, Lowered.all] using none

/-- The parameters and the body of a function are among its parts. -/
theorem FunctionParts.sublist_stored (parts : FunctionParts) :
    (parts.parameters ++ (parts.body.toList ++ [])).Sublist parts.slots.stored := by
  have body : (parts.parameters ++ (parts.body.toList ++ [])).Sublist
      (parts.parameters ++ (parts.returnType.toList ++ (parts.body.toList ++ []))) :=
    (List.Sublist.refl _).append (List.sublist_append_right _ _)
  exact body.trans ((List.sublist_append_right _ _).trans (List.sublist_append_right _ _))

namespace Context.Orderly

variable (orderly : context.Orderly) (arranged : tree.Arranged context.source)

include orderly arranged

/-- A target without a default traces its tree. -/
theorem barePattern : Traces [tree] [(context.barePattern tree).value] :=
  .gathered (onsets_mk tree.span rfl rfl rfl) (orderly.lower arranged)

/-- The target of a parameter traces the pattern and the type. -/
theorem parameterTarget :
    Traces ((tree.child? "pattern").toList ++ (tree.child? "type").toList)
      [(context.parameterTarget tree).value] := by
  unfold Context.parameterTarget
  cases answer : tree.child? "pattern" with
  | none => exact .silent _ (by simp)
  | some pattern => exact orderly.binding arranged (arranged.of_child? answer) "type" _

/-- A pattern with its default traces the pattern, the type and the value. -/
theorem parameterPattern :
    Traces (Tree.parameterPlaces.flatMap tree.standingAt)
      [(context.parameterPattern tree).value] := by
  have target := orderly.parameterTarget arranged
  have places : Tree.parameterPlaces.flatMap tree.standingAt =
      (tree.child? "pattern").toList ++ (tree.child? "type").toList ++
        (tree.child? "value").toList := by
    simp [Tree.parameterPlaces, Tree.standingAt]
  rw [places]
  unfold Context.parameterPattern
  cases answer : tree.child? "value" with
  | none => exact target.append (.none [])
  | some value =>
    exact .gathered (onsets_mk _ rfl rfl rfl)
      (target.append (orderly.lower (arranged.of_child? answer)))

/-- A parameter traces its tree, with its decorators in front. -/
theorem fullParameter
    (parameter : tree.kind = "required_parameter" ∨ tree.kind = "optional_parameter") :
    Traces [tree] [(context.fullParameter tree).value] := by
  have parts := (orderly.decorators arranged).append (orderly.parameterPattern arranged)
  have reads : tree.Reads (tree.standingAt (.partsOfKinds ["decorator"]) ++
      Tree.parameterPlaces.flatMap tree.standingAt) := by
    rcases parameter with kind | kind
    · exact ⟨.requiredParameter, kind, rfl⟩
    · exact ⟨.optionalParameter, kind, rfl⟩
  simp only [Context.fullParameter, Lowered.value_bind]
  split
  · exact traces_reading rfl arranged parts reads
  · exact traces_reading rfl arranged parts reads

/-- So does any parameter, also one that is a target only. -/
theorem parameter : Traces [tree] [(context.parameter tree).value] := by
  unfold Context.parameter
  split
  · rename_i parameter
    exact orderly.fullParameter arranged parameter
  · exact orderly.barePattern arranged

/-- Parameters trace the named children. -/
theorem parameters : Traces tree.parts (context.parameters tree).value :=
  traces_all_map fun _ member => orderly.parameter (arranged.of_mem_parts member)

/-- The parameters of a signature trace the answer for them. -/
theorem signatureParameters :
    Traces (tree.child? "parameters").toList (context.signatureParameters tree).value := by
  unfold Context.signatureParameters
  cases answer : tree.child? "parameters" with
  | none => exact .none _
  | some list =>
    have inner := arranged.of_child? answer
    exact (orderly.parameters inner).of_parts inner

/-- The parameters of a function trace the answers for many and for a single one. -/
theorem functionParameters :
    Traces ((tree.child? "parameters").toList ++ (tree.child? "parameter").toList)
      (context.functionParameters tree).value := by
  unfold Context.functionParameters
  cases answer : tree.child? "parameters" with
  | some list =>
    have inner := arranged.of_child? answer
    exact (orderly.parameters inner).of_parts inner |>.widen (List.sublist_append_left _ _)
  | none =>
    cases answer : tree.child? "parameter" with
    | none => exact .none _
    | some single => exact orderly.barePattern (arranged.of_child? answer)

/-- The parts of a function trace its fields. -/
theorem functionParts (isFunction : tree.IsFunction) :
    Traces (Tree.functionPlaces.flatMap tree.standingAt)
      (context.functionParts tree).value.slots.stored := by
  have undecorated := decorators_eq_nil arranged isFunction
  have places : Tree.functionPlaces.flatMap tree.standingAt =
      (tree.child? "type_parameters").toList ++
        ((tree.child? "parameters").toList ++ (tree.child? "parameter").toList ++
          ((tree.child? "return_type").toList ++ (tree.child? "body").toList)) := by
    simp [Tree.functionPlaces, Tree.standingAt]
  rw [places]
  simp only [Context.functionParts, FunctionParts.slots, Slots.stored, Lowered.value_bind,
    Lowered.value_pure, undecorated, List.nil_append, List.append_nil]
  exact (orderly.optional arranged _).append ((orderly.functionParameters arranged).append
    ((orderly.optional arranged _).append (orderly.optional arranged _)))

end Context.Orderly

/-! ## Classes -/

/-- Marking a signature as static moves no statement. -/
theorem onsets_markedStatic (isStatic : Bool) (node : Node) :
    (markedStatic isStatic node).onsets = node.onsets := by
  fun_cases markedStatic isStatic node
  case case1 => rw [onsets_mk _ rfl rfl rfl, onsets_mk _ rfl rfl rfl]; rfl
  case case2 => rfl

namespace Context.Orderly

variable {pending : List Tree} {leading : List Node}

/-- A method traces the decorators before it and its own tree. A constructor drops them. -/
theorem method (orderly : context.Orderly) (arranged : tree.Arranged context.source)
    (isFunction : tree.IsFunction) (before : Traces pending leading) :
    Traces (pending ++ [tree]) [(context.method leading tree).value] := by
  have own := (orderly.nameField arranged "name").append (orderly.functionParts arranged isFunction)
  have undecorated : (context.functionParts tree).value.decorators = [] :=
    decorators_eq_nil arranged isFunction
  simp only [Context.method, Lowered.value_bind]
  split
  · refine (Traces.none pending).append (.gathered (onsets_mk _ rfl rfl rfl) ?_)
    exact (own.chosen (List.cons_sublist_cons.mpr (FunctionParts.sublist_stored _))).of_reading
      isFunction.reads arranged
  · refine .gathered (onsets_mk _ rfl rfl rfl) ?_
    have all := before.append (own.of_reading isFunction.reads arranged)
    simpa [FunctionParts.slots, undecorated] using all

/-- A field of a class traces the decorators before it and its own tree. -/
theorem property (orderly : context.Orderly) (arranged : tree.Arranged context.source)
    (isField : tree.kind = "public_field_definition" ∨ tree.kind = "field_definition")
    (before : Traces pending leading) :
    Traces (pending ++ [tree]) [(context.property leading tree).value] := by
  have reads : tree.Reads (tree.standingAt (.partsOfKinds ["decorator"]) ++
      (((tree.child? "name").or (tree.child? "property")).toList ++
        ((tree.child? "type").toList ++ ((tree.child? "value").toList ++ [])))) := by
    rcases isField with kind | kind
    · exact ⟨.publicField, kind, rfl⟩
    · exact ⟨.plainField, kind, rfl⟩
  have own : ∀ key : Node, Traces ((tree.child? "name").or (tree.child? "property")).toList [key] →
      Traces [tree] ((context.decorators tree).value ++ key ::
        ((context.optional tree "type").value.toList ++
          ((context.optional tree "value").value.toList ++ []))) := by
    intro key traces
    exact ((orderly.decorators arranged).append (traces.cons
      ((orderly.optional arranged "type").append
        ((orderly.optional arranged "value").append (.none []))))).of_reading reads arranged
  have node : ∀ key : Node, Traces ((tree.child? "name").or (tree.child? "property")).toList [key] →
      Traces (pending ++ [tree]) (leading ++ (context.decorators tree).value ++ key ::
        ((context.optional tree "type").value.toList ++
          ((context.optional tree "value").value.toList ++ []))) := by
    intro key traces
    rw [List.append_assoc]
    exact before.append (own key traces)
  unfold Context.property
  cases found : (tree.child? "name").or (tree.child? "property") with
  | none => exact .gathered (onsets_mk _ rfl rfl rfl) (node _ (.silent _ (by simp)))
  | some key =>
    have inner : key.Arranged context.source :=
      (Option.or_eq_some_iff.mp found).elim arranged.of_child? fun found =>
        arranged.of_child? found.2
    have named : Traces ((tree.child? "name").or (tree.child? "property")).toList
        [(context.name key).value] := by
      rw [found]
      exact orderly.name inner
    exact .gathered (onsets_mk _ rfl rfl rfl) (node _ named)

/-- A member of a class traces the decorators before it and its own tree. -/
theorem member (orderly : context.Orderly) (arranged : tree.Arranged context.source)
    (before : Traces pending leading) :
    Traces (pending ++ [tree]) [(context.member leading tree).value] := by
  have alone := (Traces.none pending).append (orderly.lower arranged)
  unfold Context.member
  split
  · exact orderly.method arranged ⟨.methodDefinition, ‹_›, rfl⟩ before
  · exact orderly.method arranged ⟨.methodSignature, ‹_›, rfl⟩ before
  · exact orderly.method arranged ⟨.abstractMethodSignature, ‹_›, rfl⟩ before
  · exact orderly.property arranged (.inl ‹_›) before
  · exact orderly.property arranged (.inr ‹_›) before
  · refine .gathered ?_ alone
    rw [List.nil_append, List.flatMap_cons, List.flatMap_nil, List.append_nil]
    exact onsets_markedStatic _ _
  · exact alone

/-- The members of a class trace the trees of the decorators still to be taken and those of the
members. -/
theorem members (orderly : context.Orderly)
    (arranged : ∀ tree ∈ trees, tree.Arranged context.source) (before : Traces pending leading) :
    Traces (pending ++ trees) (context.members leading trees).value := by
  induction trees generalizing pending leading with
  | nil => exact .none _
  | cons tree others ih =>
    obtain ⟨first, later⟩ := List.forall_mem_cons.mp arranged
    have split : pending ++ tree :: others = pending ++ [tree] ++ others := by simp
    rw [split]
    unfold Context.members
    split
    · exact ih later (before.append (orderly.lower first))
    · exact (orderly.member first before).cons (ih later (.none []))

/-- The first clause about ancestors traces its tree. -/
theorem clause (orderly : context.Orderly) (arranged : tree.Arranged context.source) :
    Traces [tree] (context.clause ⟨none, none, []⟩ tree).value.nodes := by
  unfold Context.clause
  split
  · rename_i kind
    have reads : tree.Reads (((tree.child? "value").or tree.parts.head?).toList ++
        ((tree.child? "type_arguments").toList ++ [])) := ⟨.extendsClause, kind, rfl⟩
    have nodes : ∀ superclass : Option Node,
        Traces ((tree.child? "value").or tree.parts.head?).toList superclass.toList →
        Traces [tree] (superclass.toList ++
          (context.optional tree "type_arguments").value.toList ++ []) := by
      intro superclass traces
      rw [List.append_assoc]
      exact (traces.append ((orderly.optional arranged "type_arguments").append
        (.none []))).of_reading reads arranged
    cases found : tree.child? "value" with
    | none =>
      refine nodes _ ?_
      rw [found]
      exact orderly.lowerOptional fun _ head => arranged.of_mem_parts (List.mem_of_head? head)
    | some value =>
      refine nodes (some _) ?_
      rw [found]
      exact orderly.lower (arranged.of_child? found)
  · exact (orderly.heritage arranged).of_parts arranged
  · exact orderly.lower arranged

/-- Clauses that name interfaces add their trees to what is traced. -/
theorem clauses (orderly : context.Orderly)
    (arranged : ∀ tree ∈ trees, tree.Arranged context.source)
    (interfaces : ∀ tree ∈ trees, tree.kind = "implements_clause") {ancestry : Ancestry}
    (before : Traces pending ancestry.nodes) :
    Traces (pending ++ trees) (context.clauses ancestry trees).value.nodes := by
  induction trees generalizing pending ancestry with
  | nil => exact before.widen (List.sublist_append_left _ _)
  | cons tree others ih =>
    obtain ⟨first, later⟩ := List.forall_mem_cons.mp arranged
    obtain ⟨kind, kinds⟩ := List.forall_mem_cons.mp interfaces
    have taken : (context.clause ancestry tree).value =
        { ancestry with interfaces := (context.heritage tree).value } := by
      unfold Context.clause
      rw [kind]
      rfl
    have added : Traces (pending ++ [tree]) (context.clause ancestry tree).value.nodes := by
      rw [taken]
      exact (before.chosen (List.sublist_append_left _ _)).append
        ((orderly.heritage first).of_parts first)
    have split : pending ++ tree :: others = pending ++ [tree] ++ others := by simp
    rw [split]
    exact ih later kinds added

/-- The ancestors of a class trace the list of its clauses. -/
theorem ancestry (orderly : context.Orderly) (arranged : tree.Arranged context.source) :
    Traces (tree.standingAt (.partsOfKinds ["class_heritage"]))
      (context.ancestry tree).value.nodes := by
  unfold Context.ancestry
  cases found : tree.partOfKind? "class_heritage" with
  | none => exact .none _
  | some heritage =>
    have inParts := List.mem_of_find?_eq_some found
    have kind : heritage.kind = "class_heritage" := by simpa using List.find?_some found
    have inner := arranged.of_mem_parts inParts
    have traces : Traces heritage.parts
        (context.clauses ⟨none, none, []⟩ heritage.parts).value.nodes := by
      have interfaces := inner.self_tidy.interfaces_last kind
      have arrangedParts : ∀ part ∈ heritage.parts, part.Arranged context.source :=
        fun _ => inner.of_mem_parts
      cases parts : heritage.parts with
      | nil => exact .none []
      | cons first others =>
        rw [parts] at interfaces arrangedParts
        obtain ⟨arrangedFirst, arrangedOthers⟩ := List.forall_mem_cons.mp arrangedParts
        exact orderly.clauses arrangedOthers interfaces (orderly.clause arrangedFirst)
    exact (traces.of_parts inner).of_partOfKind? found

/-- The members of a class trace its body. -/
theorem classBody (orderly : context.Orderly) (arranged : tree.Arranged context.source) :
    Traces (tree.child? "body").toList (context.classBody tree).value := by
  unfold Context.classBody
  cases answer : tree.child? "body" with
  | none => exact .none _
  | some body =>
    have inner := arranged.of_child? answer
    have members := orderly.members (fun _ => inner.of_mem_parts) (Traces.none [])
    exact members.of_parts inner

/-- The parts of a class trace its decorators and what stands behind its name. -/
theorem classParts (orderly : context.Orderly) (arranged : tree.Arranged context.source) :
    Traces (tree.standingAt (.partsOfKinds ["decorator"]) ++
        Tree.classPlaces.flatMap tree.standingAt)
      (context.classParts tree).value.slots.stored := by
  have parts := (orderly.decorators arranged).append
    ((orderly.optional arranged "type_parameters").append
      ((orderly.ancestry arranged).append ((orderly.classBody arranged).append (.none []))))
  simpa [Context.classParts, ClassParts.slots, Ancestry.nodes, Tree.classPlaces,
    Tree.standingAt] using parts

end Context.Orderly

/-- A class traces its tree: its name holds no statements, wherever it is listed. -/
theorem traces_class (orderly : context.Orderly) (arranged : tree.Arranged context.source)
    (isClass : tree.IsClass) {kind : Kind}
    {slots : Slots kind.layout} {names : List Node} (silent : names.flatMap Node.onsets = [])
    (stored : slots.stored = names ++ (context.classParts tree).value.slots.stored)
    (keeps : kind.keepsOrder = true) :
    Traces [tree] [place tree kind slots] := by
  refine traces_reading keeps arranged ?_ isClass.reads
  rw [stored]
  have unnamed : (tree.standingAt (.partsOfKinds ["decorator"]) ++
      Tree.classPlaces.flatMap tree.standingAt).Sublist
        (tree.standingAt (.partsOfKinds ["decorator"]) ++
          ((tree.child? "name").toList ++ Tree.classPlaces.flatMap tree.standingAt)) :=
    (List.Sublist.refl _).append (List.sublist_append_right _ _)
  exact ((Traces.silent [] silent).append (orderly.classParts arranged)).widen unnamed

end CodeClones.Lowering
