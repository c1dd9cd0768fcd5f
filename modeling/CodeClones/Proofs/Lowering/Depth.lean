import CodeClones.Parsing
import CodeClones.Proofs.Lowering.Rules
import Mathlib.Data.List.Chain

/-!
# How deep lowered nodes are nested

One call of `lower` puts at most five nodes of its own on top of what it lowers below: a class,
its method, a parameter, the default of the parameter and the target that carries the annotation.
So the levels that lowering may go down bound every chain of nested nodes, except for the dotted
names of types and of markup elements. These are nested as deep as the name is long, by a
recursion that takes no level: a name with thousands of dots is accepted and gives a chain of
thousands of nodes.
-/

namespace CodeClones.Syntax

/-- Kinds of dotted names. -/
def Kind.isDotted (kind : Kind) : Bool :=
  kind == .qualifiedName || kind == .jsxMemberName

/-- Every node of the chain is a child of the one before. -/
def Nested (chain : List Node) : Prop :=
  chain.IsChain fun parent child => child ∈ parent.children

/-- Number of the nodes of a chain that are no dotted names. -/
def undotted (chain : List Node) : Nat :=
  chain.countP fun node => !node.kind.isDotted

/-- Every chain from the node down has at most the given number of nodes besides dotted names. -/
def Node.Within (levels : Nat) (node : Node) : Prop :=
  ∀ below, Nested (node :: below) → undotted (node :: below) ≤ levels

/-- The levels that a node takes of itself. -/
def Kind.ownLevels (kind : Kind) : Nat :=
  if kind.isDotted then 0 else 1

/-- One more node makes a chain longer by the levels that the node takes. -/
theorem undotted_cons (node : Node) (below : List Node) :
    undotted (node :: below) = undotted below + node.kind.ownLevels := by
  rw [undotted, List.countP_cons, Kind.ownLevels, undotted]
  cases node.kind.isDotted <;> rfl

/-- A chain goes on above its first node with a node that stores it. -/
theorem Nested.under {parent child : Node} {below : List Node} (nested : Nested (child :: below))
    (member : child ∈ parent.stored) : Nested (parent :: child :: below) :=
  List.isChain_cons_cons.mpr ⟨Node.mem_children.mpr member, nested⟩

/-- A chain goes down from the node that many times. -/
def Node.Descends (steps : Nat) (node : Node) : Prop :=
  ∃ below, Nested (node :: below) ∧ below.length = steps

/-- From a node above, a chain goes down once more. -/
theorem Node.Descends.under {steps : Nat} {parent child : Node} (descends : child.Descends steps)
    (member : child ∈ parent.stored) : parent.Descends (steps + 1) := by
  obtain ⟨below, nested, length⟩ := descends
  exact ⟨child :: below, nested.under member, by rw [List.length_cons, length]⟩

/-- A node is within a number of levels exactly if it has room for itself and the nodes stored in
its fields are within the others. -/
theorem Node.within_iff {levels : Nat} {node : Node} :
    node.Within (levels + node.kind.ownLevels) ↔
      ∀ child ∈ node.stored, child.Within levels := by
  constructor
  · intro within child member below nested
    have bound := within (child :: below) (nested.under member)
    rw [undotted_cons] at bound
    omega
  · intro within below nested
    rw [undotted_cons]
    cases below with
    | nil => simp [undotted]
    | cons child below =>
      obtain ⟨member, nested⟩ := List.isChain_cons_cons.mp nested
      have bound := within child (Node.mem_children.mp member) below nested
      omega

/-- More levels leave a node within them. -/
theorem Node.Within.mono {levels more : Nat} {node : Node} (within : node.Within levels)
    (le : levels ≤ more) : node.Within more :=
  fun below nested => Nat.le_trans (within below nested) le

/-- Where a node stands has nothing to do with its levels. -/
theorem Node.Within.withSpan {levels : Nat} {node : Node} (within : node.Within levels)
    (span : Span) : (node.withSpan span).Within levels := by
  intro below nested
  have chain : Nested (node :: below) := by
    cases below with
    | nil => exact List.isChain_singleton _
    | cons child below =>
      obtain ⟨member, nested⟩ := List.isChain_cons_cons.mp nested
      exact Nested.under nested (Node.mem_children.mp member)
  have bound := within below chain
  rw [undotted_cons] at bound ⊢
  exact bound

end CodeClones.Syntax

namespace CodeClones.Lowering

open Syntax Concrete

variable {context : Context} {levels : Nat} {tree : Tree}

/-! ## Levels above what a context lowers -/

/-- The node rises at most the given number of levels above what the context lowers: it is within
that many levels more than everything the context lowers. -/
def Context.Above (context : Context) (levels : Nat) (node : Node) : Prop :=
  ∀ bound, 0 < bound → (∀ tree, (context.lower tree).value.Within bound) →
    node.Within (levels + bound)

/-- All nodes rise at most the given number of levels above what the context lowers. -/
def Context.AllAbove (context : Context) (levels : Nat) (nodes : List Node) : Prop :=
  ∀ node ∈ nodes, context.Above levels node

namespace Context

/-- No nodes rise above anything. -/
@[simp]
theorem allAbove_nil : context.AllAbove levels [] := by
  simp [AllAbove]

/-- All of some nodes rise so far if the first one and the others do. -/
@[simp]
theorem allAbove_cons {node : Node} {nodes : List Node} :
    context.AllAbove levels (node :: nodes) ↔
      context.Above levels node ∧ context.AllAbove levels nodes := by
  simp [AllAbove]

/-- All nodes of two lists rise so far if those of each list do. -/
@[simp]
theorem allAbove_append {front back : List Node} :
    context.AllAbove levels (front ++ back) ↔
      context.AllAbove levels front ∧ context.AllAbove levels back := by
  simp only [AllAbove, List.mem_append, or_imp, forall_and]

/-- The first of some nodes rises no further than all of them. -/
@[simp]
theorem allAbove_head? {nodes : List Node} (above : context.AllAbove levels nodes) :
    context.AllAbove levels nodes.head?.toList := by
  intro node member
  exact above node (List.mem_of_head? (Option.mem_toList.mp member))

/-- A node that rises so far rises one level more at most. -/
theorem Above.succ {node : Node} (above : context.Above levels node) :
    context.Above (levels + 1) node :=
  fun bound positive lowered => (above bound positive lowered).mono (by omega)

/-- A node rises above the nodes stored in its fields by the levels that it takes of itself. -/
theorem above_ownLevels_iff {span : Span} {kind : Kind} {slots : Slots kind.layout} :
    context.Above (levels + kind.ownLevels) (.mk span kind slots) ↔
      context.AllAbove levels slots.stored := by
  have split : ∀ bound, (Node.mk span kind slots).Within (levels + kind.ownLevels + bound) ↔
      ∀ child ∈ slots.stored, child.Within (levels + bound) := by
    intro bound
    rw [Nat.add_right_comm]
    exact Node.within_iff
  constructor
  · intro above child member bound positive lowered
    exact (split bound).mp (above bound positive lowered) child member
  · intro above bound positive lowered
    exact (split bound).mpr fun child member => above child member bound positive lowered

/-- A node that is no dotted name rises one level above the nodes stored in its fields. -/
@[simp]
theorem above_mk_iff {span : Span} {kind : Kind} {slots : Slots kind.layout}
    (notQualified : kind ≠ .qualifiedName) (notMember : kind ≠ .jsxMemberName) :
    context.Above (levels + 1) (.mk span kind slots) ↔ context.AllAbove levels slots.stored := by
  have own : kind.ownLevels = 1 := by
    simp [Kind.ownLevels, Kind.isDotted, notQualified, notMember]
  rw [← own]
  exact above_ownLevels_iff

/-- A node takes one level of its own, unless it is a dotted name. -/
@[simp]
theorem above_place_iff {kind : Kind} {slots : Slots kind.layout}
    (notQualified : kind ≠ .qualifiedName) (notMember : kind ≠ .jsxMemberName) :
    context.Above (levels + 1) (place tree kind slots) ↔ context.AllAbove levels slots.stored :=
  above_mk_iff notQualified notMember

/-- A dotted name rises no higher than its sides. -/
theorem above_dotted_iff {kind : Kind} {slots : Slots kind.layout} (dotted : kind.isDotted) :
    context.Above levels (place tree kind slots) ↔ context.AllAbove levels slots.stored := by
  have own : kind.ownLevels = 0 := by
    rw [Kind.ownLevels, dotted]
    rfl
  have split : context.Above (levels + kind.ownLevels) (place tree kind slots) ↔ _ :=
    above_ownLevels_iff
  rwa [own] at split

/-- A node without children rises above nothing, as every tree is lowered to a node. -/
theorem above_leaf {span : Span} {kind : Kind} {slots : Slots kind.layout}
    (leaf : slots.stored = []) : context.Above levels (.mk span kind slots) := by
  intro bound positive _
  have alone : (Node.mk span kind slots).Within (0 + kind.ownLevels) := by
    refine Node.within_iff.mpr fun child member => ?_
    change child ∈ slots.stored at member
    rw [leaf] at member
    cases member
  have own : kind.ownLevels ≤ 1 := by
    unfold Kind.ownLevels
    split <;> omega
  exact alone.mono (by omega)

/-- An unmodelled node has nothing below it. -/
@[simp]
theorem above_unmodelled : context.Above levels (unmodelled tree) :=
  above_leaf rfl

/-- Neither has the node for a lacking field. -/
@[simp]
theorem above_lacking {field : String} : context.Above levels (lacking tree field) :=
  above_leaf rfl

/-- Neither has a plain name. -/
@[simp]
theorem above_plainIdentifier {name : String} :
    context.Above levels (plainIdentifier tree name) :=
  above_leaf rfl

/-! ## What is lowered -/

/-- What the context lowers rises no level above what it lowers. -/
@[simp]
theorem above_lower : context.Above levels (context.lower tree).value :=
  fun _ _ lowered => (lowered tree).mono (Nat.le_add_left _ _)

/-- What is made of the trees of a list rises no higher than what is made of each. -/
theorem allAbove_all {trees : List Tree} {lowering : Tree → Lowered Node}
    (each : ∀ tree, context.Above levels (lowering tree).value) :
    context.AllAbove levels (Lowered.all (trees.map lowering)).value := by
  intro node member
  simp only [Lowered.all, List.map_map, List.mem_map, Function.comp_apply] at member
  obtain ⟨tree, _, rfl⟩ := member
  exact each tree

/-- What is made of an optional tree rises no higher than what is made of any. -/
theorem allAbove_optional {found : Option Tree} {lowering : Tree → Lowered Node}
    (each : ∀ tree, context.Above levels (lowering tree).value) :
    context.AllAbove levels (Lowered.optional (found.map lowering)).value.toList := by
  cases found with
  | none => exact allAbove_nil
  | some tree => exact allAbove_cons.mpr ⟨each tree, allAbove_nil⟩

/-- Trees that the context lowers rise no level above what it lowers. -/
@[simp]
theorem allAbove_lowerAll {trees : List Tree} :
    context.AllAbove levels (context.lowerAll trees).value :=
  allAbove_all fun _ => above_lower

/-- Neither does a tree that may be absent. -/
@[simp]
theorem allAbove_lowerOptional {found : Option Tree} :
    context.AllAbove levels (context.lowerOptional found).value.toList :=
  allAbove_optional fun _ => above_lower

/-- A required field is lowered by the context, or lacking. -/
@[simp]
theorem above_required {field : String} :
    context.Above levels (context.required tree field).value := by
  unfold required
  split <;> simp

/-- An optional field is lowered by the context, or absent. -/
@[simp]
theorem allAbove_optionalField {field : String} :
    context.AllAbove levels (context.optional tree field).value.toList :=
  allAbove_lowerOptional

/-- The nodes of a field with many entries are lowered by the context. -/
@[simp]
theorem allAbove_many {field : String} :
    context.AllAbove levels (context.many tree field).value :=
  allAbove_lowerAll

/-- The named children are lowered by the context. -/
@[simp]
theorem allAbove_parts : context.AllAbove levels (context.parts tree).value :=
  allAbove_lowerAll

/-- So are the named children of the answer for a field. -/
@[simp]
theorem allAbove_partsWithin {field : String} :
    context.AllAbove levels (context.partsWithin tree field).value := by
  unfold partsWithin
  split <;> simp

/-- So is the first named child. -/
@[simp]
theorem allAbove_first : context.AllAbove levels (context.first tree).value.toList :=
  allAbove_lowerOptional

/-- So is the first named child of the answer for a field. -/
@[simp]
theorem allAbove_firstWithin {field : String} :
    context.AllAbove levels (context.firstWithin tree field).value.toList := by
  unfold firstWithin
  split <;> simp

/-- A required first child is lowered by the context, or unmodelled. -/
@[simp]
theorem above_firstRequired : context.Above levels (context.firstRequired tree).value := by
  unfold firstRequired
  split <;> simp

/-- A condition is lowered by the context, with or without its parentheses. -/
@[simp]
theorem above_condition {field : String} :
    context.Above levels (context.condition tree field).value := by
  unfold condition
  split
  · split <;> simp
  · simp

/-- A name is plain or lowered by the context. -/
@[simp]
theorem above_name : context.Above levels (context.name tree).value := by
  unfold name
  split <;> simp

/-- A required name is plain, lowered by the context, or lacking. -/
@[simp]
theorem above_nameField {field : String} :
    context.Above levels (context.nameField tree field).value := by
  unfold nameField
  split <;> simp

/-- An optional name is plain, lowered by the context, or absent. -/
@[simp]
theorem allAbove_optionalName {field : String} :
    context.AllAbove levels (context.optionalName tree field).value.toList :=
  allAbove_optional fun _ => above_name

/-- The decorators are lowered by the context. -/
@[simp]
theorem allAbove_decorators : context.AllAbove levels (context.decorators tree).value :=
  allAbove_lowerAll

/-- An annotation stands one level below the target that it is given to. -/
theorem above_annotated {type : Option Node} {isOptional : Bool} {target : Node}
    (above : context.Above (levels + 1) target) (typed : context.AllAbove levels type.toList) :
    context.Above (levels + 1) (annotated type isOptional target) := by
  fun_cases annotated type isOptional target
  case case5 => exact above
  all_goals simp_all

/-- Writing an annotation into a target puts one level on the annotation at most. -/
@[simp]
theorem above_binding {pattern : Tree} {type : Option Tree} {isOptional : Bool} :
    context.Above (levels + 1) (context.binding pattern type isOptional).value :=
  above_annotated above_lower allAbove_lowerOptional

/-! ## Dotted names -/

/-- A dotted name takes no level, however long it is. -/
@[simp]
theorem above_qualifiedName : context.Above levels (context.qualifiedName tree).value := by
  fun_induction Context.qualifiedName context tree with
  | case1 tree dotted left right sides ih =>
    exact (above_dotted_iff rfl).mpr (by simp [ih])
  | case2 tree dotted none => exact above_unmodelled
  | case3 tree plain => exact above_name

/-- The name of a markup element rises one level at most, if it has a namespace. -/
@[simp]
theorem above_markupName : context.Above (levels + 1) (context.markupName tree).value := by
  fun_induction Context.markupName context tree with
  | case1 tree dotted object property sides ihObject ihProperty =>
    exact (above_dotted_iff rfl).mpr (by simp [ihObject, ihProperty])
  | case2 tree dotted none => exact above_unmodelled
  | case3 tree plain spaced space name parts => simp
  | case4 tree plain spaced others => exact above_unmodelled
  | case5 tree plain unspaced => exact above_name

/-- A generic name is a dotted name or one that the context lowers. -/
@[simp]
theorem above_genericName : context.Above levels (context.genericName tree).value := by
  unfold genericName
  split <;> simp

/-- A named ancestor with its type arguments takes one level. -/
@[simp]
theorem above_heritageEntry :
    context.Above (levels + 1) (context.heritageEntry tree).value := by
  unfold heritageEntry
  split <;> simp

/-- All named ancestors take one level. -/
@[simp]
theorem allAbove_heritage : context.AllAbove (levels + 1) (context.heritage tree).value :=
  allAbove_all fun _ => above_heritageEntry

/-! ## Templates, functions and classes -/

/-- The segments of a template rise above nothing. -/
@[simp]
theorem allAbove_templateSegments {source kind : String} :
    context.AllAbove levels (templateSegments source kind tree) := by
  have segments : ∀ (parts : List Tree) (cursor stop : Nat),
      context.AllAbove levels (segments source cursor stop parts) := by
    intro parts
    induction parts with
    | nil => exact fun cursor stop => allAbove_cons.mpr ⟨above_leaf rfl, allAbove_nil⟩
    | cons part others ih => exact fun cursor stop => allAbove_cons.mpr ⟨above_leaf rfl, ih _ _⟩
  exact segments _ _ _

/-- What stands in the holes of a template is lowered by the context. -/
@[simp]
theorem allAbove_templateHoles {kind : String} :
    context.AllAbove levels (context.templateHoles kind tree).value :=
  allAbove_all fun _ => above_firstRequired

/-- A target without a default takes the level of its annotation at most. -/
@[simp]
theorem above_barePattern : context.Above (levels + 1) (context.barePattern tree).value := by
  simp [barePattern]

/-- The target of a parameter takes the level of its annotation at most. -/
@[simp]
theorem above_parameterTarget :
    context.Above (levels + 1) (context.parameterTarget tree).value := by
  unfold parameterTarget
  split <;> simp

/-- A default value puts one more level above the target and its annotation. -/
@[simp]
theorem above_parameterPattern :
    context.Above (levels + 2) (context.parameterPattern tree).value := by
  have target : ∀ more, context.Above (more + 1) (context.parameterTarget tree).value :=
    fun _ => above_parameterTarget
  unfold parameterPattern
  cases tree.child? "value" with
  | none => exact target (levels + 1)
  | some value =>
    change context.Above (levels + 2) (.mk _ .defaultPattern _)
    simp [target]

/-- A parameter takes three levels: its own, that of its default and that of the target. -/
@[simp]
theorem above_fullParameter : context.Above (levels + 3) (context.fullParameter tree).value := by
  simp only [fullParameter, Lowered.value_bind]
  split <;> simp

/-- Any parameter takes three levels at most. -/
@[simp]
theorem above_parameter : context.Above (levels + 3) (context.parameter tree).value := by
  unfold parameter
  split <;> simp

/-- All parameters take three levels at most. -/
@[simp]
theorem allAbove_parameters : context.AllAbove (levels + 3) (context.parameters tree).value :=
  allAbove_all fun _ => above_parameter

/-- So do the parameters of a signature. -/
@[simp]
theorem allAbove_signatureParameters :
    context.AllAbove (levels + 3) (context.signatureParameters tree).value := by
  unfold signatureParameters
  split <;> simp

/-- So do those of a function, also a single one without parentheses. -/
@[simp]
theorem allAbove_functionParameters :
    context.AllAbove (levels + 3) (context.functionParameters tree).value := by
  unfold functionParameters
  split <;> simp

/-- The parts of a function rise as far as its parameters do. -/
@[simp]
theorem allAbove_functionParts :
    context.AllAbove (levels + 3) (context.functionParts tree).value.slots.stored := by
  simp [functionParts, FunctionParts.slots]

/-- A static mark adds no level. -/
theorem above_markedStatic {isStatic : Bool} {node : Node}
    (above : context.Above (levels + 1) node) :
    context.Above (levels + 1) (markedStatic isStatic node) := by
  fun_cases markedStatic isStatic node
  · simp_all
  · exact above

/-- A method rises one level above its parameters and the decorators before it. -/
theorem above_method {leading : List Node} (above : context.AllAbove (levels + 3) leading) :
    context.Above (levels + 4) (context.method leading tree).value := by
  have parts : context.AllAbove (levels + 3) (context.functionParts tree).value.slots.stored :=
    allAbove_functionParts
  simp only [FunctionParts.slots, Slots.stored, allAbove_append] at parts
  simp only [method, Lowered.value_bind]
  split
  · simp [parts]
  · simp [parts, above]

/-- A field of a class takes one level. -/
theorem above_property {leading : List Node} (above : context.AllAbove levels leading) :
    context.Above (levels + 1) (context.property leading tree).value := by
  unfold property
  split <;> simp [above]

/-- A member of a class takes four levels at most, one more than the parameters of a method. -/
theorem above_member {leading : List Node} (above : context.AllAbove (levels + 3) leading) :
    context.Above (levels + 4) (context.member leading tree).value := by
  unfold member
  split
  · exact above_method above
  · exact above_method above
  · exact above_method above
  · exact above_property above
  · exact above_property above
  · exact above_markedStatic above_lower
  · exact above_lower

/-- The members of a class take the decorators before them along, which are lowered by
themselves. -/
theorem allAbove_members {trees : List Tree} {pending : List Node}
    (above : context.AllAbove (levels + 3) pending) :
    context.AllAbove (levels + 4) (context.members pending trees).value := by
  induction trees generalizing pending with
  | nil => exact allAbove_nil
  | cons tree others ih =>
    unfold members
    split
    · exact ih (by simp [above])
    · exact allAbove_cons.mpr ⟨above_member above, ih allAbove_nil⟩

/-- A clause about ancestors adds entries of one level. -/
theorem allAbove_clause {ancestry : Ancestry}
    (above : context.AllAbove (levels + 1) ancestry.nodes) :
    context.AllAbove (levels + 1) (context.clause ancestry tree).value.nodes := by
  simp only [Ancestry.nodes, allAbove_append] at above ⊢
  obtain ⟨⟨superclass, superArguments⟩, interfaces⟩ := above
  unfold clause
  split
  · split <;> simp [interfaces]
  · simp [superclass, superArguments]
  · split
    · simp [superclass, superArguments, interfaces]
    · simp [superArguments, interfaces]

/-- The ancestors of a class take one level. -/
theorem allAbove_ancestry :
    context.AllAbove (levels + 1) (context.ancestry tree).value.nodes := by
  have clauses : ∀ (trees : List Tree) (ancestry : Ancestry),
      context.AllAbove (levels + 1) ancestry.nodes →
        context.AllAbove (levels + 1) (context.clauses ancestry trees).value.nodes := by
    intro trees
    induction trees with
    | nil => exact fun _ above => above
    | cons tree others ih => exact fun _ above => ih _ (allAbove_clause above)
  unfold ancestry
  split
  · exact clauses _ _ allAbove_nil
  · exact allAbove_nil

/-- The members of a class take four levels at most. -/
@[simp]
theorem allAbove_classBody :
    context.AllAbove (levels + 4) (context.classBody tree).value := by
  unfold classBody
  split
  · exact allAbove_members allAbove_nil
  · exact allAbove_nil

/-- The parts of a class rise as far as its members do. -/
@[simp]
theorem allAbove_classParts :
    context.AllAbove (levels + 4) (context.classParts tree).value.slots.stored := by
  have ancestors : context.AllAbove (levels + 4) (context.ancestry tree).value.nodes :=
    allAbove_ancestry
  simp only [Ancestry.nodes, allAbove_append] at ancestors
  simp [classParts, ClassParts.slots, ancestors]

/-! ## Statements -/

/-- The other branch of a condition is lowered by the context. -/
@[simp]
theorem above_elseBranch : context.Above levels (context.elseBranch tree).value := by
  unfold elseBranch
  split <;> simp

/-- A part of a loop's head is lowered by the context, or absent. -/
@[simp]
theorem allAbove_loopPart {field : String} :
    context.AllAbove levels (context.loopPart tree field).value.toList := by
  unfold loopPart
  split
  · simp
  · split <;> simp

/-- The target of a loop takes three levels at most: a declaration, its declarator and the binding.
-/
@[simp]
theorem above_loopTarget : context.Above (levels + 3) (context.loopTarget tree).value := by
  unfold loopTarget
  split <;> simp

/-- A loop over values takes one level more than its target. -/
@[simp]
theorem above_loopOver : context.Above (levels + 4) (context.loopOver tree).value := by
  simp only [loopOver, Lowered.value_bind]
  split
  all_goals
    split <;> simp

/-- A member of an enumeration takes one level at most. -/
@[simp]
theorem above_enumMember : context.Above (levels + 1) (context.enumMember tree).value := by
  unfold enumMember
  split <;> simp

/-- The block of a module takes one level. -/
@[simp]
theorem above_moduleBlock : context.Above (levels + 1) (context.moduleBlock tree).value := by
  simp [moduleBlock]

/-- An ambient declaration takes two levels at most, those of a module and its block. -/
@[simp]
theorem above_ambient : context.Above (levels + 2) (context.ambient tree).value := by
  unfold ambient
  split
  · simp
  · split <;> simp

/-- An exported item takes one level at most. -/
@[simp]
theorem above_exportItem : context.Above (levels + 1) (context.exportItem tree).value := by
  have specifiers : ∀ trees : List Tree,
      context.AllAbove levels (Lowered.all (trees.map context.name)).value :=
    fun _ => allAbove_all fun _ => above_name
  unfold exportItem
  split
  · simp
  · simp
  · simp only [Lowered.value_bind]
    split <;> simp [specifiers]

/-! ## Types, expressions and markup -/

/-- A mapped type takes two levels, its own and that of the key. -/
@[simp]
theorem above_mappedType {clause : Tree} :
    context.Above (levels + 2) (context.mappedType clause tree).value := by
  simp [mappedType]

/-- The type of a key in an index signature takes one level, that of its annotation. -/
@[simp]
theorem allAbove_keyType :
    context.AllAbove (levels + 1) (context.keyType tree).value.toList :=
  allAbove_optional fun _ => by simp

/-- The key of a signature carries its type as an annotation of its own. -/
@[simp]
theorem above_signatureKey {name : Tree} :
    context.Above (levels + 2) (context.signatureKey tree name).value := by
  have key : ∀ more, context.Above more (context.name name).value := fun _ => above_name
  have typed : context.AllAbove (levels + 1) (context.keyType tree).value.toList :=
    allAbove_keyType
  simp only [signatureKey, Lowered.value_bind]
  split
  · have above := key (levels + 2)
    simp only [Lowered.value_bind, Lowered.value_pure]
    generalize (context.name name).value = node at above
    fun_cases withKeyType (context.keyType tree).value node
    · simp_all
    · exact above
  · exact key _

/-- An index signature takes three levels: its own, that of the key and that of the key's
annotation. -/
@[simp]
theorem above_keySignature :
    context.Above (levels + 3) (context.keySignature tree).value := by
  have keys : context.AllAbove (levels + 2)
      (Lowered.optional ((tree.child? "name").map (context.signatureKey tree))).value.toList :=
    allAbove_optional fun _ => above_signatureKey
  unfold keySignature
  split
  · simp
  · simp [keys]

/-- Marking a predicate as asserted leaves its levels as they are. -/
theorem above_markedAsserted {node : Node} (above : context.Above (levels + 1) node) :
    context.Above (levels + 1) (markedAsserted node) := by
  fun_cases markedAsserted node
  · simp_all
  · exact above

/-- An assertion takes one level. -/
@[simp]
theorem above_assertion : context.Above (levels + 1) (context.assertion tree).value := by
  unfold assertion
  split
  · simp
  · rename_i inner found
    split
    · intro bound positive lowered
      exact (above_markedAsserted above_lower bound positive lowered).withSpan tree.span
    · simp

/-- An access or a call rises one level more if it stops at a missing value. -/
@[simp]
theorem above_chained {node : Node} (above : context.Above (levels + 1) node) :
    context.Above (levels + 2) (chained tree node) := by
  unfold chained
  split
  · simp [above]
  · exact above.succ

/-- A call takes two levels at most, one of which stands for an optional chain. -/
@[simp]
theorem above_callOrTag : context.Above (levels + 2) (context.callOrTag tree).value := by
  simp only [callOrTag, Lowered.value_bind]
  split
  · split <;> simp
  · simp

/-- A method of an object takes one level more than its parameters. -/
@[simp]
theorem above_objectMethod : context.Above (levels + 4) (context.objectMethod tree).value := by
  have parts : context.AllAbove (levels + 3) (context.functionParts tree).value.slots.stored :=
    allAbove_functionParts
  simp only [FunctionParts.slots, Slots.stored, allAbove_append] at parts
  simp only [objectMethod, Lowered.value_bind]
  split
  · simp
  · simp
  · simp [parts]

/-- A member of an object takes as many levels as a method. -/
@[simp]
theorem above_objectMember : context.Above (levels + 4) (context.objectMember tree).value := by
  unfold objectMember
  split <;> simp

/-- A member of an object pattern takes one level. -/
@[simp]
theorem above_patternMember :
    context.Above (levels + 1) (context.patternMember tree).value := by
  unfold patternMember
  split <;> simp

/-- An opening tag takes two levels, its own and that of a name with a namespace. -/
@[simp]
theorem above_openingTag {selfClosing : Bool} :
    context.Above (levels + 2) (context.openingTag selfClosing tree).value := by
  unfold openingTag
  cases tree.child? "name" <;> simp

/-- An element takes one level more than its opening tag. -/
@[simp]
theorem above_element : context.Above (levels + 3) (context.element tree).value := by
  unfold element
  dsimp only
  split
  · simp only [Lowered.value_bind]
    split <;> simp
  · simp

end Context

end CodeClones.Lowering
