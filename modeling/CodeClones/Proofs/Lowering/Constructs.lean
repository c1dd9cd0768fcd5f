import CodeClones.Lowering.Classes
import CodeClones.Proofs.Lowering.Placement

/-!
# Where the parts of templates, functions and classes stand

The constructs whose nodes do not simply stand at the place of a tree. A template is cut into
segments that have no tree, a parameter with a default value reaches from its pattern to the
value, and a member of a class takes the decorators before it along.
-/

namespace CodeClones.Lowering

open Syntax Concrete

variable {source : String} {range : Span} {tree : Tree} {context : Context}

/-! ## Templates -/

/-- A segment of a template is enclosed if both its ends lie in the range. -/
theorem enclosed_segment {start stop : Nat} {tail : Bool} (start_le : range.start ≤ start)
    (le_stop : start ≤ range.stop) (stop_le : stop ≤ range.stop) :
    Enclosed source range (segment source start stop tail) :=
  enclosed_iff.mpr ⟨⟨start_le, Nat.le_max_right _ _, Nat.max_le.mpr ⟨stop_le, le_stop⟩,
    fun isTree => absurd rfl isTree⟩, allEnclosed_nil⟩

/-- The segments between substitutions are enclosed: the cursor moves from the end of one
substitution to the end of the next, and both lie in the range. -/
theorem allEnclosed_segments {cursor stop : Nat} {parts : List Tree}
    (start_le : range.start ≤ cursor) (le_stop : cursor ≤ range.stop)
    (stop_le : stop ≤ range.stop) (inside : Tree.AllInside source range parts) :
    AllEnclosed source range (segments source cursor stop parts) := by
  induction parts generalizing cursor with
  | nil =>
    rw [segments, allEnclosed_cons]
    exact ⟨enclosed_segment start_le le_stop stop_le, allEnclosed_nil⟩
  | cons part others ih =>
    obtain ⟨insidePart, insideOthers⟩ := Tree.allInside_cons.mp inside
    have ordered := insidePart.lawful.ordered
    have below := insidePart.start_le
    have above := insidePart.stop_le
    rw [segments, allEnclosed_cons]
    exact ⟨enclosed_segment start_le le_stop (by omega),
      ih (by omega) above insideOthers⟩

/-- The segments of a template are enclosed. -/
@[simp]
theorem allEnclosed_templateSegments (inside : tree.Inside source range) {kind : String}
    (template : tree.kind = "template_string" ∨ tree.kind = "template_literal_type") :
    AllEnclosed source range (templateSegments source kind tree) := by
  have delimited := inside.lawful.delimited template
  have below := inside.start_le
  have above := inside.stop_le
  exact allEnclosed_segments (by omega) (by omega) (by omega)
    (inside.allInside_substitutions kind)

/-- What the substitutions of a template hold is enclosed. -/
@[simp]
theorem Context.Sound.templateHoles (sound : context.Sound)
    (inside : tree.Inside context.source range) (kind : String) :
    AllEnclosed context.source range (context.templateHoles kind tree).value :=
  allEnclosed_all_map (inside.allInside_substitutions kind) fun _ => sound.firstRequired

/-! ## Functions and their parameters -/

/-- A pattern with a default value reaches to the end of the value, which must not begin before
the pattern. -/
theorem anchored_withDefault {pattern default : Node} {value : Tree}
    (anchored : Anchored source range pattern) (inside : value.Inside source range)
    (enclosed : Enclosed source range default) (before : pattern.span.start ≤ value.start) :
    Anchored source range (withDefault (some (value, default)) pattern) := by
  have ordered : pattern.span.start ≤ value.stop := Nat.le_trans before inside.lawful.ordered
  have piece := anchored.piece.through (piece_span inside) ordered
  refine anchored_mk_iff.mpr ⟨piece, ?_⟩
  simp [anchored, enclosed]

namespace Context.Sound

/-- A parameter that is nothing but a pattern is anchored. -/
@[simp]
theorem barePattern (sound : context.Sound) (inside : tree.Inside context.source range) :
    Anchored context.source range (context.barePattern tree).value := by
  simp [Context.barePattern, sound, inside]

/-- What a parameter binds is anchored. -/
@[simp]
theorem parameterTarget (sound : context.Sound) (inside : tree.Inside context.source range) :
    Anchored context.source range (context.parameterTarget tree).value := by
  unfold Context.parameterTarget
  cases found : tree.child? "pattern" with
  | none => simp [inside]
  | some pattern => simp [sound, inside, inside.of_child? found]

/-- What a parameter binds begins no later than its default value: it begins in the pattern,
which stands before the value, or stands for the whole parameter. -/
theorem parameterTarget_before (sound : context.Sound) (formed : tree.WellFormed context.source)
    (parameter : tree.kind = "required_parameter" ∨ tree.kind = "optional_parameter")
    {value : Tree} (answer : tree.child? "value" = some value) :
    (context.parameterTarget tree).value.span.start ≤ value.start := by
  have inside := formed.inside
  unfold Context.parameterTarget
  cases found : tree.child? "pattern" with
  | none => exact (inside.of_child? answer).start_le
  | some pattern =>
    have before := inside.lawful.pattern_before parameter pattern found value answer
    have piece := (sound pattern (inside.of_child? found).wellFormed).piece
    show (annotated _ _ (context.lower pattern).value).span.start ≤ value.start
    rw [span_annotated]
    exact Nat.le_trans piece.ordered (Nat.le_trans piece.stop_le before)

/-- What a parameter binds is anchored together with its default value. -/
@[simp]
theorem parameterPattern (sound : context.Sound) (inside : tree.Inside context.source range)
    (parameter : tree.kind = "required_parameter" ∨ tree.kind = "optional_parameter") :
    Anchored context.source range (context.parameterPattern tree).value := by
  have target := sound.parameterTarget inside
  unfold Context.parameterPattern
  cases answer : tree.child? "value" with
  | none => exact target
  | some value =>
    have insideValue := inside.of_child? answer
    exact anchored_withDefault target insideValue (sound.lower insideValue).enclosed
      (sound.parameterTarget_before inside.wellFormed parameter answer)

/-- A parameter with its decorators, modifiers, type and default value is anchored. -/
@[simp]
theorem fullParameter (sound : context.Sound) (inside : tree.Inside context.source range)
    (parameter : tree.kind = "required_parameter" ∨ tree.kind = "optional_parameter") :
    Anchored context.source range (context.fullParameter tree).value := by
  simp only [Context.fullParameter, Lowered.value_bind]
  split
  · simp [sound, inside, parameter]
  · simp [sound, inside, parameter]

/-- A member of a list of parameters is anchored. -/
@[simp]
theorem parameter (sound : context.Sound) (inside : tree.Inside context.source range) :
    Anchored context.source range (context.parameter tree).value := by
  unfold Context.parameter
  split
  · rename_i parameter
    exact sound.fullParameter inside parameter
  · exact sound.barePattern inside

/-- A list of parameters is enclosed. -/
@[simp]
theorem parameters (sound : context.Sound) (inside : tree.Inside context.source range) :
    AllEnclosed context.source range (context.parameters tree).value :=
  allEnclosed_all_map inside.allInside_parts fun _ => sound.parameter

/-- The parameters of a signature are enclosed. -/
@[simp]
theorem signatureParameters (sound : context.Sound)
    (inside : tree.Inside context.source range) :
    AllEnclosed context.source range (context.signatureParameters tree).value := by
  unfold Context.signatureParameters
  cases found : tree.child? "parameters" with
  | none => simp
  | some list => simp [sound, inside.of_child? found]

/-- The parameters of a function are enclosed. -/
@[simp]
theorem functionParameters (sound : context.Sound) (inside : tree.Inside context.source range) :
    AllEnclosed context.source range (context.functionParameters tree).value := by
  unfold Context.functionParameters
  cases found : tree.child? "parameters" with
  | some list => simp [sound, inside.of_child? found]
  | none =>
    cases found : tree.child? "parameter" with
    | none => simp
    | some single => simp [sound, inside.of_child? found]

/-- The parts of a function are enclosed. -/
@[simp]
theorem functionParts (sound : context.Sound) (inside : tree.Inside context.source range) :
    AllEnclosed context.source range (context.functionParts tree).value.slots.stored := by
  simp [Context.functionParts, FunctionParts.slots, sound, inside]

end Context.Sound

/-! ## Classes -/

/-- A static mark leaves a node anchored. -/
@[simp]
theorem anchored_markedStatic {isStatic : Bool} {node : Node}
    (anchored : Anchored source range node) :
    Anchored source range (markedStatic isStatic node) := by
  fun_cases markedStatic isStatic node
  all_goals simp_all

/-- The nodes of the ancestors of a class. -/
def Ancestry.nodes (ancestry : Ancestry) : List Node :=
  ancestry.superclass.toList ++ ancestry.superArguments.toList ++ ancestry.interfaces

namespace Context.Sound

/-- A method with the decorators before it is anchored. -/
@[simp]
theorem method (sound : context.Sound) (inside : tree.Inside context.source range)
    {leading : List Node} (enclosed : AllEnclosed context.source range leading) :
    Anchored context.source range (context.method leading tree).value := by
  have parts := sound.functionParts inside
  simp only [FunctionParts.slots, Slots.stored, allEnclosed_append] at parts
  simp only [Context.method, Lowered.value_bind]
  split
  · simp [sound, inside, parts]
  · simp [sound, inside, enclosed, parts]

/-- A field of a class with the decorators before it is anchored. -/
@[simp]
theorem property (sound : context.Sound) (inside : tree.Inside context.source range)
    {leading : List Node} (enclosed : AllEnclosed context.source range leading) :
    Anchored context.source range (context.property leading tree).value := by
  unfold Context.property
  cases found : (tree.child? "name").or (tree.child? "property") with
  | none => simp [sound, inside, enclosed]
  | some key =>
    have insideKey : key.Inside context.source range :=
      (Option.or_eq_some_iff.mp found).elim inside.of_child? fun found => inside.of_child? found.2
    simp [sound, inside, insideKey, enclosed]

/-- A member of a class with the decorators before it is anchored. -/
@[simp]
theorem member (sound : context.Sound) (inside : tree.Inside context.source range)
    {leading : List Node} (enclosed : AllEnclosed context.source range leading) :
    Anchored context.source range (context.member leading tree).value := by
  unfold Context.member
  split
  all_goals simp [sound, inside, enclosed]

/-- The members of a class are enclosed, each with the decorators since the member before. -/
@[simp]
theorem members (sound : context.Sound) {trees : List Tree}
    (inside : Tree.AllInside context.source range trees) {pending : List Node}
    (enclosed : AllEnclosed context.source range pending) :
    AllEnclosed context.source range (context.members pending trees).value := by
  induction trees generalizing pending with
  | nil => simp [Context.members]
  | cons tree others ih =>
    obtain ⟨insideTree, insideOthers⟩ := Tree.allInside_cons.mp inside
    unfold Context.members
    split
    · exact ih insideOthers (by simp [sound, insideTree, enclosed])
    · simp [sound, insideTree, enclosed, ih insideOthers]

/-- What is known about the ancestors stays enclosed when a clause is taken into account. -/
theorem clause (sound : context.Sound) (inside : tree.Inside context.source range)
    {ancestry : Ancestry} (enclosed : AllEnclosed context.source range ancestry.nodes) :
    AllEnclosed context.source range (context.clause ancestry tree).value.nodes := by
  simp only [Ancestry.nodes, allEnclosed_append] at enclosed ⊢
  obtain ⟨⟨superclass, superArguments⟩, interfaces⟩ := enclosed
  unfold Context.clause
  split
  · cases found : tree.child? "value" with
    | none => simp [sound, inside, interfaces]
    | some value => simp [sound, inside, inside.of_child? found, interfaces]
  · simp [sound, inside, superclass, superArguments]
  · split
    · simp [superclass, superArguments, interfaces]
    · simp [sound, inside, superArguments, interfaces]

/-- What the clauses of a class say about its ancestors is enclosed. -/
theorem clauses (sound : context.Sound) {trees : List Tree}
    (inside : Tree.AllInside context.source range trees) {ancestry : Ancestry}
    (enclosed : AllEnclosed context.source range ancestry.nodes) :
    AllEnclosed context.source range (context.clauses ancestry trees).value.nodes := by
  induction trees generalizing ancestry with
  | nil => exact enclosed
  | cons tree others ih =>
    obtain ⟨insideTree, insideOthers⟩ := Tree.allInside_cons.mp inside
    exact ih insideOthers (sound.clause insideTree enclosed)

/-- The ancestors of a class are enclosed. -/
theorem ancestry (sound : context.Sound) (inside : tree.Inside context.source range) :
    AllEnclosed context.source range (context.ancestry tree).value.nodes := by
  unfold Context.ancestry
  cases found : tree.partOfKind? "class_heritage" with
  | none => simp [Ancestry.nodes]
  | some heritage =>
    exact sound.clauses (inside.of_partOfKind? found).allInside_parts (by simp [Ancestry.nodes])

/-- The members of a class are enclosed. -/
@[simp]
theorem classBody (sound : context.Sound) (inside : tree.Inside context.source range) :
    AllEnclosed context.source range (context.classBody tree).value := by
  unfold Context.classBody
  cases found : tree.child? "body" with
  | none => simp
  | some body => simp [sound, inside.of_child? found]

/-- The parts of a class are enclosed. -/
@[simp]
theorem classParts (sound : context.Sound) (inside : tree.Inside context.source range) :
    AllEnclosed context.source range (context.classParts tree).value.slots.stored := by
  have ancestors := sound.ancestry inside
  simp only [Ancestry.nodes, allEnclosed_append] at ancestors
  simp [Context.classParts, ClassParts.slots, sound, inside, ancestors]

end Context.Sound

end CodeClones.Lowering
