import CodeClones.Lowering.Names
import CodeClones.Proofs.Children
import CodeClones.Proofs.Concrete.Ranges

/-!
# Where lowered nodes stand

Most nodes stand at the place of a tree, but lowering also makes ranges of its own. `Enclosed`
says what all of them have in common when they come out of trees inside a range: the node and
all nodes below it lie in the range, none ends before it begins, and all but the segments of
templates begin and end between two characters. `Anchored` adds that the node itself begins and
ends between two characters, whatever it is. A context is sound if it lowers well-formed trees
to nodes that are anchored in the range of the tree; what is put together in a sound context is
anchored again.
-/

namespace CodeClones.Lowering

open Syntax Concrete

/-! ## Results without their mark -/

namespace Lowered

/-- A result by itself is the value. -/
@[simp]
theorem value_pure {α : Type} (result : α) : (pure result : Lowered α).value = result :=
  rfl

/-- The value of a first step goes into the next one. -/
@[simp]
theorem value_bind {α β : Type} (first : Lowered α) (next : α → Lowered β) :
    (first >>= next).value = (next first.value).value :=
  rfl

/-- A function of a result is applied to the value. -/
@[simp]
theorem value_map {α β : Type} (function : α → β) (result : Lowered α) :
    (function <$> result).value = function result.value :=
  rfl

/-- The value of an optional result is that of the result, if there is one. -/
theorem value_optional {α : Type} (result : Option (Lowered α)) :
    (optional result).value = result.map (·.value) := by
  cases result <;> rfl

end Lowered

/-! ## Nodes enclosed by a range -/

attribute [simp] Slots.stored

/-- The span is a piece of the source that lies in a range. -/
structure Piece (source : String) (range span : Span) : Prop where
  /-- The span begins no earlier than the range. -/
  start_le : range.start ≤ span.start
  /-- The span does not end before it begins. -/
  ordered : span.start ≤ span.stop
  /-- The span ends no later than the range. -/
  stop_le : span.stop ≤ range.stop
  /-- The span begins between two characters. -/
  start_boundary : Text.isBoundary source span.start = true
  /-- The span ends between two characters. -/
  stop_boundary : Text.isBoundary source span.stop = true

/-- The node lies in a range and does not end before it begins; unless it is a segment of a
template, it is a piece of the source. -/
structure Placed (source : String) (range : Span) (node : Node) : Prop where
  /-- The node begins no earlier than the range. -/
  start_le : range.start ≤ node.span.start
  /-- The node does not end before it begins. -/
  ordered : node.span.start ≤ node.span.stop
  /-- The node ends no later than the range. -/
  stop_le : node.span.stop ≤ range.stop
  /-- A node with a tree of its own is a piece of the source. -/
  piece : node.kind ≠ .templateSegment → Piece source range node.span

/-- The node and all nodes below it are placed in a range. -/
def Enclosed (source : String) (range : Span) (node : Node) : Prop :=
  ∀ below ∈ node.preorder, Placed source range below

/-- All nodes of a list are enclosed by a range. -/
def AllEnclosed (source : String) (range : Span) (nodes : List Node) : Prop :=
  ∀ node ∈ nodes, Enclosed source range node

/-- The node is a piece of the source whatever its kind is, and the nodes in its fields are
enclosed. -/
structure Anchored (source : String) (range : Span) (node : Node) : Prop where
  /-- The node is a piece of the source in the range. -/
  piece : Piece source range node.span
  /-- The nodes stored in its fields are enclosed by the range. -/
  stored : AllEnclosed source range node.stored

variable {source : String} {range : Span} {node : Node} {tree : Tree}

/-- A node is enclosed exactly if it is placed and the nodes stored in its fields are
enclosed. -/
theorem enclosed_iff :
    Enclosed source range node ↔
      Placed source range node ∧ AllEnclosed source range node.stored := by
  have below : (∀ below ∈ node.children.flatMap Node.preorder, Placed source range below) ↔
      AllEnclosed source range node.stored := by
    simp only [List.mem_flatMap, Node.mem_children, AllEnclosed, Enclosed]
    constructor
    · exact fun all child member below held => all below ⟨child, member, held⟩
    · exact fun all below ⟨child, member, held⟩ => all child member below held
  rw [← below, Enclosed, Node.preorder_eq, List.forall_mem_cons]

/-- No nodes are enclosed by every range. -/
@[simp]
theorem allEnclosed_nil : AllEnclosed source range [] := by
  simp [AllEnclosed]

/-- Nodes are enclosed exactly if the first one is and the others are. -/
@[simp]
theorem allEnclosed_cons {nodes : List Node} :
    AllEnclosed source range (node :: nodes) ↔
      Enclosed source range node ∧ AllEnclosed source range nodes := by
  simp [AllEnclosed]

/-- Nodes are enclosed exactly if those in front are and those behind. -/
@[simp]
theorem allEnclosed_append {front back : List Node} :
    AllEnclosed source range (front ++ back) ↔
      AllEnclosed source range front ∧ AllEnclosed source range back := by
  simp only [AllEnclosed, List.mem_append, or_imp, forall_and]

/-- Of enclosed nodes the first one is enclosed. -/
@[simp]
theorem allEnclosed_head? {nodes : List Node} (enclosed : AllEnclosed source range nodes) :
    AllEnclosed source range nodes.head?.toList := by
  intro node member
  exact enclosed node (List.mem_of_head? (Option.mem_toList.mp member))

/-- A wider range encloses what a range encloses. -/
theorem AllEnclosed.mono {wider : Span} {nodes : List Node}
    (enclosed : AllEnclosed source range nodes) (start_le : wider.start ≤ range.start)
    (stop_le : range.stop ≤ wider.stop) : AllEnclosed source wider nodes := by
  intro node member below held
  obtain ⟨start, ordered, stop, piece⟩ := enclosed node member below held
  refine ⟨by omega, ordered, by omega, fun isTree => ?_⟩
  have := piece isTree
  exact ⟨by omega, ordered, by omega, this.start_boundary, this.stop_boundary⟩

/-! ## Anchored nodes -/

/-- An anchored node is enclosed. -/
@[simp]
theorem Anchored.enclosed (anchored : Anchored source range node) :
    Enclosed source range node := by
  obtain ⟨piece, stored⟩ := anchored
  exact enclosed_iff.mpr ⟨⟨piece.start_le, piece.ordered, piece.stop_le, fun _ => piece⟩, stored⟩

/-- A node is anchored in a wider range than one it is anchored in. -/
theorem Anchored.mono {wider : Span} (anchored : Anchored source range node)
    (start_le : wider.start ≤ range.start) (stop_le : range.stop ≤ wider.stop) :
    Anchored source wider node := by
  obtain ⟨⟨start, ordered, stop, first, last⟩, stored⟩ := anchored
  exact ⟨⟨by omega, ordered, by omega, first, last⟩, stored.mono start_le stop_le⟩

/-- A node is anchored exactly if its span is a piece of the source and the nodes stored in its
fields are enclosed. -/
@[simp]
theorem anchored_mk_iff {span : Span} {kind : Kind} {slots : Slots kind.layout} :
    Anchored source range (.mk span kind slots) ↔
      Piece source range span ∧ AllEnclosed source range slots.stored :=
  ⟨fun ⟨piece, stored⟩ => ⟨piece, stored⟩, fun ⟨piece, stored⟩ => ⟨piece, stored⟩⟩

/-- A tree inside a range covers a piece of the source. -/
@[simp]
theorem piece_span (inside : tree.Inside source range) : Piece source range tree.span :=
  ⟨inside.start_le, inside.lawful.ordered, inside.stop_le, inside.lawful.start_boundary,
    inside.lawful.stop_boundary⟩

/-- What reaches from the start of one piece to the end of another is a piece, unless it ends
before it begins. -/
theorem Piece.through {first last : Span} (front : Piece source range first)
    (back : Piece source range last) (ordered : first.start ≤ last.stop) :
    Piece source range ⟨first.start, last.stop⟩ :=
  ⟨front.start_le, ordered, back.stop_le, front.start_boundary, back.stop_boundary⟩

/-- A node at the place of a tree is anchored exactly if the nodes stored in its fields are
enclosed. -/
@[simp]
theorem anchored_place_iff (inside : tree.Inside source range) {kind : Kind}
    {slots : Slots kind.layout} :
    Anchored source range (place tree kind slots) ↔ AllEnclosed source range slots.stored := by
  simp [place, inside]

/-- A node at the place of a tree is enclosed exactly if the nodes stored in its fields are. -/
@[simp]
theorem enclosed_place_iff (inside : tree.Inside source range) {kind : Kind}
    {slots : Slots kind.layout} :
    Enclosed source range (place tree kind slots) ↔ AllEnclosed source range slots.stored :=
  ⟨fun enclosed => (enclosed_iff.mp enclosed).2,
    fun stored => ((anchored_place_iff inside).mpr stored).enclosed⟩

/-- The node for a construct without a rule is anchored. -/
@[simp]
theorem anchored_unmodelled (inside : tree.Inside source range) :
    Anchored source range (unmodelled tree) := by
  simp [unmodelled, unmodelledAs, inside]

/-- The node for a field that the construct lacks is anchored. -/
@[simp]
theorem anchored_lacking (inside : tree.Inside source range) (field : String) :
    Anchored source range (lacking tree field) := by
  simp [lacking, unmodelledAs, inside]

/-- A name without annotation is anchored. -/
@[simp]
theorem anchored_plainIdentifier (inside : tree.Inside source range) (name : String) :
    Anchored source range (plainIdentifier tree name) := by
  simp [plainIdentifier, inside]

/-- What a list of trees is lowered to is enclosed if each of the trees is lowered to an
anchored node. -/
@[simp]
theorem allEnclosed_all_map {trees : List Tree} {lowering : Tree → Lowered Node}
    (inside : Tree.AllInside source range trees)
    (each : ∀ tree, tree.Inside source range → Anchored source range (lowering tree).value) :
    AllEnclosed source range (Lowered.all (trees.map lowering)).value := by
  intro node member
  simp only [Lowered.all, List.map_map, List.mem_map, Function.comp_apply] at member
  obtain ⟨tree, member, rfl⟩ := member
  exact (each tree (inside tree member)).enclosed

/-- What an optional tree is lowered to is enclosed if the tree is lowered to an anchored
node. -/
@[simp]
theorem allEnclosed_optional_map {found : Option Tree} {lowering : Tree → Lowered Node}
    (inside : Tree.AllInside source range found.toList)
    (each : ∀ tree, tree.Inside source range → Anchored source range (lowering tree).value) :
    AllEnclosed source range (Lowered.optional (found.map lowering)).value.toList := by
  intro node member
  simp only [Lowered.value_optional, Option.map_map, Option.mem_toList, Option.map_eq_some_iff,
    Function.comp_apply] at member
  obtain ⟨tree, found, rfl⟩ := member
  exact (each tree (inside tree (Option.mem_toList.mpr found))).enclosed

/-- A node stays anchored when it is given an annotation that is enclosed. -/
@[simp]
theorem anchored_annotated {type : Option Node} {optional : Bool}
    (anchored : Anchored source range node) (typed : AllEnclosed source range type.toList) :
    Anchored source range (annotated type optional node) := by
  fun_cases annotated type optional node
  -- A node that binds nothing stays as it is; of the others only the annotation is new.
  case case5 => exact anchored
  all_goals simp_all

/-- An annotation leaves a node where it is. -/
theorem span_annotated (type : Option Node) (optional : Bool) (node : Node) :
    (annotated type optional node).span = node.span := by
  fun_cases annotated type optional node
  all_goals rfl

/-! ## What a sound context puts together -/

/-- The context lowers well-formed trees to nodes that are anchored in the range of the tree. -/
def Context.Sound (context : Context) : Prop :=
  ∀ tree : Tree, tree.WellFormed context.source →
    Anchored context.source tree.span (context.lower tree).value

namespace Context.Sound

variable {context : Context}

/-- A tree inside a range is lowered to a node that is anchored in it. -/
@[simp]
theorem lower (sound : context.Sound) (inside : tree.Inside context.source range) :
    Anchored context.source range (context.lower tree).value :=
  (sound tree inside.wellFormed).mono inside.start_le inside.stop_le

/-- Trees inside a range are lowered to nodes that are enclosed by it. -/
@[simp]
theorem lowerAll (sound : context.Sound) {trees : List Tree}
    (inside : Tree.AllInside context.source range trees) :
    AllEnclosed context.source range (context.lowerAll trees).value :=
  allEnclosed_all_map inside fun _ => sound.lower

/-- An optional tree inside a range is lowered to a node that is enclosed by it. -/
@[simp]
theorem lowerOptional (sound : context.Sound) {found : Option Tree}
    (inside : Tree.AllInside context.source range found.toList) :
    AllEnclosed context.source range (context.lowerOptional found).value.toList :=
  allEnclosed_optional_map inside fun _ => sound.lower

/-- A field that must be there is anchored. -/
@[simp]
theorem required (sound : context.Sound) (inside : tree.Inside context.source range)
    (field : String) : Anchored context.source range (context.required tree field).value := by
  unfold Context.required
  cases found : tree.child? field with
  | none => simp [inside]
  | some child => simp [sound, inside.of_child? found]

/-- A field that may be absent is enclosed. -/
@[simp]
theorem optional (sound : context.Sound) (inside : tree.Inside context.source range)
    (field : String) :
    AllEnclosed context.source range (context.optional tree field).value.toList := by
  refine sound.lowerOptional fun child member => ?_
  rw [Option.mem_toList, Option.filter_eq_some_iff] at member
  exact inside.of_child? member.1

/-- The named children that fill a field are enclosed. -/
@[simp]
theorem many (sound : context.Sound) (inside : tree.Inside context.source range)
    (field : String) : AllEnclosed context.source range (context.many tree field).value :=
  sound.lowerAll (inside.allInside_partsOf field)

/-- The named children are enclosed. -/
@[simp]
theorem parts (sound : context.Sound) (inside : tree.Inside context.source range) :
    AllEnclosed context.source range (context.parts tree).value :=
  sound.lowerAll inside.allInside_parts

/-- The named children of the node that answers for a field are enclosed. -/
@[simp]
theorem partsWithin (sound : context.Sound) (inside : tree.Inside context.source range)
    (field : String) :
    AllEnclosed context.source range (context.partsWithin tree field).value := by
  unfold Context.partsWithin
  cases found : tree.child? field with
  | none => simp
  | some child => simp [sound, inside.of_child? found]

/-- The first named child is enclosed. -/
@[simp]
theorem first (sound : context.Sound) (inside : tree.Inside context.source range) :
    AllEnclosed context.source range (context.first tree).value.toList :=
  sound.lowerOptional inside.allInside_firstPart?

/-- The first named child of the node that answers for a field is enclosed. -/
@[simp]
theorem firstWithin (sound : context.Sound) (inside : tree.Inside context.source range)
    (field : String) :
    AllEnclosed context.source range (context.firstWithin tree field).value.toList := by
  unfold Context.firstWithin
  cases found : tree.child? field with
  | none => simp
  | some child => simp [sound, inside.of_child? found]

/-- The first named child, or what stands for it, is anchored. -/
@[simp]
theorem firstRequired (sound : context.Sound) (inside : tree.Inside context.source range) :
    Anchored context.source range (context.firstRequired tree).value := by
  unfold Context.firstRequired
  cases found : tree.firstPart? with
  | none => simp [inside]
  | some child => simp [sound, inside.of_firstPart? found]

/-- A condition without the parentheses around it is anchored. -/
@[simp]
theorem condition (sound : context.Sound) (inside : tree.Inside context.source range)
    (field : String) : Anchored context.source range (context.condition tree field).value := by
  unfold Context.condition
  cases found : tree.child? field with
  | none => simp [inside]
  | some child =>
    have insideChild := inside.of_child? found
    by_cases parenthesized : child.kind = "parenthesized_expression"
    · simp [sound, insideChild, parenthesized]
    · simp [sound, insideChild, parenthesized]

/-- A tree in the place of a name is anchored. -/
@[simp]
theorem name (sound : context.Sound) (inside : tree.Inside context.source range) :
    Anchored context.source range (context.name tree).value := by
  unfold Context.name
  split
  · simp [inside]
  · simp [sound, inside]

/-- A field that holds a name is anchored. -/
@[simp]
theorem nameField (sound : context.Sound) (inside : tree.Inside context.source range)
    (field : String) : Anchored context.source range (context.nameField tree field).value := by
  unfold Context.nameField
  cases found : tree.child? field with
  | none => simp [inside]
  | some child => simp [sound, inside.of_child? found]

/-- A field that holds a name and may be absent is enclosed. -/
@[simp]
theorem optionalName (sound : context.Sound) (inside : tree.Inside context.source range)
    (field : String) :
    AllEnclosed context.source range (context.optionalName tree field).value.toList :=
  allEnclosed_optional_map (inside.allInside_child? field) fun _ => sound.name

/-- The decorators among the named children are enclosed. -/
@[simp]
theorem decorators (sound : context.Sound) (inside : tree.Inside context.source range) :
    AllEnclosed context.source range (context.decorators tree).value :=
  sound.lowerAll (inside.allInside_filter_parts _)

/-- A binding target with an annotation from a field is anchored. -/
@[simp]
theorem binding (sound : context.Sound) (inside : tree.Inside context.source range)
    {pattern : Tree} (insidePattern : pattern.Inside context.source range) (field : String)
    (optional : Bool) :
    Anchored context.source range (context.binding pattern (tree.child? field) optional).value :=
  anchored_annotated (sound.lower insidePattern)
    (sound.lowerOptional (inside.allInside_child? field))

/-- A binding target without an annotation is anchored. -/
@[simp]
theorem binding_none (sound : context.Sound) (inside : tree.Inside context.source range)
    (optional : Bool) : Anchored context.source range (context.binding tree none optional).value :=
  anchored_annotated (sound.lower inside) allEnclosed_nil

/-! ## Dotted names -/

/-- A dotted name of a type is anchored: both sides are, and it stands at its own place. -/
@[simp]
theorem qualifiedName (sound : context.Sound) (inside : tree.Inside context.source range) :
    Anchored context.source range (context.qualifiedName tree).value := by
  fun_induction Context.qualifiedName context tree with
  | case1 tree dotted left right sides ih =>
    obtain ⟨insideLeft, insideRight⟩ := inside.of_sides? sides
    simp [sound, inside, insideRight, ih insideLeft]
  | case2 tree dotted none => simp [inside]
  | case3 tree plain => exact sound.name inside

/-- The name of a markup element is anchored. -/
@[simp]
theorem markupName (sound : context.Sound) (inside : tree.Inside context.source range) :
    Anchored context.source range (context.markupName tree).value := by
  fun_induction Context.markupName context tree with
  | case1 tree dotted object property sides ihObject ihProperty =>
    obtain ⟨insideObject, insideProperty⟩ := inside.of_sides? sides
    simp [inside, ihObject insideObject, ihProperty insideProperty]
  | case2 tree dotted none => simp [inside]
  | case3 tree plain spaced space name parts =>
    have insideParts := inside.allInside_parts
    rw [parts] at insideParts
    simp only [Tree.allInside_cons] at insideParts
    simp [sound, inside, insideParts]
  | case4 tree plain spaced others => simp [inside]
  | case5 tree plain unspaced => exact sound.name inside

/-- The name of a type that has type arguments is anchored. -/
@[simp]
theorem genericName (sound : context.Sound) (inside : tree.Inside context.source range) :
    Anchored context.source range (context.genericName tree).value := by
  unfold Context.genericName
  cases found : tree.child? "name" with
  | none => simp [inside]
  | some child => simp [sound, inside.of_child? found]

/-- An entry of a list of superclasses or interfaces is anchored. -/
@[simp]
theorem heritageEntry (sound : context.Sound) (inside : tree.Inside context.source range) :
    Anchored context.source range (context.heritageEntry tree).value := by
  unfold Context.heritageEntry
  split
  · simp [sound, inside]
  · simp [sound, inside]

/-- The entries of a list of superclasses or interfaces are enclosed. -/
@[simp]
theorem heritage (sound : context.Sound) (inside : tree.Inside context.source range) :
    AllEnclosed context.source range (context.heritage tree).value :=
  allEnclosed_all_map inside.allInside_parts fun _ => sound.heritageEntry

end Context.Sound

end CodeClones.Lowering
