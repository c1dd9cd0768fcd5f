import CodeClones.Proofs.Concrete.Arrangement
import CodeClones.Proofs.Lowering.Placement

/-!
# Where statements begin

The offsets at which the statements at and below a node begin, in the order in which they are
written: a node comes before its children, and the two children of a `do` loop or of a cast in
front of an expression, which a walk visits in the other order, are turned around. Nodes trace
trees if their offsets can be cut into one run for each tree, so that each run ascends and lies in
the range of its tree. When the trees stand in order, all offsets together ascend. A context is
orderly if it lowers every arranged tree to a node that traces it; what an orderly context puts
together traces the trees that it was made of.
-/

namespace CodeClones.Syntax

/-- Kinds whose two children are listed in another order than they are written in. -/
def Kind.turnsAround : Kind → Bool
  | .doWhileLoop | .typeAssertion => true
  | _ => false

/-- Kinds whose children are listed as their fields are, which is as they are written. -/
def Kind.keepsOrder (kind : Kind) : Bool :=
  !kind.interleaves && !kind.turnsAround

namespace Node

/-- The children in the order in which they are written. -/
def written (node : Node) : List Node :=
  if node.kind.turnsAround then node.stored.reverse else node.children

/-- Nothing but the order of the children is turned around. -/
theorem mem_written {node child : Node} : child ∈ node.written ↔ child ∈ node.stored := by
  unfold written
  split
  · exact List.mem_reverse
  · exact mem_children

/-- Where the statements at and below a node that are outside types begin, in the order in which
they are written. -/
def onsets (node : Node) : List Nat :=
  if node.kind.isType then []
  else
    (if node.kind.isStatement then [node.span.start] else []) ++
      node.written.attach.flatMap fun ⟨child, _⟩ => child.onsets
termination_by sizeOf node
decreasing_by
  exact sizeOf_lt_of_mem_children (mem_children.mpr (mem_written.mp ‹_›))

/-- The offsets of a node are its own, if it is a statement, and those of its children as written.
-/
theorem onsets_eq (node : Node) :
    node.onsets =
      if node.kind.isType then []
      else (if node.kind.isStatement then [node.span.start] else []) ++
        node.written.flatMap onsets := by
  rw [onsets]
  simp

end Node

end CodeClones.Syntax

namespace CodeClones.Lowering

open Syntax Concrete

/-! ## Offsets in ranges -/

/-- The offsets ascend and lie in the range. -/
structure Fits (range : Span) (offsets : List Nat) : Prop where
  /-- No offset is behind a later one. -/
  ascending : offsets.Pairwise (· ≤ ·)
  /-- All offsets lie in the range. -/
  inside : ∀ offset ∈ offsets, range.start ≤ offset ∧ offset ≤ range.stop

/-- The offsets are cut into runs, one for each tree, that fit the ranges of the trees. -/
inductive Follows : List Tree → List Nat → Prop
  | nil : Follows [] []
  | cons {tree : Tree} {trees : List Tree} {front back : List Nat} (fits : Fits tree.span front)
      (others : Follows trees back) : Follows (tree :: trees) (front ++ back)

/-- Where the statements of the nodes begin follows the trees. -/
def Traces (trees : List Tree) (nodes : List Node) : Prop :=
  Follows trees (nodes.flatMap Node.onsets)

section

variable {range : Span} {tree : Tree} {trees others : List Tree} {offsets front back : List Nat}

/-- No offsets fit any range. -/
theorem Fits.nil (range : Span) : Fits range [] :=
  ⟨.nil, nofun⟩

/-- Offsets that are left out of fitting ones leave fitting ones. -/
theorem Fits.sublist (fits : Fits range offsets) (chosen : front.Sublist offsets) :
    Fits range front :=
  ⟨fits.ascending.sublist chosen, fun offset member => fits.inside offset (chosen.subset member)⟩

/-- No offsets follow any trees, with an empty run for each. -/
theorem Follows.none (trees : List Tree) : Follows trees [] := by
  induction trees with
  | nil => exact .nil
  | cons tree trees ih => exact .cons (.nil tree.span) ih

/-- Offsets that follow two lists of trees follow the two together. -/
theorem Follows.append (first : Follows trees front) (second : Follows others back) :
    Follows (trees ++ others) (front ++ back) := by
  induction first with
  | nil => exact second
  | cons fits _ ih =>
    rw [List.append_assoc]
    exact .cons fits ih

/-- Leaving out offsets shortens the runs and keeps them in their ranges. -/
theorem Follows.sublist (follows : Follows trees offsets) (chosen : front.Sublist offsets) :
    Follows trees front := by
  induction follows generalizing front with
  | nil => exact List.sublist_nil.mp chosen ▸ .nil
  | cons fits _ ih =>
    obtain ⟨run, later, rfl, inRun, inLater⟩ := List.sublist_append_iff.mp chosen
    exact .cons (fits.sublist inRun) (ih inLater)

/-- Offsets that follow trees follow more trees as well, with nothing in the range of the others. -/
theorem Follows.widen (follows : Follows trees offsets) (among : trees.Sublist others) :
    Follows others offsets := by
  induction among generalizing offsets with
  | slnil => exact follows
  | cons tree _ ih => exact .cons (.nil tree.span) (ih follows)
  | cons_cons tree _ ih =>
    cases follows with
    | cons fits later => exact .cons fits (ih later)

/-- Every offset that follows trees lies in the range of one of them. -/
theorem Follows.exists_of_mem (follows : Follows trees offsets) {offset : Nat}
    (member : offset ∈ offsets) : ∃ tree ∈ trees, tree.start ≤ offset ∧ offset ≤ tree.stop := by
  induction follows with
  | nil => cases member
  | @cons tree trees run _ fits _ ih =>
    rcases List.mem_append.mp member with member | member
    · exact ⟨tree, List.mem_cons_self, fits.inside offset member⟩
    · obtain ⟨later, inTrees, inside⟩ := ih member
      exact ⟨later, List.mem_cons_of_mem _ inTrees, inside⟩

/-- Offsets that follow trees in order fit any range around these trees. -/
theorem Follows.fits (follows : Follows trees offsets) (inOrder : Tree.InOrder trees)
    (inside : ∀ tree ∈ trees, range.start ≤ tree.start ∧ tree.stop ≤ range.stop) :
    Fits range offsets := by
  refine ⟨?_, fun offset member => ?_⟩
  · clear inside
    induction follows with
    | nil => exact .nil
    | @cons tree trees run later fits others ih =>
      obtain ⟨before, inOrder⟩ := List.pairwise_cons.mp inOrder
      refine List.pairwise_append.mpr ⟨fits.ascending, ih inOrder, ?_⟩
      intro offset member next inLater
      obtain ⟨behind, inTrees, bounds⟩ := others.exists_of_mem inLater
      calc offset ≤ tree.stop := (fits.inside offset member).2
        _ ≤ behind.start := before behind inTrees
        _ ≤ next := bounds.1
  · obtain ⟨tree, inTrees, bounds⟩ := follows.exists_of_mem member
    have around := inside tree inTrees
    omega

end

/-! ## Nodes that trace trees -/

namespace Traces

variable {tree : Tree} {trees others : List Tree} {node : Node} {nodes rest : List Node}

/-- No nodes trace any trees. -/
theorem none (trees : List Tree) : Traces trees [] :=
  Follows.none trees

/-- Nodes that trace two lists of trees trace the two together. -/
theorem append (first : Traces trees nodes) (second : Traces others rest) :
    Traces (trees ++ others) (nodes ++ rest) := by
  unfold Traces
  rw [List.flatMap_append]
  exact Follows.append first second

/-- A node is put in front together with the trees that it traces. -/
theorem cons (first : Traces trees [node]) (second : Traces others rest) :
    Traces (trees ++ others) (node :: rest) :=
  append first second

/-- Nodes trace what they trace at the end of a list as well. -/
theorem last (traces : Traces trees nodes) : Traces trees (nodes ++ []) := by
  rw [List.append_nil]
  exact traces

/-- Nodes without statements trace any trees. -/
theorem silent (trees : List Tree) (none : nodes.flatMap Node.onsets = []) :
    Traces trees nodes := by
  unfold Traces
  rw [none]
  exact Follows.none trees

/-- Nodes trace more trees than they were made of. -/
theorem widen (traces : Traces trees nodes) (among : trees.Sublist others) :
    Traces others nodes :=
  Follows.widen traces among

/-- A node traces a tree if its statements begin in ascending order in the range of the tree. -/
theorem single (fits : Fits tree.span node.onsets) : Traces [tree] [node] := by
  unfold Traces
  rw [List.flatMap_cons, List.flatMap_nil]
  exact .cons fits .nil

/-- A node that counts the statements of other nodes traces what they trace. -/
theorem gathered (same : node.onsets = nodes.flatMap Node.onsets) (traces : Traces trees nodes) :
    Traces trees [node] := by
  unfold Traces
  rw [List.flatMap_cons, List.flatMap_nil, List.append_nil, same]
  exact traces

/-- Nodes that trace trees in order fit the range of a tree above these trees. -/
theorem fits {source : String} (traces : Traces trees nodes) (inOrder : Tree.InOrder trees)
    (arranged : tree.Arranged source) (below : ∀ part ∈ trees, part ∈ tree.subtrees) :
    Fits tree.span (nodes.flatMap Node.onsets) := by
  refine Follows.fits traces inOrder fun part member => ?_
  have inside := arranged.wellFormed.inside_of_mem_subtrees tree (below part member)
  exact ⟨inside.start_le, inside.stop_le⟩

/-- Nodes that trace trees in order trace a tree above these trees. -/
theorem within {source : String} (traces : Traces trees nodes) (inOrder : Tree.InOrder trees)
    (arranged : tree.Arranged source) (below : ∀ part ∈ trees, part ∈ tree.subtrees) :
    Traces [tree] nodes := by
  have fits := traces.fits inOrder arranged below
  unfold Traces
  rw [← List.append_nil (nodes.flatMap Node.onsets)]
  exact .cons fits .nil

/-- Nodes that trace one of the named children of a tree trace its named children. -/
theorem of_mem_parts {part : Tree} (traces : Traces [part] nodes) (member : part ∈ tree.parts) :
    Traces tree.parts nodes :=
  traces.widen (List.singleton_sublist.mpr member)

/-- Nodes that trace the first named child of a kind trace those of the kind. -/
theorem of_partOfKind? {kind : String} {part : Tree} (traces : Traces [part] nodes)
    (found : tree.partOfKind? kind = some part) :
    Traces (tree.standingAt (.partsOfKinds [kind])) nodes := by
  have same : part.kind = kind := by simpa using List.find?_some found
  refine traces.widen (List.singleton_sublist.mpr (List.mem_filter.mpr ?_))
  exact ⟨List.mem_of_find?_eq_some found, by simp [same]⟩

/-- Nodes that trace the named children of a tree trace the tree. -/
theorem of_parts {source : String} (traces : Traces tree.parts nodes)
    (arranged : tree.Arranged source) : Traces [tree] nodes :=
  traces.within arranged.parts_inOrder arranged fun _ => Tree.mem_subtrees_of_mem_parts

/-- Nodes that trace what is read of a tree trace the tree. -/
theorem of_reading {source : String} (traces : Traces trees nodes) (reads : tree.Reads trees)
    (arranged : tree.Arranged source) : Traces [tree] nodes := by
  have inOrder : Tree.InOrder trees := by
    obtain ⟨construct, kind, rfl⟩ := reads
    exact arranged.self_tidy.reading_inOrder construct kind
  exact traces.within inOrder arranged fun _ => reads.mem_subtrees

/-- Nodes that trace the answer for a field trace the tree. -/
theorem of_child? {source field : String} {part : Tree} (traces : Traces [part] nodes)
    (answer : tree.child? field = some part) (arranged : tree.Arranged source) :
    Traces [tree] nodes :=
  traces.within (List.pairwise_singleton _ _) arranged
    (List.forall_mem_singleton.mpr (Tree.mem_subtrees_of_child? answer).1)

/-- Nodes that trace the answer for a field, if there is one, trace the tree. -/
theorem of_answer {source field : String} (traces : Traces (tree.child? field).toList nodes)
    (arranged : tree.Arranged source) : Traces [tree] nodes := by
  cases answer : tree.child? field with
  | none =>
    rw [answer] at traces
    exact traces.widen (List.nil_sublist _)
  | some part =>
    rw [answer] at traces
    exact Traces.of_child? traces answer arranged

/-- Some of the nodes trace what all of them trace. -/
theorem chosen (traces : Traces trees rest) (among : nodes.Sublist rest) : Traces trees nodes := by
  have offsets : (nodes.flatMap Node.onsets).Sublist (rest.flatMap Node.onsets) := by
    clear traces
    induction among with
    | slnil => exact List.Sublist.refl _
    | cons node _ ih => exact ih.trans (List.sublist_append_right _ _)
    | cons_cons node _ ih => exact (List.Sublist.refl _).append ih
  exact Follows.sublist traces offsets

end Traces

/-! ## Nodes at the place of a tree -/

section

variable {source : String} {tree : Tree} {trees : List Tree} {kind : Kind}
  {slots : Slots kind.layout}

/-- No statements are counted at and below a type. -/
theorem onsets_of_isType {node : Node} (isType : node.kind.isType = true) : node.onsets = [] := by
  rw [Node.onsets_eq, if_pos isType]

/-- A type traces any trees, as statements inside types do not count. -/
theorem traces_place_of_isType (trees : List Tree) (isType : kind.isType = true) :
    Traces trees [place tree kind slots] := by
  have none : (place tree kind slots).onsets = [] := onsets_of_isType isType
  exact .silent trees (by simp [none])

/-- A node that holds no nodes and is no statement has no statements. -/
theorem onsets_place_of_stored_eq_nil (none : slots.stored = [])
    (notStatement : kind.isStatement = false) : (place tree kind slots).onsets = [] := by
  have written : (place tree kind slots).written = [] := by
    rw [List.eq_nil_iff_forall_not_mem]
    intro child member
    have stored : child ∈ slots.stored := Node.mem_written.mp member
    rw [none] at stored
    cases stored
  have notStatement : ¬ (place tree kind slots).kind.isStatement = true :=
    Bool.eq_false_iff.mp notStatement
  rw [Node.onsets_eq, written, if_neg notStatement]
  exact ite_self _

/-- A node at the place of an arranged tree traces it if its children, as written, do. -/
theorem traces_place (arranged : tree.Arranged source)
    (traces : Traces [tree] (place tree kind slots).written) :
    Traces [tree] [place tree kind slots] := by
  have ordered : tree.start ≤ tree.stop := arranged.wellFormed.inside.lawful.ordered
  have children : Fits tree.span ((place tree kind slots).written.flatMap Node.onsets) :=
    traces.fits (List.pairwise_singleton _ _) arranged
      (List.forall_mem_singleton.mpr (Tree.mem_subtrees_self tree))
  refine .single ?_
  rw [Node.onsets_eq]
  split
  · exact .nil tree.span
  · split
    · refine ⟨?_, ?_⟩
      · exact List.pairwise_cons.mpr
          ⟨fun offset member => (children.inside offset member).1, children.ascending⟩
      · exact List.forall_mem_cons.mpr ⟨⟨Nat.le_refl _, ordered⟩, children.inside⟩
    · exact children

/-- Of most nodes the children are written in the order of the fields. -/
theorem written_mk (span : Span) (keeps : kind.keepsOrder = true) :
    (Node.mk span kind slots).written = slots.stored := by
  rw [Kind.keepsOrder, Bool.and_eq_true, Bool.not_eq_true', Bool.not_eq_true'] at keeps
  have straight : ¬ (Node.mk span kind slots).kind.turnsAround = true :=
    Bool.eq_false_iff.mp keeps.2
  have unsorted : (Node.mk span kind slots).kind.interleaves = false := keeps.1
  rw [Node.written, if_neg straight, Node.children_eq_stored unsorted]
  rfl

/-- Most nodes that are neither types nor statements count the statements of their fields. -/
theorem onsets_mk (span : Span) (notType : kind.isType = false)
    (notStatement : kind.isStatement = false) (keeps : kind.keepsOrder = true) :
    (Node.mk span kind slots).onsets = slots.stored.flatMap Node.onsets := by
  have notType : ¬ (Node.mk span kind slots).kind.isType = true := Bool.eq_false_iff.mp notType
  have notStatement : ¬ (Node.mk span kind slots).kind.isStatement = true :=
    Bool.eq_false_iff.mp notStatement
  rw [Node.onsets_eq, if_neg notType, if_neg notStatement, written_mk span keeps, List.nil_append]

/-- Most statements count themselves before the statements of their fields. -/
theorem onsets_mk_of_isStatement (span : Span) (notType : kind.isType = false)
    (isStatement : kind.isStatement = true) (keeps : kind.keepsOrder = true) :
    (Node.mk span kind slots).onsets = span.start :: slots.stored.flatMap Node.onsets := by
  have notType : ¬ (Node.mk span kind slots).kind.isType = true := Bool.eq_false_iff.mp notType
  have isStatement : (Node.mk span kind slots).kind.isStatement = true := isStatement
  rw [Node.onsets_eq, if_neg notType, if_pos isStatement, written_mk span keeps]
  rfl

/-- A node at the place of an arranged tree traces it if its fields do. -/
theorem traces_fields (keeps : kind.keepsOrder = true) (arranged : tree.Arranged source)
    (traces : Traces [tree] slots.stored) : Traces [tree] [place tree kind slots] := by
  refine traces_place arranged ?_
  rw [place, written_mk tree.span keeps]
  exact traces

/-- A node at the place of an arranged tree traces it if its fields trace what is read of the
tree. -/
theorem traces_reading (keeps : kind.keepsOrder = true) (arranged : tree.Arranged source)
    (traces : Traces trees slots.stored) (reads : tree.Reads trees) :
    Traces [tree] [place tree kind slots] :=
  traces_fields keeps arranged (traces.of_reading reads arranged)

/-- A node at the place of an arranged tree traces it if its fields trace the named children of
the tree. -/
theorem traces_parts (keeps : kind.keepsOrder = true) (arranged : tree.Arranged source)
    (traces : Traces tree.parts slots.stored) : Traces [tree] [place tree kind slots] :=
  traces_fields keeps arranged (traces.of_parts arranged)

/-- No statement begins in an unmodelled node. -/
@[simp]
theorem onsets_unmodelled (tree : Tree) : (unmodelled tree).onsets = [] :=
  onsets_place_of_stored_eq_nil rfl rfl

/-- No statement begins in a node for a lacking field. -/
@[simp]
theorem onsets_lacking (tree : Tree) (field : String) : (lacking tree field).onsets = [] :=
  onsets_place_of_stored_eq_nil rfl rfl

/-- No statement begins in a plain name. -/
@[simp]
theorem onsets_plainIdentifier (tree : Tree) (name : String) :
    (plainIdentifier tree name).onsets = [] :=
  onsets_place_of_stored_eq_nil rfl rfl

end

/-- A binding target with an annotation traces the target and the annotation. -/
theorem traces_annotated {pattern : Tree} {trees : List Tree} {type : Option Node}
    {optional : Bool} {node : Node} (target : Traces [pattern] [node])
    (typed : Traces trees type.toList) :
    Traces (pattern :: trees) [annotated type optional node] := by
  have replaced : ∀ kept dropped : List Node,
      node.onsets = (kept ++ dropped).flatMap Node.onsets →
      Traces (pattern :: trees) (kept ++ type.toList) := by
    intro kept dropped same
    unfold Traces at target
    rw [List.flatMap_cons, List.flatMap_nil, List.append_nil, same, List.flatMap_append] at target
    exact Traces.append (Follows.sublist target (List.sublist_append_left _ _)) typed
  -- The annotation takes the place of the one before, behind all else that the node holds.
  fun_cases annotated type optional node
  case case1 =>
    have kept := replaced [] _ (onsets_mk _ rfl rfl rfl)
    exact .gathered (onsets_mk _ rfl rfl rfl) (by simpa using kept)
  case case2 =>
    have kept := replaced _ _ (onsets_mk _ rfl rfl rfl)
    exact .gathered (onsets_mk _ rfl rfl rfl) (by simpa using kept)
  case case3 =>
    have kept := replaced _ _ (onsets_mk _ rfl rfl rfl)
    exact .gathered (onsets_mk _ rfl rfl rfl) (by simpa using kept)
  case case4 =>
    have kept := replaced [_] _ (onsets_mk _ rfl rfl rfl)
    exact .gathered (onsets_mk _ rfl rfl rfl) (by simpa using kept)
  case case5 => exact target.append (.none trees)

/-! ## What an orderly context puts together -/

/-- The context is sound, and lowers arranged trees to nodes that trace them. -/
structure Context.Orderly (context : Context) : Prop where
  /-- Lowered nodes stand in the range of their tree. -/
  sound : context.Sound
  /-- Lowered nodes trace their tree. -/
  lower {tree : Tree} (arranged : tree.Arranged context.source) :
    Traces [tree] [(context.lower tree).value]

section

variable {tree : Tree} {trees : List Tree}

/-- The first member of a list, if there is one, is among its members. -/
theorem sublist_of_head? {α : Type} (items : List α) : items.head?.toList.Sublist items := by
  rw [← List.take_one]
  exact List.take_sublist 1 items

/-- Lowered trees trace these trees if each of them does. -/
theorem traces_all_map {lowering : Tree → Lowered Node}
    (each : ∀ tree ∈ trees, Traces [tree] [(lowering tree).value]) :
    Traces trees (Lowered.all (trees.map lowering)).value := by
  induction trees with
  | nil => exact Traces.none []
  | cons tree others ih =>
    obtain ⟨first, later⟩ := List.forall_mem_cons.mp each
    exact first.cons (ih later)

/-- An optional tree that is lowered traces it if it does when it is there. -/
theorem traces_optional_map {found : Option Tree} {lowering : Tree → Lowered Node}
    (each : ∀ tree ∈ found, Traces [tree] [(lowering tree).value]) :
    Traces found.toList (Lowered.optional (found.map lowering)).value.toList := by
  cases found with
  | none => exact Traces.none []
  | some tree => exact each tree rfl

end

namespace Context.Orderly

variable {context : Context} {tree : Tree} {trees : List Tree} {found : Option Tree}

/-- The nodes of arranged trees trace them. -/
theorem lowerAll (orderly : context.Orderly)
    (arranged : ∀ tree ∈ trees, tree.Arranged context.source) :
    Traces trees (context.lowerAll trees).value :=
  traces_all_map fun tree member => orderly.lower (arranged tree member)

/-- The node of an arranged tree traces it, if there is one. -/
theorem lowerOptional (orderly : context.Orderly)
    (arranged : ∀ tree ∈ found, tree.Arranged context.source) :
    Traces found.toList (context.lowerOptional found).value.toList :=
  traces_optional_map fun tree member => orderly.lower (arranged tree member)

variable (orderly : context.Orderly) (arranged : tree.Arranged context.source)

include orderly arranged

/-- A required field traces the answer for it, or no statement begins in it. -/
theorem required (field : String) :
    Traces (tree.child? field).toList [(context.required tree field).value] := by
  unfold Context.required
  cases answer : tree.child? field with
  | none => exact .silent _ (by simp)
  | some child => exact orderly.lower (arranged.of_child? answer)

/-- An optional field traces the answer for it. -/
theorem optional (field : String) :
    Traces (tree.child? field).toList (context.optional tree field).value.toList := by
  unfold Context.optional
  cases answer : tree.child? field with
  | none => exact .none _
  | some child =>
    rw [Option.filter_some]
    split
    · exact orderly.lower (arranged.of_child? answer)
    · exact .none _

/-- A field with many entries traces the named children that fill it. -/
theorem many (field : String) :
    Traces (tree.partsOf field) (context.many tree field).value :=
  orderly.lowerAll fun _ member =>
    arranged.of_mem_subtrees (Tree.mem_subtrees_of_mem_standingAt (.filling field) member)

/-- The nodes of the named children trace them. -/
theorem parts : Traces tree.parts (context.parts tree).value :=
  orderly.lowerAll fun _ => arranged.of_mem_parts

/-- The named children of the answer for a field trace this answer. -/
theorem partsWithin (field : String) :
    Traces (tree.child? field).toList (context.partsWithin tree field).value := by
  unfold Context.partsWithin
  cases answer : tree.child? field with
  | none => exact .none _
  | some child =>
    have inner := arranged.of_child? answer
    exact (orderly.parts inner).of_parts inner

/-- The first named child traces all of them. -/
theorem first : Traces tree.parts (context.first tree).value.toList := by
  refine (orderly.lowerOptional fun child member => ?_).widen (sublist_of_head? tree.parts)
  exact arranged.of_mem_parts (List.mem_of_head? member)

/-- A required first child traces all named children. -/
theorem firstRequired : Traces tree.parts [(context.firstRequired tree).value] := by
  have first := orderly.first arranged
  unfold Context.first at first
  unfold Context.firstRequired
  cases found : tree.firstPart? with
  | none => exact .silent _ (by simp)
  | some child =>
    rw [found] at first
    exact first

/-- A condition without its parentheses traces the answer that has them. -/
theorem condition (field : String) :
    Traces (tree.child? field).toList [(context.condition tree field).value] := by
  unfold Context.condition
  cases answer : tree.child? field with
  | none => exact .silent _ (by simp)
  | some child =>
    have inner := arranged.of_child? answer
    dsimp only
    split
    · exact (orderly.firstRequired inner).of_parts inner
    · exact orderly.lower inner

/-- A name traces its tree. -/
theorem name : Traces [tree] [(context.name tree).value] := by
  unfold Context.name
  split
  · exact .silent _ (by simp)
  · exact orderly.lower arranged

/-- A required name traces the answer for its field. -/
theorem nameField (field : String) :
    Traces (tree.child? field).toList [(context.nameField tree field).value] := by
  unfold Context.nameField
  cases answer : tree.child? field with
  | none => exact .silent _ (by simp)
  | some child => exact orderly.name (arranged.of_child? answer)

/-- A name that may be absent traces the answer for its field. -/
theorem optionalName (field : String) :
    Traces (tree.child? field).toList (context.optionalName tree field).value.toList :=
  traces_optional_map fun _ answer => orderly.name (arranged.of_child? answer)

/-- The decorators trace the named children of their kind. -/
theorem decorators :
    Traces (tree.standingAt (.partsOfKinds ["decorator"])) (context.decorators tree).value := by
  have same : tree.standingAt (.partsOfKinds ["decorator"]) =
      tree.parts.filter fun child => child.kind == "decorator" := by
    simp [Tree.standingAt]
  rw [same]
  exact orderly.lowerAll fun _ member => arranged.of_mem_parts (List.mem_filter.mp member).1

/-- A binding target with an annotation from a field traces both. -/
theorem binding {pattern : Tree} (target : pattern.Arranged context.source) (field : String)
    (optional : Bool) :
    Traces (pattern :: (tree.child? field).toList)
      [(context.binding pattern (tree.child? field) optional).value] :=
  traces_annotated (orderly.lower target)
    (orderly.lowerOptional fun _ answer => arranged.of_child? answer)

omit arranged

/-- A dotted name of a type counts as a type, and other names are lowered as such. -/
theorem qualifiedName (arranged : tree.Arranged context.source) :
    Traces [tree] [(context.qualifiedName tree).value] := by
  unfold Context.qualifiedName
  split
  · split
    · exact traces_place_of_isType _ rfl
    · exact .silent _ (by simp)
  · exact orderly.name arranged

/-- A dotted name of a markup element traces it: its left side stands before its right side. -/
theorem markupName (arranged : tree.Arranged context.source) :
    Traces [tree] [(context.markupName tree).value] := by
  fun_induction Context.markupName context tree with
  | case1 tree dotted object property sides ihObject ihProperty =>
    have reads := Tree.reads_of_sides? dotted sides
    have arrangedSides : ∀ side ∈ [object, property], side.Arranged context.source := by
      intro side member
      exact arranged.of_mem_subtrees (reads.mem_subtrees member)
    simp only [List.forall_mem_cons] at arrangedSides
    exact traces_reading rfl arranged ((ihObject arrangedSides.1).cons
      (ihProperty arrangedSides.2.1)) reads
  | case2 tree dotted none => exact .silent _ (by simp)
  | case3 tree plain spaced space name parts =>
    have arrangedParts : ∀ part ∈ [space, name], part.Arranged context.source := by
      intro part member
      exact arranged.of_mem_parts (parts ▸ member)
    simp only [List.forall_mem_cons] at arrangedParts
    refine traces_parts rfl arranged ?_
    rw [parts]
    exact (orderly.name arrangedParts.1).cons (orderly.name arrangedParts.2.1)
  | case4 tree plain spaced others => exact .silent _ (by simp)
  | case5 tree plain unspaced => exact orderly.name arranged

/-- The name of a generic type traces the answer for the name. -/
theorem genericName (arranged : tree.Arranged context.source) :
    Traces (tree.child? "name").toList [(context.genericName tree).value] := by
  unfold Context.genericName
  cases answer : tree.child? "name" with
  | none => exact .silent _ (by simp)
  | some child => exact orderly.qualifiedName (arranged.of_child? answer)

/-- An ancestor with its type arguments traces its tree. -/
theorem heritageEntry (arranged : tree.Arranged context.source) :
    Traces [tree] [(context.heritageEntry tree).value] := by
  unfold Context.heritageEntry
  split
  · rename_i generic
    exact traces_reading rfl arranged ((orderly.genericName arranged).cons
      ((orderly.optional arranged "type_arguments").append (.none [])))
      ⟨.genericType, generic, rfl⟩
  · refine .gathered (onsets_mk tree.span rfl rfl rfl) ?_
    exact orderly.qualifiedName arranged

/-- Ancestors trace the named children of their clause. -/
theorem heritage (arranged : tree.Arranged context.source) :
    Traces tree.parts (context.heritage tree).value :=
  traces_all_map fun _ member => orderly.heritageEntry (arranged.of_mem_parts member)

end Context.Orderly

end CodeClones.Lowering
