import CodeClones.Proofs.Children
import CodeClones.Proofs.Collection
import CodeClones.Proofs.FunctionModes
import Mathlib.Algebra.GroupWithZero.Nat
import Mathlib.Data.List.Nodup
import Mathlib.Data.List.Perm.Basic

/-!
# What the fields of a node hold

A node can be read as a record: each of its fields has a label of its own and holds one node, at
most one, a list of nodes, or none. The walk over a tree sees a node through its list of children
only. Here the two readings are compared. The children of a node are what its fields hold, with
nothing left out and nothing twice, also where the fields are those of a function or a class that
several kinds share. So a walk comes exactly once to every place of a tree that labels lead to, and
it counts as many nodes as the tree is built of.
-/

namespace CodeClones.Syntax

/-! ## Shared fields -/

/-- Fields that several kinds of nodes share, and these kinds. -/
structure SharedRecord where
  /-- The shared fields. -/
  fields : List Field
  /-- The kinds that have them. -/
  kinds : List Kind

/-- The labels of the shared fields. -/
def SharedRecord.labels (record : SharedRecord) : List String :=
  record.fields.map Field.label

/-- What functions share, and what classes share. -/
def sharedRecords : List SharedRecord :=
  [⟨functionFields, functionKinds⟩, ⟨classFields, [.classDeclaration, .classExpression]⟩]

/-- The kinds that share a record are those that have all of its fields. -/
theorem mem_kinds_iff (kind : Kind) : ∀ record ∈ sharedRecords,
    (kind ∈ record.kinds ↔ ∀ label ∈ record.labels, label ∈ kind.labels) := by
  cases kind <;> decide +kernel

/-- The children are what the fields hold, perhaps in another order. -/
theorem Node.children_perm_held (node : Node) :
    node.children.Perm (node.kind.nodeLabels.flatMap node.held) := by
  rw [← node.stored_eq_flatMap_held]
  exact node.children_perm_stored

/-! ## Numbers of nodes -/

mutual

/-- Number of nodes that a tree is built of. -/
def Node.size : Node → Nat
  | .mk _ _ slots => slots.size + 1

/-- Number of nodes that the contents of fields are built of. -/
def Slots.size : {fields : List Field} → Slots fields → Nat
  | [], .done => 0
  | .child _ _ :: _, .child node others => node.size + others.size
  | .optionalChild _ _ :: _, .optionalChild node others =>
    (match node with
      | none => 0
      | some node => node.size) + others.size
  | .children _ _ :: _, .children nodes others => sizeAmong nodes + others.size
  | .optionalChildren _ _ :: _, .optionalChildren nodes others =>
    (match nodes with
      | none => 0
      | some nodes => sizeAmong nodes) + others.size
  | .attribute _ _ _ :: _, .attribute _ others => others.size

/-- Number of nodes that a list of trees is built of. -/
def sizeAmong : List Node → Nat
  | [] => 0
  | node :: others => node.size + sizeAmong others

end

/-- The size of nodes in a list is the sum of their sizes. -/
theorem sizeAmong_eq (nodes : List Node) : sizeAmong nodes = (nodes.map Node.size).sum := by
  induction nodes with
  | nil => rfl
  | cons node others ih => rw [sizeAmong, ih, List.map_cons, List.sum_cons]

/-- The first field and those behind it are built of different nodes. -/
theorem Slots.size_cons {fields : List Field} :
    {field : Field} → (slots : Slots (field :: fields)) →
    slots.size = (slots.front.map Node.size).sum + slots.behind.size
  | .child _ _, .child node others => by simp [size, front, behind]
  | .optionalChild _ _, .optionalChild node others => by
    cases node <;> simp [size, front, behind]
  | .children _ _, .children nodes others => by simp [size, front, behind, sizeAmong_eq]
  | .optionalChildren _ _, .optionalChildren nodes others => by
    cases nodes <;> simp [size, front, behind, sizeAmong_eq]
  | .attribute _ _ _, .attribute _ others => by simp [size, front, behind]

/-- The contents of fields are built of the trees of the nodes stored in them. -/
theorem Slots.size_eq {fields : List Field} (slots : Slots fields) :
    slots.size = (slots.stored.map Node.size).sum := by
  induction fields with
  | nil =>
    cases slots
    rfl
  | cons field fields ih =>
    rw [size_cons, ih slots.behind, stored_cons, List.map_append, List.sum_append]

namespace Node

/-- A tree is built of its root and the trees of the children. -/
theorem size_eq (node : Node) : node.size = (node.children.map size).sum + 1 := by
  have sameSum : (node.children.map size).sum = (node.stored.map size).sum :=
    (node.children_perm_stored.map size).sum_nat
  rw [sameSum]
  cases node with
  | mk span kind slots =>
    rw [size, slots.size_eq]
    rfl

/-- A walk counts the node and what it counts in the children. -/
theorem count_eq (node : Node) : node.count = (node.children.map count).sum + 1 := by
  unfold count
  rw [preorder_eq, List.length_cons, List.length_flatMap]

/-- A walk counts the nodes that the tree is built of. -/
theorem count_eq_size (node : Node) : node.count = node.size := by
  induction node using Node.induction_on_children with
  | step node ih => rw [count_eq, size_eq, List.map_congr_left ih]

end Node

/-! ## Places -/

/-- The nodes are what is found at all places where something is found, with each place taken
once: they stand in the entries of a table that has no place twice. -/
def EachOnce {Place : Type} (lookup : Place → Option Node) (nodes : List Node) : Prop :=
  ∃ entries : List (Place × Node), (entries.map Prod.fst).Nodup ∧
    (∀ place node, (place, node) ∈ entries ↔ lookup place = some node) ∧
    entries.map Prod.snd = nodes

/-- The order of the nodes does not matter. -/
theorem EachOnce.perm {Place : Type} {lookup : Place → Option Node} {nodes nodes' : List Node}
    (once : EachOnce lookup nodes) (perm : nodes'.Perm nodes) : EachOnce lookup nodes' := by
  obtain ⟨entries, distinct, complete, rfl⟩ := once
  -- The entries are put in the order of the nodes.
  obtain ⟨entries', same, perm'⟩ :
      Relation.Comp (fun nodes entries => nodes = entries.map Prod.snd) List.Perm
        nodes' entries := by
    rw [List.eq_map_comp_perm]
    exact perm
  refine ⟨entries', (perm'.map Prod.fst).nodup_iff.mpr distinct, fun place node => ?_, same.symm⟩
  rw [perm'.mem_iff]
  exact complete place node

/-- A place in a node. -/
structure FieldPlace where
  /-- The label of the field. -/
  label : String
  /-- How many nodes of the field stand before it. -/
  index : Nat

namespace Node

/-- The node at a place. -/
def at? (node : Node) (place : FieldPlace) : Option Node :=
  (node.held place.label)[place.index]?

/-- The node that is reached by going from place to place. -/
def reached? (node : Node) : (path : List FieldPlace) → Option Node
  | [] => some node
  | place :: path => (node.at? place).bind fun child => child.reached? path

/-- A place where something is found is in a field of the node that holds nodes. -/
theorem mem_nodeLabels_of_at? {node child : Node} {place : FieldPlace}
    (found : node.at? place = some child) : place.label ∈ node.kind.nodeLabels := by
  by_contra absent
  rw [at?, held, node.slots.held_eq_nil absent] at found
  contradiction

/-- The places of a field, each with the node at it. -/
def entriesAt (node : Node) (label : String) : List (FieldPlace × Node) :=
  (node.held label).zipIdx.map fun entry => (⟨label, entry.2⟩, entry.1)

/-- The places of a field are counted from zero. -/
theorem map_fst_entriesAt (node : Node) (label : String) :
    (node.entriesAt label).map Prod.fst =
      (List.range' 0 (node.held label).length).map (FieldPlace.mk label) := by
  rw [← List.zipIdx_map_snd, entriesAt, List.map_map, List.map_map]
  rfl

/-- At the places of a field stand the nodes that the field holds. -/
theorem map_snd_entriesAt (node : Node) (label : String) :
    (node.entriesAt label).map Prod.snd = node.held label := by
  rw [entriesAt, List.map_map]
  exact List.zipIdx_map_fst 0 (node.held label)

/-- The entries of a field are the places with its label and the nodes that stand there. -/
theorem mem_entriesAt_iff {node child : Node} {label : String} {place : FieldPlace} :
    (place, child) ∈ node.entriesAt label ↔ place.label = label ∧ node.at? place = some child := by
  obtain ⟨name, index⟩ := place
  simp only [entriesAt, List.mem_map, Prod.exists, List.mem_zipIdx_iff_getElem?, Prod.mk.injEq,
    FieldPlace.mk.injEq, at?]
  constructor
  · rintro ⟨node, index, found, ⟨rfl, rfl⟩, rfl⟩
    exact ⟨rfl, found⟩
  · rintro ⟨rfl, found⟩
    exact ⟨child, index, found, ⟨rfl, rfl⟩, rfl⟩

/-- No place is in two fields, or twice in one. -/
theorem nodup_entriesAt (node : Node) :
    ((node.kind.nodeLabels.flatMap node.entriesAt).map Prod.fst).Nodup := by
  rw [List.map_flatMap, List.nodup_flatMap]
  simp only [map_fst_entriesAt]
  constructor
  · intro label _
    refine List.Nodup.map (fun index index' same => ?_) List.nodup_range'
    exact (FieldPlace.mk.inj same).2
  · refine (nodeLabels_nodup node.kind).imp fun apart place inside inside' => ?_
    obtain ⟨_, _, rfl⟩ := List.mem_map.mp inside
    obtain ⟨_, _, same⟩ := List.mem_map.mp inside'
    exact apart (FieldPlace.mk.inj same).1.symm

/-- The children of a node are what is found at its places, each place once. -/
theorem eachOnce_children (node : Node) : EachOnce node.at? node.children := by
  refine EachOnce.perm ⟨node.kind.nodeLabels.flatMap node.entriesAt, node.nodup_entriesAt, ?_, ?_⟩
    node.children_perm_held
  · intro place child
    simp only [List.mem_flatMap, mem_entriesAt_iff]
    constructor
    · rintro ⟨label, _, _, found⟩
      exact found
    · intro found
      exact ⟨place.label, mem_nodeLabels_of_at? found, rfl, found⟩
  · rw [List.map_flatMap]
    exact List.flatMap_congr fun label _ => node.map_snd_entriesAt label

end Node

/-- The entries of the trees of some nodes, with the place of each node in front of the paths in its
tree. -/
def prolonged (entries : List (FieldPlace × Node)) (below : Node → List (List FieldPlace × Node)) :
    List (List FieldPlace × Node) :=
  entries.flatMap fun entry => (below entry.2).map (Prod.map (entry.1 :: ·) id)

section Prolonged

variable {entries : List (FieldPlace × Node)} {below : Node → List (List FieldPlace × Node)}

/-- A prolonged entry is a place, followed by an entry below the node at that place. -/
theorem mem_prolonged_iff {path : List FieldPlace} {found : Node} :
    (path, found) ∈ prolonged entries below ↔
      ∃ place child rest, path = place :: rest ∧ (place, child) ∈ entries ∧
        (rest, found) ∈ below child := by
  simp only [prolonged, List.mem_flatMap, List.mem_map, Prod.exists, Prod.map_apply, id_eq,
    Prod.mk.injEq]
  constructor
  · rintro ⟨place, child, inside, rest, found, inside', rfl, rfl⟩
    exact ⟨place, child, rest, rfl, inside, inside'⟩
  · rintro ⟨place, child, rest, rfl, inside, inside'⟩
    exact ⟨place, child, inside, rest, found, inside', rfl, rfl⟩

/-- Paths differ in the place that they begin with or in what is behind it. -/
theorem nodup_prolonged (distinct : (entries.map Prod.fst).Nodup)
    (each : ∀ entry ∈ entries, ((below entry.2).map Prod.fst).Nodup) :
    ((prolonged entries below).map Prod.fst).Nodup := by
  have paths : ∀ entry : FieldPlace × Node,
      ((below entry.2).map (Prod.map (entry.1 :: ·) id)).map Prod.fst =
        ((below entry.2).map Prod.fst).map (entry.1 :: ·) := by
    intro entry
    rw [List.map_map, List.map_map]
    rfl
  rw [prolonged, List.map_flatMap, List.nodup_flatMap]
  simp only [paths]
  constructor
  · intro entry member
    exact (each entry member).map List.cons_injective
  · refine (List.pairwise_map.mp distinct).imp fun apart path member member' => ?_
    obtain ⟨_, _, rfl⟩ := List.mem_map.mp member
    obtain ⟨_, _, same⟩ := List.mem_map.mp member'
    exact apart (List.cons_eq_cons.mp same).1.symm

/-- The nodes in prolonged entries are those listed below the nodes of the entries, one after
another. -/
theorem map_snd_prolonged {listing : Node → List Node}
    (listed : ∀ entry ∈ entries, (below entry.2).map Prod.snd = listing entry.2) :
    (prolonged entries below).map Prod.snd = (entries.map Prod.snd).flatMap listing := by
  rw [prolonged, List.map_flatMap, List.flatMap_map]
  refine List.flatMap_congr fun entry member => ?_
  rw [← listed entry member, List.map_map]
  rfl

end Prolonged

/-- The nodes of a tree in the order of a walk are what is reached by all paths, each path once. -/
theorem Node.eachOnce_preorder (node : Node) : EachOnce node.reached? node.preorder := by
  induction node using Node.induction_on_children with
  | step node ih =>
    obtain ⟨entries, distinct, complete, listed⟩ := node.eachOnce_children
    -- One table for the tree of each child; prolonged by the place of the child, they make up all
    -- but the root.
    choose! below distinct' complete' listed' using ih
    have inside : ∀ entry ∈ entries, entry.2 ∈ node.children := fun entry member =>
      listed ▸ List.mem_map_of_mem member
    refine ⟨([], node) :: prolonged entries below, ?_, ?_, ?_⟩
    · rw [List.map_cons, List.nodup_cons]
      refine ⟨?_, nodup_prolonged distinct fun entry member => distinct' _ (inside entry member)⟩
      intro member
      obtain ⟨⟨_, found⟩, member', rfl⟩ := List.mem_map.mp member
      obtain ⟨_, _, _, empty, _⟩ := mem_prolonged_iff.mp member'
      contradiction
    · intro path found
      rw [List.mem_cons, mem_prolonged_iff]
      cases path with
      | nil => simp [reached?, eq_comm]
      | cons place path =>
        rw [reached?, Option.bind_eq_some_iff]
        constructor
        · rintro (same | ⟨_, child, _, same, member, member'⟩)
          · cases same
          · cases same
            have isChild := inside _ member
            exact ⟨child, (complete place child).mp member,
              (complete' child isChild path found).mp member'⟩
        · rintro ⟨child, atPlace, reached⟩
          have member := (complete place child).mpr atPlace
          have isChild := inside _ member
          exact Or.inr ⟨place, child, path, rfl, member,
            (complete' child isChild path found).mpr reached⟩
    · have below' := map_snd_prolonged fun entry member => listed' _ (inside entry member)
      rw [List.map_cons, below', listed, preorder_eq]

/-- Taking the children of a node loses and repeats nothing. No two fields of the node have one
label, the kinds that share what functions or classes have are those with all of the shared fields,
and of the fields exactly those that hold nodes are visited, each of them once. So the children are
the nodes stored in the node, and what its fields hold under their labels, perhaps in another order.
A walk that goes from nodes to their children comes exactly once to every place in the tree that
labels lead to, and it counts as many nodes as the tree is built of. -/
theorem children_lossless (node : Node) :
    node.kind.labels.Nodup ∧
    (∀ record ∈ sharedRecords,
      (node.kind ∈ record.kinds ↔ ∀ label ∈ record.labels, label ∈ node.kind.labels)) ∧
    node.kind.visited.Perm node.kind.nodeLabels ∧
    node.children.Perm node.stored ∧
    node.children.Perm (node.kind.nodeLabels.flatMap node.held) ∧
    EachOnce node.reached? node.preorder ∧
    node.count = node.size :=
  ⟨labels_nodup node.kind, mem_kinds_iff node.kind, .of_eq (visited_eq_nodeLabels node.kind),
    node.children_perm_stored, node.children_perm_held, node.eachOnce_preorder,
    node.count_eq_size⟩

end CodeClones.Syntax
