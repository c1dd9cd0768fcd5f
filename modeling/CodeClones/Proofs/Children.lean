import CodeClones.Syntax.Node

/-!
# The children of a node are what its fields hold

A walk visits the fields of a node that are listed for its kind. The lists do not come from the
layouts. Kind by kind they are compared here: of the fields in a layout exactly those that hold
nodes are visited, each of them once. So the children of a node are what is stored in it, in the
order of the fields or, where two fields interleave, in the order of the starts.
-/

namespace CodeClones.Syntax

/-! ## Labels -/

/-- Whether a field holds nodes. -/
def Field.holdsNodes : Field → Bool
  | .attribute _ _ _ => false
  | _ => true

/-- The labels of the fields of a kind. -/
def Kind.labels (kind : Kind) : List String :=
  kind.layout.map Field.label

/-- The labels of the fields of a kind that hold nodes. -/
def Kind.nodeLabels (kind : Kind) : List String :=
  (kind.layout.filter Field.holdsNodes).map Field.label

/-- No two fields of a kind have one label. -/
theorem labels_nodup (kind : Kind) : kind.labels.Nodup := by
  cases kind <;> decide +kernel

/-- No two fields that hold nodes have one label. -/
theorem nodeLabels_nodup (kind : Kind) : kind.nodeLabels.Nodup :=
  (labels_nodup kind).sublist (List.filter_sublist.map Field.label)

/-- The fields that are visited are those that hold nodes, each of them once. -/
theorem visited_eq_nodeLabels (kind : Kind) : kind.visited = kind.nodeLabels := by
  cases kind <;> rfl

/-! ## Contents by label -/

namespace Slots

variable {field : Field} {fields : List Field} {label : String}

/-- Under the label of the first field stands what the first field holds. -/
theorem held_label (slots : Slots (field :: fields)) : slots.held field.label = slots.front := by
  rw [held, if_pos rfl]

/-- Another label leads to the fields behind the first one. -/
theorem held_of_ne (slots : Slots (field :: fields)) (other : field.label ≠ label) :
    slots.held label = slots.behind.held label := by
  rw [held, if_neg other]

/-- A field that holds no nodes has none. -/
theorem front_eq_nil : {field : Field} → (slots : Slots (field :: fields)) →
    field.holdsNodes = false → slots.front = []
  | .attribute _ _ _, .attribute _ _, _ => rfl

/-- Under a label that no field with nodes has, nothing is held. -/
theorem held_eq_nil (slots : Slots fields)
    (absent : label ∉ (fields.filter Field.holdsNodes).map Field.label) :
    slots.held label = [] := by
  induction fields with
  | nil => rfl
  | cons field fields ih =>
    rw [List.filter_cons] at absent
    cases holds : field.holdsNodes with
    | true =>
      rw [if_pos holds, List.map_cons, List.mem_cons, not_or] at absent
      rw [slots.held_of_ne (Ne.symm absent.1), ih slots.behind absent.2]
    | false =>
      rw [if_neg (by simp [holds])] at absent
      rw [held, slots.front_eq_nil holds, ih slots.behind absent, ite_self]

/-- If no two fields have one label, what is stored is what the fields with nodes hold, label by
label. -/
theorem stored_eq_flatMap_held (slots : Slots fields)
    (distinct : (fields.map Field.label).Nodup) :
    slots.stored =
      ((fields.filter Field.holdsNodes).map Field.label).flatMap fun label => slots.held label := by
  induction fields with
  | nil =>
    cases slots
    rfl
  | cons field fields ih =>
    obtain ⟨single, distinct⟩ := List.nodup_cons.mp distinct
    -- A label further behind is not that of the first field, which would hide it.
    have later : ∀ label ∈ (fields.filter Field.holdsNodes).map Field.label,
        slots.held label = slots.behind.held label := by
      intro label member
      obtain ⟨other, kept, rfl⟩ := List.mem_map.mp member
      have behind := List.mem_map_of_mem (f := Field.label) (List.mem_filter.mp kept).1
      exact slots.held_of_ne fun same => single (same ▸ behind)
    have rest : slots.behind.stored =
        ((fields.filter Field.holdsNodes).map Field.label).flatMap fun label =>
          slots.held label := by
      rw [ih slots.behind distinct, List.flatMap_def, List.flatMap_def,
        List.map_congr_left later]
    rw [stored_cons, List.filter_cons]
    cases holds : field.holdsNodes with
    | true => rw [if_pos rfl, List.map_cons, List.flatMap_cons, held_label, rest]
    | false => rw [if_neg Bool.false_ne_true, slots.front_eq_nil holds, List.nil_append, rest]

end Slots

/-! ## Children -/

namespace Node

/-- What is stored in a node is what its fields hold, label by label. -/
theorem stored_eq_flatMap_held (node : Node) :
    node.stored = node.kind.nodeLabels.flatMap node.held :=
  node.slots.stored_eq_flatMap_held (labels_nodup node.kind)

/-- What is visited in a node is what is stored in it. -/
theorem visits_eq_stored (node : Node) : node.visits = node.stored := by
  rw [visits, visited_eq_nodeLabels, stored_eq_flatMap_held]

/-- Children are listed in the order of the fields if no two fields of the kind interleave. -/
theorem children_eq_stored {node : Node} (straight : node.kind.interleaves = false) :
    node.children = node.stored := by
  rw [children, if_neg (by rw [straight]; exact Bool.false_ne_true), visits_eq_stored]

/-- Children are sorted by where they start if two fields of the kind interleave. -/
theorem children_eq_mergeSort {node : Node} (interleaves : node.kind.interleaves = true) :
    node.children =
      node.stored.mergeSort fun left right => left.span.start ≤ right.span.start := by
  rw [children, if_pos interleaves, visits_eq_stored]

/-- The children are the stored nodes, perhaps in another order. -/
theorem children_perm_stored (node : Node) : node.children.Perm node.stored := by
  cases order : node.kind.interleaves with
  | true =>
    rw [children_eq_mergeSort order]
    exact List.mergeSort_perm _ _
  | false => rw [children_eq_stored order]

/-- The children of a node are the nodes stored in its fields. -/
theorem mem_children {node child : Node} : child ∈ node.children ↔ child ∈ node.stored :=
  node.children_perm_stored.mem_iff

end Node

end CodeClones.Syntax
