import CodeClones.Syntax.Layout
import CodeClones.Syntax.Span
import CodeClones.Syntax.Walk

/-!
# Syntax nodes

A node is a span, a kind, and contents that fit the layout of the kind. `Node.children` lists
the direct children of a node in the order of a walk; the tree below a node is what repeated
steps to children reach.
-/

namespace CodeClones.Syntax

mutual

/-- A node of the syntax tree. -/
inductive Node : Type where
  /-- A node at a span, with contents for each field of its kind. -/
  | mk (span : Span) (kind : Kind) (slots : Slots kind.layout)

/-- Contents for a list of fields. -/
inductive Slots : List Field → Type where
  /-- Nothing is left to fill. -/
  | done : Slots []
  /-- A child, then the contents of the other fields. -/
  | child {label : String} {rule : ChildRule} {fields : List Field}
      (node : Node) (others : Slots fields) : Slots (.child label rule :: fields)
  /-- An optional child, then the contents of the other fields. -/
  | optionalChild {label : String} {rule : ChildRule} {fields : List Field}
      (node : Option Node) (others : Slots fields) : Slots (.optionalChild label rule :: fields)
  /-- A list of children, then the contents of the other fields. -/
  | children {label : String} {rule : ChildRule} {fields : List Field}
      (nodes : List Node) (others : Slots fields) : Slots (.children label rule :: fields)
  /-- An optional list of children, then the contents of the other fields. -/
  | optionalChildren {label : String} {rule : ChildRule} {fields : List Field}
      (nodes : Option (List Node)) (others : Slots fields) :
      Slots (.optionalChildren label rule :: fields)
  /-- An attribute, then the contents of the other fields. -/
  | attribute {label : String} {type : AttributeType} {rule : AttributeRule}
      {fields : List Field} (value : type.Value) (others : Slots fields) :
      Slots (.attribute label type rule :: fields)

end

namespace Slots

/-- The nodes held by the fields, in the order of the fields. -/
def stored {fields : List Field} : Slots fields → List Node
  | .done => []
  | .child node others => node :: others.stored
  | .optionalChild node others => node.toList ++ others.stored
  | .children nodes others => nodes ++ others.stored
  | .optionalChildren nodes others => nodes.getD [] ++ others.stored
  | .attribute _ others => others.stored

/-- The nodes that the first field holds. -/
def front {fields : List Field} : {field : Field} → Slots (field :: fields) → List Node
  | .child _ _, .child node _ => [node]
  | .optionalChild _ _, .optionalChild node _ => node.toList
  | .children _ _, .children nodes _ => nodes
  | .optionalChildren _ _, .optionalChildren nodes _ => nodes.getD []
  | .attribute _ _ _, .attribute _ _ => []

/-- The contents of the fields behind the first one. -/
def behind {fields : List Field} : {field : Field} → Slots (field :: fields) → Slots fields
  | .child _ _, .child _ others => others
  | .optionalChild _ _, .optionalChild _ others => others
  | .children _ _, .children _ others => others
  | .optionalChildren _ _, .optionalChildren _ others => others
  | .attribute _ _ _, .attribute _ others => others

/-- The nodes that the field with a label holds; none if no field has the label. -/
def held (label : String) : {fields : List Field} → Slots fields → List Node
  | [], _ => []
  | field :: _, slots => if field.label = label then slots.front else slots.behind.held label

end Slots

namespace Node

/-- Where the node stands in its file. -/
def span : Node → Span
  | .mk span _ _ => span

/-- What the node is. -/
def kind : Node → Kind
  | .mk _ kind _ => kind

/-- The contents of the fields of the node. -/
def slots : (node : Node) → Slots node.kind.layout
  | .mk _ _ slots => slots

/-- The same node at another span. -/
def withSpan (node : Node) (span : Span) : Node :=
  .mk span node.kind node.slots

/-- The nodes held by the fields of the node, in the order of the fields. -/
def stored (node : Node) : List Node :=
  node.slots.stored

/-- The nodes that the field with a label holds; none if no field of the node has the label. -/
def held (node : Node) (label : String) : List Node :=
  node.slots.held label

/-- The nodes in the fields that a walk visits, one field after another. -/
def visits (node : Node) : List Node :=
  node.kind.visited.flatMap node.held

/-- The direct children in the order of a walk: that of the visited fields, except where two fields
interleave, whose nodes are listed by where they start. -/
def children (node : Node) : List Node :=
  if node.kind.interleaves then
    node.visits.mergeSort fun left right => left.span.start ≤ right.span.start
  else node.visits

end Node

/-- Every node stored in a field is smaller than the contents of the fields. -/
theorem Slots.sizeOf_lt_of_mem_stored {fields : List Field} {node : Node} :
    (slots : Slots fields) → node ∈ slots.stored → sizeOf node < sizeOf slots
  | .done, member => by simp [Slots.stored] at member
  | .child found others, member => by
    simp only [Slots.stored, List.mem_cons] at member
    simp only [Slots.child.sizeOf_spec]
    rcases member with rfl | member
    · omega
    · have := sizeOf_lt_of_mem_stored others member
      omega
  | .optionalChild found others, member => by
    simp only [Slots.stored, List.mem_append, Option.mem_toList] at member
    simp only [Slots.optionalChild.sizeOf_spec]
    rcases member with same | member
    · subst same
      simp only [Option.some.sizeOf_spec]
      omega
    · have := sizeOf_lt_of_mem_stored others member
      omega
  | .children found others, member => by
    simp only [Slots.stored, List.mem_append] at member
    simp only [Slots.children.sizeOf_spec]
    rcases member with member | member
    · have := List.sizeOf_lt_of_mem member
      omega
    · have := sizeOf_lt_of_mem_stored others member
      omega
  | .optionalChildren found others, member => by
    simp only [Slots.stored, List.mem_append] at member
    simp only [Slots.optionalChildren.sizeOf_spec]
    rcases member with member | member
    · cases found with
      | none => simp at member
      | some nodes =>
        have := List.sizeOf_lt_of_mem member
        simp only [Option.getD_some] at this
        simp only [Option.some.sizeOf_spec]
        omega
    · have := sizeOf_lt_of_mem_stored others member
      omega
  | .attribute _ others, member => by
    simp only [Slots.stored] at member
    have := sizeOf_lt_of_mem_stored others member
    simp only [Slots.attribute.sizeOf_spec]
    omega

/-- What is stored is what the first field holds and what is stored behind it. -/
theorem Slots.stored_cons {field : Field} {fields : List Field} (slots : Slots (field :: fields)) :
    slots.stored = slots.front ++ slots.behind.stored := by
  cases slots <;> rfl

/-- What a field holds is stored. -/
theorem Slots.mem_stored_of_mem_held {label : String} {fields : List Field} {node : Node}
    (slots : Slots fields) (member : node ∈ slots.held label) : node ∈ slots.stored := by
  induction fields with
  | nil => cases member
  | cons field fields ih =>
    rw [held] at member
    rw [stored_cons, List.mem_append]
    split at member
    · exact .inl member
    · exact .inr (ih slots.behind member)

namespace Node

/-- Every child is stored in a field of its parent. -/
theorem mem_stored_of_mem_children {node child : Node} (member : child ∈ node.children) :
    child ∈ node.stored := by
  have visited : child ∈ node.visits := by
    unfold children at member
    split at member
    · exact List.mem_mergeSort.mp member
    · exact member
  obtain ⟨_, _, held⟩ := List.mem_flatMap.mp visited
  exact node.slots.mem_stored_of_mem_held held

/-- Of three nodes, each starting no later than the next, the first starts no later than the
third. -/
theorem starts_trans (first second third : Node)
    (front : decide (first.span.start ≤ second.span.start) = true)
    (back : decide (second.span.start ≤ third.span.start) = true) :
    decide (first.span.start ≤ third.span.start) = true := by
  rw [decide_eq_true_iff] at front back ⊢
  exact Nat.le_trans front back

/-- One of two nodes starts no later than the other. -/
theorem starts_total (first second : Node) :
    (decide (first.span.start ≤ second.span.start) ||
      decide (second.span.start ≤ first.span.start)) = true := by
  rw [Bool.or_eq_true, decide_eq_true_iff, decide_eq_true_iff]
  exact Nat.le_total _ _

/-- Every node stored in a field is smaller than its parent. -/
theorem sizeOf_lt_of_mem_stored {node child : Node} (member : child ∈ node.stored) :
    sizeOf child < sizeOf node := by
  cases node with
  | mk span kind slots =>
    have := Slots.sizeOf_lt_of_mem_stored slots member
    simp only [Node.mk.sizeOf_spec]
    omega

/-- Every child is smaller than its parent. -/
theorem sizeOf_lt_of_mem_children {node child : Node} (member : child ∈ node.children) :
    sizeOf child < sizeOf node :=
  sizeOf_lt_of_mem_stored (mem_stored_of_mem_children member)

/-- The node and every node below it, each before its children. -/
def preorder (node : Node) : List Node :=
  node :: node.children.attach.flatMap fun ⟨child, _⟩ => child.preorder
termination_by sizeOf node
decreasing_by exact sizeOf_lt_of_mem_children ‹_›

/-- A node comes before the trees of its children. -/
theorem preorder_eq (node : Node) :
    node.preorder = node :: node.children.flatMap preorder := by
  rw [preorder]
  simp

/-- Number of nodes of the tree: the node itself and all below it. -/
def count (node : Node) : Nat :=
  node.preorder.length

end Node

/-- A parsed file: where the program stands and its top-level nodes. -/
structure Program where
  /-- The range of the whole program. -/
  span : Span
  /-- The top-level items in order. -/
  body : List Node

end CodeClones.Syntax
