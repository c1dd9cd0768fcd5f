import CodeClones.Proofs.Counterparts
import Mathlib.Data.List.MinMax
import Mathlib.Order.Nat

/-!
# Heights of alike nodes

Alike nodes need not have equally many nodes below them: sibling groups are compared as to what
occurs in them, so that a group with two equal members may be alike to one in which another member
occurs twice. What alike nodes do share is how high they are above the nodes that they reach
through compared positions, because a highest child has a counterpart that is no lower, from either
side. A node is higher than all it reaches, so it is alike to nothing inside itself.
-/

namespace CodeClones.Syntax

/-! ## Heights -/

/-- Only what a position holds is compared there. -/
theorem comparedAt_sublist (kind : Kind) (label : String) (nodes : List Node) :
    (comparedAt kind label nodes).Sublist nodes := by
  unfold comparedAt
  split
  · exact List.nil_sublist nodes
  · exact List.Sublist.refl nodes

/-- The compared nodes are some of those stored in the fields. -/
theorem Slots.compared_sublist_stored (kind : Kind) :
    {fields : List Field} → (slots : Slots fields) → (slots.compared kind).Sublist slots.stored
  | [], .done => List.Sublist.refl []
  | .child label _ :: _, .child node others =>
    (comparedAt_sublist kind label [node]).append (compared_sublist_stored kind others)
  | .optionalChild label _ :: _, .optionalChild node others =>
    (comparedAt_sublist kind label node.toList).append (compared_sublist_stored kind others)
  | .children label _ :: _, .children nodes others =>
    (comparedAt_sublist kind label nodes).append (compared_sublist_stored kind others)
  | .optionalChildren label _ :: _, .optionalChildren nodes others =>
    (comparedAt_sublist kind label (nodes.getD [])).append (compared_sublist_stored kind others)
  | .attribute _ _ _ :: _, .attribute _ others => compared_sublist_stored kind others

namespace Node

/-- Every compared child is stored in a field. -/
theorem mem_stored_of_mem_compared {node child : Node} (member : child ∈ node.compared) :
    child ∈ node.stored :=
  (node.slots.compared_sublist_stored node.kind).mem member

/-- The height of a node above the nodes that it reaches through compared positions: one more than
the largest height of a compared child, and one if there is none. -/
def comparedHeight (node : Node) : Nat :=
  1 + (node.compared.attach.map fun ⟨child, _⟩ => child.comparedHeight).foldr max 0
termination_by sizeOf node
decreasing_by exact sizeOf_lt_of_mem_stored (mem_stored_of_mem_compared ‹_›)

/-- A node is one higher than the highest of its compared children. -/
theorem comparedHeight_eq (node : Node) :
    node.comparedHeight = 1 + (node.compared.map comparedHeight).foldr max 0 := by
  rw [comparedHeight]
  simp

/-- A node is higher than each of its compared children. -/
theorem comparedHeight_lt_of_mem {node child : Node} (member : child ∈ node.compared) :
    child.comparedHeight < node.comparedHeight := by
  have bound := List.le_max_of_le' 0 (List.mem_map_of_mem member) (Nat.le_refl child.comparedHeight)
  rw [node.comparedHeight_eq]
  omega

/-- A node is at least as high as each node that it reaches. -/
theorem comparedHeight_le_of_reaches {node below : Node} (reached : node.Reaches below) :
    below.comparedHeight ≤ node.comparedHeight := by
  induction reached with
  | refl => exact Nat.le_refl _
  | tail _ member ih => exact Nat.le_trans (Nat.le_of_lt (comparedHeight_lt_of_mem member)) ih

/-! ## Alike nodes -/

/-- A node is no higher than another if each of its compared children is as high as some compared
child of the other. -/
theorem comparedHeight_le_of_answered {node other : Node}
    (answered : Answered (fun child child' => child.comparedHeight = child'.comparedHeight)
      node.compared other.compared) :
    node.comparedHeight ≤ other.comparedHeight := by
  have each : ∀ height ∈ node.compared.map comparedHeight,
      height ≤ (other.compared.map comparedHeight).foldr max 0 := by
    rw [List.forall_mem_map]
    intro child member
    obtain ⟨child', member', same⟩ := answered child member
    exact List.le_max_of_le' 0 (List.mem_map_of_mem member') (Nat.le_of_eq same)
  rw [node.comparedHeight_eq, other.comparedHeight_eq]
  exact Nat.add_le_add_left (List.max_le_of_forall_le _ _ each) 1

/-- Alike nodes are equally high, whether names are checked or not. -/
theorem comparedHeight_eq_of_alike {names : Bool} {left right : Node}
    (alike : left.alike names right = true) : left.comparedHeight = right.comparedHeight := by
  -- A child and its counterpart may be alike with another checking of names than their parents.
  induction left using Node.induction_on_stored generalizing names right with
  | step left ih =>
    have sameHeight : ∀ child ∈ left.compared, ∀ names other, child.alike names other = true →
        child.comparedHeight = other.comparedHeight := fun child member names other =>
      ih child (mem_stored_of_mem_compared member)
    apply Nat.le_antisymm
    · apply comparedHeight_le_of_answered
      intro child member
      obtain ⟨other, member', names', alike'⟩ := answered_of_alike alike child member
      exact ⟨other, member', sameHeight child member names' other alike'⟩
    · apply comparedHeight_le_of_answered
      intro other member'
      obtain ⟨child, member, names', alike'⟩ := answered_of_alike (alike_symm alike) other member'
      exact ⟨child, member, (sameHeight child member names' other (alike_symm alike')).symm⟩

end Node

/-- A node is never alike to its own inside: whether names are checked or not, alike nodes are
equally high above what they reach through compared positions, and no node is alike, from either
side, to a node that is below it through such positions. -/
theorem alike_equallyHigh (names : Bool) :
    (∀ left right : Node, left.alike names right = true →
      left.comparedHeight = right.comparedHeight) ∧
    ∀ node child below : Node, child ∈ node.compared → child.Reaches below →
      node.alike names below = false ∧ below.alike names node = false := by
  refine ⟨fun left right => Node.comparedHeight_eq_of_alike, ?_⟩
  intro node child below member reached
  have lower : below.comparedHeight < node.comparedHeight :=
    Nat.lt_of_le_of_lt (Node.comparedHeight_le_of_reaches reached)
      (Node.comparedHeight_lt_of_mem member)
  have apart : ¬ node.alike names below = true := by
    intro alike
    have same := Node.comparedHeight_eq_of_alike alike
    omega
  rw [Node.alike_comm names below node]
  exact ⟨Bool.eq_false_of_not_eq_true apart, Bool.eq_false_of_not_eq_true apart⟩

/-- The variable `x`, at some span. -/
def variableX : Node :=
  .mk ⟨0, 1⟩ .identifier (.attribute "x" <| .optionalChild none <| .attribute false .done)

/-- An array of some elements. -/
def arrayOf (elements : List Node) : Node :=
  .mk ⟨0, 0⟩ .arrayLiteral (.children elements .done)

/-- The arrays `[x, x, [x]]` and `[x, [x], [x]]` are alike and equally high though the second holds
more nodes, and the first is not alike to the array inside it. -/
theorem alike_equallyHigh_arrays :
    (arrayOf [variableX, variableX, arrayOf [variableX]]).alike true
      (arrayOf [variableX, arrayOf [variableX], arrayOf [variableX]]) = true ∧
    (arrayOf [variableX, variableX, arrayOf [variableX]]).count <
      (arrayOf [variableX, arrayOf [variableX], arrayOf [variableX]]).count ∧
    (arrayOf [variableX, variableX, arrayOf [variableX]]).comparedHeight =
      (arrayOf [variableX, arrayOf [variableX], arrayOf [variableX]]).comparedHeight ∧
    (arrayOf [variableX, variableX, arrayOf [variableX]]).alike true (arrayOf [variableX]) =
      false := by
  have alike : (arrayOf [variableX, variableX, arrayOf [variableX]]).alike true
      (arrayOf [variableX, arrayOf [variableX], arrayOf [variableX]]) = true := by
    decide +kernel
  have inside : arrayOf [variableX] ∈
      (arrayOf [variableX, variableX, arrayOf [variableX]]).compared :=
    .tail _ (.tail _ (.head _))
  obtain ⟨same, apart⟩ := alike_equallyHigh true
  exact ⟨alike, by decide +kernel, same _ _ alike, (apart _ _ _ inside .refl).1⟩

end CodeClones.Syntax
