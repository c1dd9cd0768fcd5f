import CodeClones.Candidates
import CodeClones.Proofs.Children
import CodeClones.Proofs.Likeness
import Mathlib.Data.List.Chain

/-!
# What a walk collects

The walk over a program holds the nodes still to visit, each with whether it may be a candidate.
Here it is compared with a plain list of all spots of the program: a spot is a node together with
the nodes above it, and every spot comes before those below it. The walk makes one candidate of
each spot that qualifies, in the order of that list. Whether a spot qualifies depends on its node,
on the node right above it, and on no type being on the way down to it.
-/

namespace CodeClones

open Syntax

/-! ## Spots -/

/-- A spot in a program: a node and the nodes above it, the nearest first. -/
structure Spot where
  /-- The node at the spot. -/
  node : Node
  /-- The nodes above it, from its parent to a top-level item. -/
  above : List Node

namespace Spot

/-- The nodes on the way up from the spot, its own node first. -/
def path (spot : Spot) : List Node :=
  spot.node :: spot.above

/-- Whether some node on the way down to the spot, its own included, is type-level. -/
def isInType (spot : Spot) : Bool :=
  spot.path.any fun node => node.kind.isType

/-- Whether the spot holds the block that is the body of the node right above it. -/
def isBody (spot : Spot) : Bool :=
  spot.node.kind == .block && spot.above.head?.any fun parent => parent.kind.ownsBody

/-- Whether the node at the spot is to be collected: nothing on the way down to it is type-level,
it is no leaf and no body, and in the narrow scope it is a statement. -/
def qualifies (scope : Scope) (spot : Spot) : Bool :=
  !spot.isInType && !spot.node.kind.isLeaf && !spot.isBody &&
    match scope with
    | .statements => spot.node.kind.isStatement
    | .comparable => true

/-- The candidate that the node at the spot makes. -/
def candidate (file : String) (offset : Nat) (spot : Spot) : Candidate :=
  ⟨file, spot.node.span.movedBack offset, spot.node⟩

end Spot

/-- Each node of the list is a child of the one behind it. -/
def WayUp (nodes : List Node) : Prop :=
  nodes.IsChain fun node parent => node ∈ parent.children

/-- The spots of a node and of all below it, each before those below it, given the nodes above
the node. -/
def spotsFrom (above : List Node) (node : Node) : List Spot :=
  ⟨node, above⟩ :: node.children.attach.flatMap fun ⟨child, _⟩ => spotsFrom (node :: above) child
termination_by sizeOf node
decreasing_by exact Node.sizeOf_lt_of_mem_children ‹_›

/-- The spots of a program, each before those below it. -/
def spots (body : List Node) : List Spot :=
  body.flatMap (spotsFrom [])

/-- A spot comes before those of the children of its node. -/
theorem spotsFrom_eq (above : List Node) (node : Node) :
    spotsFrom above node =
      ⟨node, above⟩ :: node.children.flatMap (spotsFrom (node :: above)) := by
  rw [spotsFrom]
  simp

/-- A property of all nodes follows if every node has it as soon as its children do. -/
theorem Syntax.Node.induction_on_children {motive : Node → Prop}
    (step : ∀ node : Node, (∀ child ∈ node.children, motive child) → motive node) (node : Node) :
    motive node :=
  Node.induction_on_stored
    (fun node ih => step node fun child member => ih child (Node.mem_children.mp member)) node

/-- The nodes at the spots of a node are those of its tree, in the same order. -/
theorem map_node_spotsFrom (above : List Node) (node : Node) :
    (spotsFrom above node).map Spot.node = node.preorder := by
  induction node using Node.induction_on_children generalizing above with
  | step node ih =>
    rw [spotsFrom_eq, Node.preorder_eq, List.map_cons, List.map_flatMap]
    congr 1
    exact List.flatMap_congr fun child member => ih child member (node :: above)

/-- The nodes at the spots of a program are those of its trees, in the same order. -/
theorem map_node_spots (body : List Node) :
    (spots body).map Spot.node = body.flatMap Node.preorder := by
  rw [spots, List.map_flatMap]
  exact List.flatMap_congr fun node _ => map_node_spotsFrom [] node

/-- The spots of a node are those from which a way up leads through the node and on through what
is above it. -/
theorem mem_spotsFrom_iff {above : List Node} {node : Node} {spot : Spot} :
    spot ∈ spotsFrom above node ↔
      ∃ front, spot.path = front ++ node :: above ∧ WayUp (front ++ [node]) := by
  induction node using Node.induction_on_children generalizing above with
  | step node ih =>
    rw [spotsFrom_eq, List.mem_cons, List.mem_flatMap]
    constructor
    · rintro (rfl | ⟨child, inside, member⟩)
      · exact ⟨[], rfl, List.isChain_singleton node⟩
      · obtain ⟨front, path, wayUp⟩ := (ih child inside).mp member
        refine ⟨front ++ [child], by simp [path], ?_⟩
        rw [List.append_assoc]
        exact List.isChain_append_cons_cons.mpr ⟨wayUp, inside, List.isChain_singleton node⟩
    · rintro ⟨front, path, wayUp⟩
      rcases List.eq_nil_or_concat' front with rfl | ⟨front, child, rfl⟩
      · obtain ⟨same, same'⟩ := List.cons_eq_cons.mp path
        exact Or.inl (by rw [← same, ← same'])
      · rw [List.append_assoc] at path wayUp
        obtain ⟨wayUp', inside, _⟩ := List.isChain_append_cons_cons.mp wayUp
        exact Or.inr ⟨child, inside, (ih child inside).mpr ⟨front, path, wayUp'⟩⟩

/-- The spots of a program are those from which a way up leads to a top-level item. -/
theorem mem_spots_iff {body : List Node} {spot : Spot} :
    spot ∈ spots body ↔ WayUp spot.path ∧ ∃ top ∈ body, spot.path.getLast? = some top := by
  simp only [spots, List.mem_flatMap, mem_spotsFrom_iff, List.getLast?_eq_some_iff]
  constructor
  · rintro ⟨top, inside, front, path, wayUp⟩
    exact ⟨path ▸ wayUp, top, inside, front, path⟩
  · rintro ⟨wayUp, top, inside, front, path⟩
    exact ⟨top, inside, front, path, path ▸ wayUp⟩

/-! ## The walk as recursion -/

namespace Candidate

variable {file : String} {offset : Nat} {scope : Scope}

/-- The candidates of a node that is not type-level are its own and those of its children. -/
theorem gather_eq {node : Node} (notType : node.kind.isType = false) (eligible : Bool) :
    gather file offset scope node eligible =
      own file offset scope node eligible ++ node.children.flatMap fun child =>
        gather file offset scope child (mayCollect node.kind child.kind) := by
  rw [gather, if_neg (Bool.eq_false_iff.mp notType)]
  simp

/-- The walk adds to what was found the candidates of the nodes still to visit, in order. -/
theorem collectOnto_eq (found : List Candidate) (pending : List (Node × Bool)) :
    collectOnto file offset scope found pending =
      found.reverse ++ pending.flatMap fun entry => gather file offset scope entry.1 entry.2 := by
  fun_induction collectOnto file offset scope found pending with
  | case1 found => simp
  | case2 found node eligible pending isType ih =>
    rw [ih, List.flatMap_cons, gather, if_pos isType, List.nil_append]
  | case3 found node eligible pending notType ih =>
    -- A node makes at most one candidate of its own, which needs no turning around.
    have single : (own file offset scope node eligible).reverse =
        own file offset scope node eligible := by
      unfold own
      split <;> rfl
    rw [ih, List.flatMap_cons, gather_eq (Bool.eq_false_iff.mpr notType),
      List.reverse_append, single, List.flatMap_append, steps, List.flatMap_map]
    simp only [List.append_assoc]

/-- Collecting a program is recursion over its items, one after the other. -/
theorem collect_eq_gather (body : List Node) :
    collect file offset scope body =
      body.flatMap fun node => gather file offset scope node true := by
  rw [collect, collectOnto_eq, List.flatMap_map]
  rfl

/-! ## The walk as a list of spots -/

/-- A child may be a candidate unless it is the body of its parent. -/
theorem mayCollect_eq (node child : Node) (above : List Node) :
    mayCollect node.kind child.kind = !(⟨child, node :: above⟩ : Spot).isBody := by
  rw [mayCollect, Spot.isBody, Bool.and_comm]
  rfl

/-- A spot with no type on the way down to it qualifies exactly if it holds no body and its node
is admitted. -/
theorem qualifies_eq (spot : Spot) (outside : ∀ node ∈ spot.path, node.kind.isType = false) :
    spot.qualifies scope = (!spot.isBody && scope.admits spot.node.kind) := by
  have notInType : spot.isInType = false := by
    rw [Spot.isInType, List.any_eq_false]
    exact fun node member => Bool.eq_false_iff.mp (outside node member)
  have notType : spot.node.kind.isType = false := outside spot.node List.mem_cons_self
  unfold Spot.qualifies Scope.admits
  rw [notInType, notType]
  cases spot.node.kind.isLeaf <;> cases spot.isBody <;> rfl

/-- Below nodes that are not type-level, a node that is not type-level either makes a candidate
exactly if its spot qualifies. -/
theorem own_eq_spots {above : List Node} {node : Node}
    (outside : ∀ upper ∈ node :: above, upper.kind.isType = false) :
    own file offset scope node (!(⟨node, above⟩ : Spot).isBody) =
      ([⟨node, above⟩].filter (Spot.qualifies scope)).map (Spot.candidate file offset) := by
  rw [own, ← qualifies_eq ⟨node, above⟩ outside, List.filter_cons, List.filter_nil,
    apply_ite (List.map (Spot.candidate file offset))]
  rfl

/-- At and below a type-level node no spot qualifies, since each has that node on its way up. -/
theorem filter_spotsFrom_eq_nil {above : List Node} {node : Node}
    (isType : node.kind.isType = true) :
    (spotsFrom above node).filter (Spot.qualifies scope) = [] := by
  rw [List.filter_eq_nil_iff]
  intro spot member
  obtain ⟨front, path, _⟩ := mem_spotsFrom_iff.mp member
  have onPath : node ∈ spot.path := by
    rw [path]
    exact List.mem_append_right front List.mem_cons_self
  have inType : spot.isInType = true := List.any_eq_true.mpr ⟨node, onPath, isType⟩
  simp [Spot.qualifies, inType]

/-- Below nodes that are not type-level, the candidates of a node and of all below it are those of
the spots that qualify. -/
theorem gather_eq_spots {above : List Node}
    (outside : ∀ upper ∈ above, upper.kind.isType = false) (node : Node) :
    gather file offset scope node (!(⟨node, above⟩ : Spot).isBody) =
      ((spotsFrom above node).filter (Spot.qualifies scope)).map
        (Spot.candidate file offset) := by
  induction node using Node.induction_on_children generalizing above with
  | step node ih =>
    cases isType : node.kind.isType with
    | true => rw [gather, if_pos isType, filter_spotsFrom_eq_nil isType, List.map_nil]
    | false =>
      have outside' : ∀ upper ∈ node :: above, upper.kind.isType = false :=
        List.forall_mem_cons.mpr ⟨isType, outside⟩
      have parts : spotsFrom above node =
          [⟨node, above⟩] ++ node.children.flatMap (spotsFrom (node :: above)) :=
        spotsFrom_eq above node
      rw [gather_eq isType, own_eq_spots outside', parts, List.filter_append, List.map_append,
        List.filter_flatMap, List.map_flatMap]
      congr 1
      refine List.flatMap_congr fun child member => ?_
      rw [mayCollect_eq node child above]
      exact ih child member outside'

/-- Collecting a program makes one candidate of each spot that qualifies, in order. -/
theorem collect_eq_filter_spots (body : List Node) :
    collect file offset scope body =
      ((spots body).filter (Spot.qualifies scope)).map (Spot.candidate file offset) := by
  rw [collect_eq_gather, spots, List.filter_flatMap, List.map_flatMap]
  refine List.flatMap_congr fun node _ => ?_
  have top : (⟨node, []⟩ : Spot).isBody = false := Bool.and_false _
  rw [← gather_eq_spots (List.forall_mem_nil _) node, top]
  rfl

/-- In the narrow scope those spots qualify that do in the wide one and hold a statement. -/
theorem qualifies_statements (spot : Spot) :
    spot.qualifies .statements =
      (spot.node.kind.isStatement && spot.qualifies .comparable) := by
  simp only [Spot.qualifies, Bool.and_true]
  exact Bool.and_comm _ _

/-- Collecting statements is collecting in the wide scope and keeping the statements. -/
theorem collect_statements (body : List Node) :
    collect file offset .statements body =
      (collect file offset .comparable body).filter fun candidate =>
        candidate.node.kind.isStatement := by
  rw [collect_eq_filter_spots, collect_eq_filter_spots, List.filter_map, List.filter_filter]
  congr 1
  exact List.filter_congr fun spot _ => qualifies_statements spot

/-- Collecting is recursion over the trees of a program: each node before its children, in the
order in which they are listed. It makes one candidate for each spot that qualifies, in the order
of the spots. These are all spots from which a way up leads to a top-level item, in the order of
the nodes of the trees. Collecting statements is the same as collecting in the wide scope and
keeping the statements. -/
theorem collect_eq_spots (file : String) (offset : Nat) (scope : Scope) (body : List Node) :
    collect file offset scope body =
      body.flatMap (fun node => gather file offset scope node true) ∧
    collect file offset scope body =
      ((spots body).filter (Spot.qualifies scope)).map (Spot.candidate file offset) ∧
    (∀ spot, spot ∈ spots body ↔
      WayUp spot.path ∧ ∃ top ∈ body, spot.path.getLast? = some top) ∧
    (spots body).map Spot.node = body.flatMap Node.preorder ∧
    collect file offset .statements body =
      (collect file offset .comparable body).filter fun candidate =>
        candidate.node.kind.isStatement :=
  ⟨collect_eq_gather body, collect_eq_filter_spots body, fun _ => mem_spots_iff,
    map_node_spots body, collect_statements body⟩

end Candidate

end CodeClones
