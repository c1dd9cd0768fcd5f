import CodeClones.Syntax.Node

/-!
# Candidates

The nodes of a file that are worth comparing. A candidate is never a leaf, never type-level and
never below a type, and never the block that is the body of a function or handler; in the
narrow scope it is a statement. `collect` walks a program with a list of nodes still to visit;
`gather` says the same by recursion over the tree.
-/

namespace CodeClones

open Syntax

/-- Which nodes are collected. -/
inductive Scope where
  /-- Statements and declarations. -/
  | statements
  /-- Every node that is neither a leaf nor a type. -/
  | comparable
deriving DecidableEq, Repr

/-- The word for a scope. -/
def Scope.word : Scope → String
  | .statements => "statements"
  | .comparable => "comparable"

/-- The scope named by a word. -/
def Scope.ofWord? (text : String) : Option Scope :=
  [.statements, .comparable].find? fun scope => scope.word == text

/-- Whether a node of a kind may be a candidate. -/
def Scope.admits (scope : Scope) (kind : Kind) : Bool :=
  !kind.isLeaf && !kind.isType &&
    match scope with
    | .statements => kind.isStatement
    | .comparable => true

/-- A node to be compared. -/
structure Candidate where
  /-- Name of the file that holds the node. -/
  file : String
  /-- Where the node stands in the file. -/
  span : Span
  /-- The node, with its span as the parser reported it. -/
  node : Node

namespace Candidate

/-- Whether a child of a node may be a candidate: it may, unless it is the block that is the
body of the node. -/
def mayCollect (parent child : Kind) : Bool :=
  !(parent.ownsBody && child == .block)

/-- The children of a node, each with whether it may be a candidate. -/
def steps (node : Node) : List (Node × Bool) :=
  node.children.map fun child => (child, mayCollect node.kind child.kind)

/-- The candidate that a node itself makes, if any. -/
def own (file : String) (offset : Nat) (scope : Scope) (node : Node) (eligible : Bool) :
    List Candidate :=
  if eligible && scope.admits node.kind then [⟨file, node.span.movedBack offset, node⟩] else []

/-- The candidates of a node and of all below it, in order. -/
def gather (file : String) (offset : Nat) (scope : Scope) (node : Node) (eligible : Bool) :
    List Candidate :=
  if node.kind.isType then []
  else
    own file offset scope node eligible ++
      node.children.attach.flatMap fun ⟨child, _⟩ =>
        gather file offset scope child (mayCollect node.kind child.kind)
termination_by sizeOf node
decreasing_by exact Node.sizeOf_lt_of_mem_children ‹_›

/-- Number of nodes still to visit, those below the pending ones included. -/
def pendingSize (pending : List (Node × Bool)) : Nat :=
  (pending.flatMap fun entry => entry.1.preorder).length

/-- The children of a node have together one node less than its tree. -/
theorem pendingSize_steps (node : Node) : pendingSize (steps node) + 1 = node.count := by
  unfold Node.count
  rw [Node.preorder_eq]
  simp only [pendingSize, steps, List.flatMap_map, List.length_cons]

/-- The candidates found so far, in reverse, and those of the nodes still to visit. -/
def collectOnto (file : String) (offset : Nat) (scope : Scope) (found : List Candidate) :
    List (Node × Bool) → List Candidate
  | [] => found.reverse
  | (node, eligible) :: pending =>
    if node.kind.isType then collectOnto file offset scope found pending
    else
      collectOnto file offset scope (own file offset scope node eligible ++ found)
        (steps node ++ pending)
termination_by pending => pendingSize pending
decreasing_by
  · have : 0 < node.preorder.length := by
      rw [Node.preorder_eq]
      exact Nat.succ_pos _
    simp only [pendingSize, List.flatMap_cons, List.length_append]
    omega
  · have := pendingSize_steps node
    simp only [pendingSize, List.flatMap_append, List.flatMap_cons, List.length_append,
      Node.count] at this ⊢
    omega

/-- The candidates of a program, in the order of the walk: each node before those below
it. The offset is taken off every span. -/
def collect (file : String) (offset : Nat) (scope : Scope) (body : List Node) :
    List Candidate :=
  collectOnto file offset scope [] (body.map fun node => (node, true))

end Candidate

end CodeClones
