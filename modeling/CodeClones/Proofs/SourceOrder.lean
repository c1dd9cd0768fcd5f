import CodeClones.Proofs.Collection
import CodeClones.Proofs.Lowering.Levels
import CodeClones.Proofs.Lowering.OrderedRules
import Mathlib.Data.List.Flatten

/-!
# Candidates in the order of the source

The statements of an arranged tree, as they are written, begin one behind the other. The walk that
collects candidates visits them in the order in which nodes list their children, which is another
one at `do` loops and at casts in front of an expression. So the statements that it collects begin
in ascending order exactly if this makes no difference there, as when only one of the two children
has candidates. Where both have, those written first come last.
-/

namespace CodeClones

open Syntax Concrete Lowering

/-! ## The walk and the statements as written -/

/-- A node that turns its children around has two of them. -/
theorem Syntax.Node.exists_children_of_turnsAround {node : Node}
    (turned : node.kind.turnsAround = true) :
    ∃ first second, node.children = [first, second] ∧ node.written = [second, first] := by
  obtain ⟨span, kind, slots⟩ := node
  cases kind <;> cases turned
  all_goals
    match slots with
    | .child first (.child second .done) => exact ⟨first, second, rfl, rfl⟩

/-- Other nodes list their children as they are written. -/
theorem Syntax.Node.written_of_not_turnsAround {node : Node}
    (straight : node.kind.turnsAround = false) : node.written = node.children := by
  rw [Node.written, if_neg (Bool.eq_false_iff.mp straight)]

namespace Candidate

variable {file : String} {offset : Nat}

/-- Where the candidate begins. -/
abbrev start (candidate : Candidate) : Nat :=
  candidate.span.start

/-- If the node lists its children turned around, no candidate of a child begins behind one of a
child that is listed later. -/
def Straight (file : String) (offset : Nat) (node : Node) : Prop :=
  node.kind.turnsAround = true → node.children.Pairwise fun child later =>
    ∀ candidate ∈ gather file offset .statements child (mayCollect node.kind child.kind),
      ∀ other ∈ gather file offset .statements later (mayCollect node.kind later.kind),
        candidate.start ≤ other.start

instance (file : String) (offset : Nat) (node : Node) : Decidable (Straight file offset node) :=
  inferInstanceAs (Decidable (_ → List.Pairwise _ _))

/-- A node that makes a candidate is a statement that begins where the candidate does. -/
theorem starts_own_sublist (node : Node) (eligible : Bool) :
    ((own file offset .statements node eligible).map start).Sublist
      ((if node.kind.isStatement then [node.span.start] else []).map (· - offset)) := by
  unfold own
  split
  · rename_i admitted
    have isStatement : node.kind.isStatement = true := by
      simp only [Scope.admits, Bool.and_eq_true] at admitted
      exact admitted.2.2
    rw [if_pos isStatement]
    exact List.Sublist.refl _
  · exact List.nil_sublist _

/-- If all members of two lists are the same, it does not matter which list comes first. -/
theorem append_comm_of_forall_eq {front back : List Nat}
    (same : ∀ number ∈ front, ∀ other ∈ back, number = other) : front ++ back = back ++ front := by
  cases front with
  | nil => exact (List.append_nil back).symm
  | cons number numbers =>
    cases back with
    | nil => exact List.append_nil _
    | cons other others =>
      have fronts := List.eq_replicate_of_mem fun member inside =>
        same member inside other List.mem_cons_self
      have backs := List.eq_replicate_of_mem fun member inside =>
        (same number List.mem_cons_self member inside).symm
      rw [fronts, backs, same number List.mem_cons_self other List.mem_cons_self,
        List.replicate_append_replicate, List.replicate_append_replicate, Nat.add_comm]

/-- Candidates of two children that are listed turned around begin where statements do, in the order
in which these are written, if none of the first child begins behind one of the second. As none
begins before one of the second either, all of them begin at the same place or one child has
none. -/
theorem starts_append_sublist {first second : List Candidate} {late early : List Nat}
    (startsFirst : (first.map start).Sublist (late.map (· - offset)))
    (startsSecond : (second.map start).Sublist (early.map (· - offset)))
    (asWritten : ∀ onset ∈ early, ∀ later ∈ late, onset ≤ later)
    (asListed : ∀ candidate ∈ first, ∀ other ∈ second, candidate.start ≤ other.start) :
    (first.map start ++ second.map start).Sublist
      (early.map (· - offset) ++ late.map (· - offset)) := by
  have same : ∀ number ∈ first.map start, ∀ other ∈ second.map start, number = other := by
    intro number inFirst other inSecond
    obtain ⟨later, inLate, fromLate⟩ := List.mem_map.mp (startsFirst.subset inFirst)
    obtain ⟨onset, inEarly, fromEarly⟩ := List.mem_map.mp (startsSecond.subset inSecond)
    obtain ⟨candidate, collected, rfl⟩ := List.mem_map.mp inFirst
    obtain ⟨behind, collectedBehind, rfl⟩ := List.mem_map.mp inSecond
    have listed := asListed candidate collected behind collectedBehind
    have written := asWritten onset inEarly later inLate
    omega
  rw [append_comm_of_forall_eq same]
  exact startsSecond.append startsFirst

/-- Candidates begin where statements do, in the order in which these are written. -/
theorem starts_gather_sublist {node : Node} {above : List Node}
    (outside : ∀ upper ∈ above, upper.kind.isType = false)
    (straight : ∀ spot ∈ spotsFrom above node, spot.isInType = false →
      Straight file offset spot.node)
    (ascending : node.onsets.Pairwise (· ≤ ·)) (eligible : Bool) :
    ((gather file offset .statements node eligible).map start).Sublist
      (node.onsets.map (· - offset)) := by
  induction node using Node.induction_on_children generalizing above eligible with
  | step node ih =>
    cases isType : node.kind.isType with
    | true =>
      rw [gather, if_pos isType]
      exact List.nil_sublist _
    | false =>
      have outside' : ∀ upper ∈ node :: above, upper.kind.isType = false :=
        List.forall_mem_cons.mpr ⟨isType, outside⟩
      rw [spotsFrom_eq, List.forall_mem_cons, List.forall_mem_flatMap] at straight
      rw [Node.onsets_eq, if_neg (Bool.eq_false_iff.mp isType)] at ascending ⊢
      have each : ∀ child ∈ node.children,
          ((gather file offset .statements child (mayCollect node.kind child.kind)).map
            start).Sublist (child.onsets.map (· - offset)) := by
        intro child member
        have written := Node.mem_written.mpr (Node.mem_children.mp member)
        have below := (List.pairwise_append.mp ascending).2.1
        exact ih child member outside' (straight.2 child member)
          ((List.pairwise_flatMap.mp below).1 child written) _
      rw [gather_eq isType, List.map_append, List.map_append]
      refine (starts_own_sublist node eligible).append ?_
      rw [List.map_flatMap, List.map_flatMap]
      cases turned : node.kind.turnsAround with
      | false =>
        rw [Node.written_of_not_turnsAround turned]
        exact List.Sublist.flatMap_right _ each
      | true =>
        obtain ⟨first, second, listed, written⟩ := Node.exists_children_of_turnsAround turned
        have notInType : (⟨node, above⟩ : Spot).isInType = false := by
          rw [Spot.isInType, List.any_eq_false]
          exact fun upper member => Bool.eq_false_iff.mp (outside' upper member)
        have asListed := straight.1 notInType turned
        rw [listed, List.pairwise_pair] at asListed
        rw [listed, List.forall_mem_cons, List.forall_mem_singleton] at each
        simp only [listed, written, List.flatMap_cons, List.flatMap_nil, List.append_nil]
          at ascending ⊢
        have asWritten := (List.pairwise_append.mp (List.pairwise_append.mp ascending).2.1).2.2
        exact starts_append_sublist each.1 each.2 asWritten asListed

/-- What is collected below a node that the walk comes to is collected in the walk. -/
theorem gather_below_sublist {scope : Scope} {node : Node} {above : List Node} {spot : Spot}
    (member : spot ∈ spotsFrom above node) (outside : spot.isInType = false) (eligible : Bool) :
    (spot.node.children.flatMap fun child =>
      gather file offset scope child (mayCollect spot.node.kind child.kind)).Sublist
        (gather file offset scope node eligible) := by
  induction node using Node.induction_on_children generalizing above eligible with
  | step node ih =>
    have notType : node.kind.isType = false := by
      obtain ⟨front, path, _⟩ := mem_spotsFrom_iff.mp member
      rw [Spot.isInType, List.any_eq_false, path] at outside
      exact Bool.eq_false_iff.mpr (outside node (by simp))
    rw [gather_eq notType]
    rw [spotsFrom_eq, List.mem_cons, List.mem_flatMap] at member
    rcases member with rfl | ⟨child, inside, member⟩
    · exact List.sublist_append_right _ _
    · have among := List.sublist_flatten_of_mem (List.mem_map_of_mem (f := fun child =>
        gather file offset scope child (mayCollect node.kind child.kind)) inside)
      exact (ih child inside member _).trans (among.trans (List.sublist_append_right _ _))

/-! ## Ascending candidates -/

/-- The statements of a program that an arranged tree gives begin in ascending order. -/
theorem onsets_ascending {levels : Nat} {source : String} {points : Nat → Point} {root : Tree}
    {program : Program}
    (arranged : root.Arranged source)
    (accepted : Program.ofTree levels source points root = .ok program) :
    (program.body.flatMap Node.onsets).Pairwise (· ≤ ·) := by
  have body : program.body = (programBody source levels root).value := by
    rw [(ofTree_eq_ok_iff.mp accepted).2.2]
  have traces : Traces (programItems root) program.body := by
    rw [body]
    exact traces_all_map fun _ member =>
      traces_lower levels (arranged.of_mem_parts (List.mem_filter.mp member).1)
  exact (traces.fits (arranged.parts_inOrder.filter _) arranged fun _ member =>
    Tree.mem_subtrees_of_mem_parts (List.mem_filter.mp member).1).ascending

/-- The statements collected of a program that an arranged tree gives begin in ascending order
exactly if at every `do` loop and every cast in front of an expression that the walk comes to, no
candidate of the child listed first begins behind one of the other child. All other nodes keep the
order, whatever they hold. -/
theorem collect_ascending_iff {levels : Nat} {source : String} {points : Nat → Point}
    {root : Tree} {program : Program}
    (arranged : root.Arranged source)
    (accepted : Program.ofTree levels source points root = .ok program) :
    ((collect file offset .statements program.body).Pairwise fun earlier later =>
        earlier.span.start ≤ later.span.start) ↔
      ∀ spot ∈ spots program.body, spot.isInType = false → Straight file offset spot.node := by
  rw [collect_eq_gather, spots]
  constructor
  · intro ascending spot member outside _
    obtain ⟨item, inside, member⟩ := List.mem_flatMap.mp member
    have itself := (List.pairwise_flatMap.mp ascending).1 item inside
    have below := itself.sublist (gather_below_sublist member outside true)
    exact (List.pairwise_flatMap.mp below).2
  · intro straight
    rw [List.forall_mem_flatMap] at straight
    have statements := onsets_ascending arranged accepted
    have starts : ((program.body.flatMap fun node =>
        gather file offset .statements node true).map start).Sublist
          ((program.body.flatMap Node.onsets).map (· - offset)) := by
      rw [List.map_flatMap, List.map_flatMap]
      exact List.Sublist.flatMap_right _ fun node member =>
        starts_gather_sublist (List.forall_mem_nil _) (straight node member)
          ((List.pairwise_flatMap.mp statements).1 node member) true
    have ascending : ((program.body.flatMap Node.onsets).map (· - offset)).Pairwise (· ≤ ·) :=
      List.pairwise_map.mpr (statements.imp fun before => Nat.sub_le_sub_right before offset)
    exact List.pairwise_map.mp (ascending.sublist starts)

/-- The tree of `do a; while (b);`. -/
def plainLoop : Tree :=
  .node ⟨0, "program", ⟨0, 16⟩, true, none, false, false, false, []⟩
    [.node ⟨1, "do_statement", ⟨0, 16⟩, true, none, false, false, false, []⟩
      [.node ⟨2, "do", ⟨0, 2⟩, false, none, false, false, false, []⟩ [],
        .node ⟨3, "expression_statement", ⟨3, 5⟩, true, some "body", false, false, false, []⟩
          [.node ⟨4, "identifier", ⟨3, 4⟩, true, none, false, false, false, []⟩ [],
            .node ⟨5, ";", ⟨4, 5⟩, false, none, false, false, false, []⟩ []],
        .node ⟨6, "while", ⟨6, 11⟩, false, none, false, false, false, []⟩ [],
        .node ⟨7, "parenthesized_expression", ⟨12, 15⟩, true, some "condition", false, false, false,
            []⟩
          [.node ⟨8, "(", ⟨12, 13⟩, false, none, false, false, false, []⟩ [],
            .node ⟨9, "identifier", ⟨13, 14⟩, true, none, false, false, false, []⟩ [],
            .node ⟨10, ")", ⟨14, 15⟩, false, none, false, false, false, []⟩ []],
        .node ⟨11, ";", ⟨15, 16⟩, false, none, false, false, false, []⟩ []]]

/-- The condition of the loop holds no statement: the loop and its body come in order. -/
theorem collect_ascending_iff_plainLoop :
    plainLoop.Arranged "do a; while (b);" ∧
    ∃ program, Program.ofTree maxNesting "do a; while (b);" (pointAt "do a; while (b);") plainLoop =
      .ok program ∧
      (∀ spot ∈ spots program.body, spot.isInType = false → Straight "a" 0 spot.node) ∧
      (collect "a" 0 .statements program.body).map start = [0, 3] ∧
      (collect "a" 0 .statements program.body).Pairwise fun earlier later =>
        earlier.span.start ≤ later.span.start := by
  have arranged : plainLoop.Arranged "do a; while (b);" := by decide
  have accepted : Program.ofTree maxNesting "do a; while (b);" (pointAt "do a; while (b);")
      plainLoop = .ok
      ⟨plainLoop.span, (programBody "do a; while (b);" maxNesting plainLoop).value⟩ := rfl
  have straight : ∀ spot ∈ spots (programBody "do a; while (b);" maxNesting plainLoop).value,
      spot.isInType = false → Straight "a" 0 spot.node := by decide +kernel
  exact ⟨arranged, _, accepted, straight, by decide +kernel,
    (collect_ascending_iff arranged accepted).mpr straight⟩

/-- The tree of `do a; while (() => { b; });`. -/
def crossedLoop : Tree :=
  .node ⟨0, "program", ⟨0, 27⟩, true, none, false, false, false, []⟩
    [.node ⟨1, "do_statement", ⟨0, 27⟩, true, none, false, false, false, []⟩
      [.node ⟨2, "do", ⟨0, 2⟩, false, none, false, false, false, []⟩ [],
        .node ⟨3, "expression_statement", ⟨3, 5⟩, true, some "body", false, false, false, []⟩
          [.node ⟨4, "identifier", ⟨3, 4⟩, true, none, false, false, false, []⟩ [],
            .node ⟨5, ";", ⟨4, 5⟩, false, none, false, false, false, []⟩ []],
        .node ⟨6, "while", ⟨6, 11⟩, false, none, false, false, false, []⟩ [],
        .node ⟨7, "parenthesized_expression", ⟨12, 26⟩, true, some "condition", false, false, false,
            []⟩
          [.node ⟨8, "(", ⟨12, 13⟩, false, none, false, false, false, []⟩ [],
            .node ⟨9, "arrow_function", ⟨13, 25⟩, true, none, false, false, false, []⟩
              [.node ⟨10, "formal_parameters", ⟨13, 15⟩, true, some "parameters", false, false,
                  false, []⟩
                [.node ⟨11, "(", ⟨13, 14⟩, false, none, false, false, false, []⟩ [],
                  .node ⟨12, ")", ⟨14, 15⟩, false, none, false, false, false, []⟩ []],
                .node ⟨13, "=>", ⟨16, 18⟩, false, none, false, false, false, []⟩ [],
                .node ⟨14, "statement_block", ⟨19, 25⟩, true, some "body", false, false, false,
                    []⟩
                  [.node ⟨15, "\x7b", ⟨19, 20⟩, false, none, false, false, false, []⟩ [],
                    .node ⟨16, "expression_statement", ⟨21, 23⟩, true, none, false, false, false,
                        []⟩
                      [.node ⟨17, "identifier", ⟨21, 22⟩, true, none, false, false, false, []⟩ [],
                        .node ⟨18, ";", ⟨22, 23⟩, false, none, false, false, false, []⟩ []],
                    .node ⟨19, "\x7d", ⟨24, 25⟩, false, none, false, false, false, []⟩ []]],
            .node ⟨20, ")", ⟨25, 26⟩, false, none, false, false, false, []⟩ []],
        .node ⟨21, ";", ⟨26, 27⟩, false, none, false, false, false, []⟩ []]]

/-- The statement in the condition of the loop comes before the body, which is written first. -/
theorem collect_crossedLoop :
    crossedLoop.Arranged "do a; while (() => \x7b b; \x7d);" ∧
    ∃ program, Program.ofTree maxNesting "do a; while (() => \x7b b; \x7d);"
        (pointAt "do a; while (() => \x7b b; \x7d);") crossedLoop = .ok program ∧
      (collect "a" 0 .statements program.body).map start = [0, 21, 3] ∧
      ¬ (collect "a" 0 .statements program.body).Pairwise fun earlier later =>
        earlier.span.start ≤ later.span.start := by
  refine ⟨by decide, _, rfl, ?_⟩
  have starts : (collect "a" 0 .statements
      (programBody "do a; while (() => \x7b b; \x7d);" maxNesting crossedLoop).value).map start =
        [0, 21, 3] := by decide +kernel
  refine ⟨starts, fun ascending => ?_⟩
  have ordered := List.pairwise_map.mpr ascending
  rw [starts] at ordered
  revert ordered
  decide

end Candidate

end CodeClones
