import CodeClones.Proofs.Children
import CodeClones.Proofs.Grouping.Classes
import CodeClones.Proofs.Grouping.FixedPoint

/-!
# Parsers with a prologue

Some parsers report all positions behind a prologue of their own. Its length shows in the program
of the empty text and is taken off the spans of candidates, and off nothing else: nodes keep
their spans, and where two fields interleave, the order of a walk goes by them. Here every span
of a program is moved on, at every depth, and everything behind the parser gives the same.
-/

namespace CodeClones

/-- Both ends moved on. -/
def Span.movedOn (span : Span) (distance : Nat) : Span :=
  ⟨span.start + distance, span.stop + distance⟩

/-- What a prologue and its correction leave is the original span, also where the correction
stops at the beginning of the text. -/
theorem Span.movedBack_movedOn (span : Span) (distance offset : Nat) :
    (span.movedOn distance).movedBack (offset + distance) = span.movedBack offset := by
  simp only [movedOn, movedBack, Nat.add_sub_add_right]

namespace Syntax

mutual

/-- The node and all nodes below it, moved on. -/
def Node.movedOn (distance : Nat) : Node → Node
  | .mk span kind slots => .mk (span.movedOn distance) kind (slots.movedOn distance)

/-- Contents with all nodes moved on. -/
def Slots.movedOn (distance : Nat) : {fields : List Field} → Slots fields → Slots fields
  | _, .done => .done
  | _, .child node others => .child (node.movedOn distance) (others.movedOn distance)
  | _, .optionalChild node others =>
    .optionalChild
      (match node with
      | none => none
      | some node => some (node.movedOn distance))
      (others.movedOn distance)
  | _, .children nodes others => .children (allMovedOn distance nodes) (others.movedOn distance)
  | _, .optionalChildren nodes others =>
    .optionalChildren
      (match nodes with
      | none => none
      | some nodes => some (allMovedOn distance nodes))
      (others.movedOn distance)
  | _, .attribute value others => .attribute value (others.movedOn distance)

/-- Nodes and all nodes below them, moved on. -/
def allMovedOn (distance : Nat) : List Node → List Node
  | [] => []
  | node :: others => node.movedOn distance :: allMovedOn distance others

end

/-- The program with all its spans moved on. -/
def Program.movedOn (distance : Nat) (program : Program) : Program :=
  ⟨program.span.movedOn distance, program.body.map (Node.movedOn distance)⟩

variable {distance : Nat}

/-- Nodes in a list are moved on one by one. -/
theorem allMovedOn_eq_map (nodes : List Node) :
    allMovedOn distance nodes = nodes.map (Node.movedOn distance) := by
  induction nodes with
  | nil => rfl
  | cons node others ih => rw [allMovedOn, ih, List.map_cons]

/-- Moving a node on leaves its kind as it is. -/
@[simp]
theorem Node.kind_movedOn (node : Node) : (node.movedOn distance).kind = node.kind := by
  cases node
  rw [movedOn]
  rfl

/-- Moving a node on moves its span. -/
@[simp]
theorem Node.span_movedOn (node : Node) :
    (node.movedOn distance).span = node.span.movedOn distance := by
  cases node
  rw [movedOn]
  rfl

/-- The nodes stored in moved contents are the stored nodes, moved. -/
theorem Slots.stored_movedOn : {fields : List Field} → (slots : Slots fields) →
    (slots.movedOn distance).stored = slots.stored.map (Node.movedOn distance)
  | _, .done => rfl
  | _, .child node others => by
    simp only [movedOn, stored, List.map_cons, stored_movedOn others]
  | _, .optionalChild node others => by
    cases node <;> simp [movedOn, stored, stored_movedOn others]
  | _, .children nodes others => by
    simp only [movedOn, stored, List.map_append, stored_movedOn others, allMovedOn_eq_map]
  | _, .optionalChildren nodes others => by
    cases nodes <;> simp [movedOn, stored, stored_movedOn others, allMovedOn_eq_map]
  | _, .attribute value others => by
    simp only [movedOn, stored, stored_movedOn others]

/-- The nodes stored in a moved node are its stored nodes, moved. -/
theorem Node.stored_movedOn (node : Node) :
    (node.movedOn distance).stored = node.stored.map (Node.movedOn distance) := by
  cases node with
  | mk span kind slots =>
    rw [movedOn]
    exact Slots.stored_movedOn slots

/-- Moving all nodes by the same distance keeps the order in which they start. -/
theorem Node.children_movedOn (node : Node) :
    (node.movedOn distance).children = node.children.map (Node.movedOn distance) := by
  have order : ∀ left ∈ node.stored, ∀ right ∈ node.stored,
      decide (left.span.start ≤ right.span.start) =
        decide ((left.movedOn distance).span.start ≤ (right.movedOn distance).span.start) := by
    intro left _ right _
    rw [span_movedOn, span_movedOn, Span.movedOn, Span.movedOn]
    simp only [Nat.add_le_add_iff_right]
  have kind : (node.movedOn distance).kind = node.kind := node.kind_movedOn
  cases interleaves : node.kind.interleaves with
  | true =>
    rw [children_eq_mergeSort interleaves, children_eq_mergeSort (kind.symm ▸ interleaves),
      stored_movedOn]
    exact (List.map_mergeSort order).symm
  | false =>
    rw [children_eq_stored interleaves, children_eq_stored (kind.symm ▸ interleaves), stored_movedOn]

mutual

/-- A node that is moved on is alike to the same nodes. -/
theorem Node.alike_movedOn (names : Bool) :
    (node : Node) → (node.movedOn distance).alike names = node.alike names
  | .mk span kind slots => by
    funext other
    simp only [Node.movedOn, Node.alike, Slots.agree_movedOn names slots]

/-- Contents whose nodes are moved on agree with the same contents. -/
theorem Slots.agree_movedOn (names : Bool) : {fields : List Field} → (slots : Slots fields) →
    (slots.movedOn distance).agree names = slots.agree names
  | _, .done => rfl
  | _, .child node others => by
    funext contents
    cases contents
    simp only [Slots.movedOn, Slots.agree, Node.alike_movedOn _ node,
      Slots.agree_movedOn names others]
  | _, .optionalChild none others => by
    funext contents
    cases contents with
    | optionalChild other _ =>
      cases other <;>
        simp only [Slots.movedOn, Slots.agree, Slots.agree_movedOn names others]
  | _, .optionalChild (some node) others => by
    funext contents
    cases contents with
    | optionalChild other _ =>
      cases other <;>
        simp only [Slots.movedOn, Slots.agree, Node.alike_movedOn _ node,
          Slots.agree_movedOn names others]
  | _, .children nodes others => by
    funext contents
    cases contents
    simp only [Slots.movedOn, Slots.agree, likeness_movedOn _ nodes,
      Slots.agree_movedOn names others]
  | _, .optionalChildren none others => by
    funext contents
    cases contents with
    | optionalChildren other _ =>
      cases other <;>
        simp only [Slots.movedOn, Slots.agree, Slots.agree_movedOn names others]
  | _, .optionalChildren (some nodes) others => by
    funext contents
    cases contents with
    | optionalChildren other _ =>
      cases other <;>
        simp only [Slots.movedOn, Slots.agree, likeness_movedOn _ nodes,
          Slots.agree_movedOn names others]
  | _, .attribute value others => by
    funext contents
    cases contents
    simp only [Slots.movedOn, Slots.agree, Slots.agree_movedOn names others]

/-- Nodes that are moved on are tested for likeness in the same way. -/
theorem likeness_movedOn (names : Bool) :
    (nodes : List Node) → likeness names (allMovedOn distance nodes) = likeness names nodes
  | [] => rfl
  | node :: others => by
    simp only [allMovedOn, likeness, Node.alike_movedOn names node, likeness_movedOn names others]

end

/-- Likeness does not depend on where the two nodes stand. -/
theorem Node.alike_movedOn_movedOn (names : Bool) (left right : Node) :
    (left.movedOn distance).alike names (right.movedOn distance) = left.alike names right := by
  rw [alike_movedOn, alike_comm, alike_movedOn, alike_comm]

end Syntax

open Syntax Grouping

/-! ## Candidates -/

/-- The candidate at the same place with its node moved on. -/
def Candidate.movedOn (distance : Nat) (candidate : Candidate) : Candidate :=
  ⟨candidate.file, candidate.span, candidate.node.movedOn distance⟩

variable {distance : Nat}

namespace Candidate

/-- A node moved on with the offset gives its own candidate moved on, if it gives one. -/
theorem own_movedOn (file : String) (offset : Nat) (scope : Scope) (node : Node)
    (eligible : Bool) :
    own file (offset + distance) scope (node.movedOn distance) eligible =
      (own file offset scope node eligible).map (movedOn distance) := by
  unfold own
  rw [Node.kind_movedOn, Node.span_movedOn, Span.movedBack_movedOn]
  split <;> rfl

/-- The walk goes from a moved node to its children, moved. -/
theorem steps_movedOn (node : Node) :
    steps (node.movedOn distance) =
      (steps node).map fun entry => (entry.1.movedOn distance, entry.2) := by
  rw [steps, steps, Node.children_movedOn, Node.kind_movedOn, List.map_map, List.map_map]
  refine List.map_congr_left fun child _ => ?_
  rw [Function.comp_apply, Function.comp_apply, Node.kind_movedOn]

/-- The walk meets the same nodes in the same order. -/
theorem collectOnto_movedOn (file : String) (offset : Nat) (scope : Scope)
    (found : List Candidate) (pending : List (Node × Bool)) :
    collectOnto file (offset + distance) scope (found.map (movedOn distance))
        (pending.map fun entry => (entry.1.movedOn distance, entry.2)) =
      (collectOnto file offset scope found pending).map (movedOn distance) := by
  fun_induction collectOnto file offset scope found pending with
  | case1 found => rw [List.map_nil, collectOnto, List.map_reverse]
  | case2 found node eligible pending isType ih =>
    rw [List.map_cons, collectOnto, Node.kind_movedOn, if_pos isType, ih]
  | case3 found node eligible pending notType ih =>
    rw [List.map_cons, collectOnto, Node.kind_movedOn, if_neg notType, own_movedOn, steps_movedOn,
      ← List.map_append, ← List.map_append, ih]

/-- A body moved on with the offset gives its candidates moved on. -/
theorem collect_movedOn (file : String) (offset : Nat) (scope : Scope) (body : List Node) :
    collect file (offset + distance) scope (body.map (Node.movedOn distance)) =
      (collect file offset scope body).map (movedOn distance) := by
  have pending : ((body.map (Node.movedOn distance)).map fun node => (node, true)) =
      (body.map fun node => (node, true)).map fun entry => (entry.1.movedOn distance, entry.2) := by
    rw [List.map_map, List.map_map]
    rfl
  rw [collect, collect, pending]
  exact collectOnto_movedOn file offset scope [] _

end Candidate

/-! ## Groups -/

/-- Moving nodes on leaves the groups as they are. -/
theorem Grouping.rawGroups_movedOn (names : Bool) (deadline : Option Deadline)
    (candidates : List Candidate) :
    rawGroups names deadline (candidates.map (Candidate.movedOn distance)) =
      rawGroups names deadline candidates := by
  have group : ∀ (peers : List Numbered) (base : Numbered),
      groupOf names (peers.map (Prod.map (Candidate.movedOn distance) id))
        (Prod.map (Candidate.movedOn distance) id base) = groupOf names peers base := by
    intro peers base
    have tested : ∀ peer : Numbered,
        base.1.node.alike names peer.1.node =
          (base.1.movedOn distance).node.alike names (peer.1.movedOn distance).node := by
      intro peer
      exact (Node.alike_movedOn_movedOn names _ _).symm
    rw [groupOf, groupOf, List.filter_map, List.map_map]
    simp only [tested]
    rfl
  rw [rawGroups_eq_plain, rawGroups_eq_plain, rawGroupsPlain, rawGroupsPlain, List.zipIdx_map,
    List.map_map, List.length_map]
  refine List.map_congr_left fun base _ => ?_
  rw [Function.comp_apply, group]
  rfl

/-! ## Parsers -/

/-- The parser whose results are those of another with all spans moved on. -/
def Parser.movedOn (distance : Nat) (parser : Parser) : Parser := fun name source =>
  (parser name source).map (Program.movedOn distance)

/-- The program of the empty text ends later by the distance. -/
theorem Parser.prologue_movedOn {parser : Parser} (accepts : (parser "" "").isSome = true) :
    (parser.movedOn distance).prologue = parser.prologue + distance := by
  obtain ⟨program, accepted⟩ := Option.isSome_iff_exists.mp accepts
  rw [prologue, prologue, movedOn, accepted]
  rfl

/-- The candidates are the same, except that their nodes are moved on. -/
theorem Extraction.candidates_movedOn {parser : Parser}
    (accepts : (parser "" "").isSome = true) (scope : Scope) (files : List SourceFile) :
    (Extraction.ofFiles (parser.movedOn distance) scope files).candidates =
      (Extraction.ofFiles parser scope files).candidates.map (Candidate.movedOn distance) := by
  have parsed : (Extraction.ofFiles (parser.movedOn distance) scope files).files =
      (Extraction.ofFiles parser scope files).files.map fun file =>
        ⟨file.name, file.program.movedOn distance⟩ := by
    rw [ofFiles, ofFiles, List.map_filterMap]
    refine List.filterMap_congr fun file _ => ?_
    rw [Parser.movedOn, Option.map_map, Option.map_map]
    rfl
  have offset : (Extraction.ofFiles (parser.movedOn distance) scope files).offset =
      (Extraction.ofFiles parser scope files).offset + distance :=
    Parser.prologue_movedOn accepts
  rw [candidates, candidates, parsed, offset, List.flatMap_map, List.map_flatMap]
  refine List.flatMap_congr fun file _ => ?_
  exact Candidate.collect_movedOn _ _ _ _

/-- A parser that accepts the empty text gives the same candidates, by file, span and kind, and
the same clones when all spans of its programs are moved on. -/
theorem movedOn_findClones (parser : Parser) (accepts : (parser "" "").isSome = true)
    (distance : Nat) (files : List SourceFile) (scope : Scope) (options : GroupingOptions) :
    ((Extraction.ofFiles (parser.movedOn distance) scope files).candidates.map fun candidate =>
        (candidate.file, candidate.span, candidate.node.kind)) =
      ((Extraction.ofFiles parser scope files).candidates.map fun candidate =>
        (candidate.file, candidate.span, candidate.node.kind)) ∧
    findClones (Extraction.ofFiles (parser.movedOn distance) scope files).candidates files
        options =
      findClones (Extraction.ofFiles parser scope files).candidates files options := by
  rw [Extraction.candidates_movedOn accepts]
  constructor
  · rw [List.map_map]
    refine List.map_congr_left fun candidate _ => ?_
    rw [Function.comp_apply, Candidate.movedOn, Node.kind_movedOn]
  · rw [findClones, findClones, cloneGroups, cloneGroups, rawGroups_movedOn]

/-- The parser that knows the empty text and a text of two equal statements. -/
def twoStatements : Parser := fun _ source =>
  if source = "" then some ⟨⟨0, 0⟩, []⟩
  else some ⟨⟨0, 18⟩, [.mk ⟨0, 9⟩ .debuggerStatement .done, .mk ⟨9, 18⟩ .debuggerStatement .done]⟩

/-- The two statements are reported where they stand, also behind a prologue of seven bytes. -/
theorem movedOn_findClones_twoStatements :
    (twoStatements "" "").isSome = true ∧ (twoStatements.movedOn 7).prologue = 7 ∧
    findClones (Extraction.ofFiles (twoStatements.movedOn 7) .statements
        [⟨"f", "debugger;debugger;"⟩]).candidates [⟨"f", "debugger;debugger;"⟩]
        ⟨5, false, none⟩ = [[⟨"f", 0, 9⟩, ⟨"f", 9, 18⟩]] := by
  have accepts : (twoStatements "" "").isSome = true := by decide
  refine ⟨accepts, by decide, ?_⟩
  rw [(movedOn_findClones twoStatements accepts 7 _ _ _).2, findClones,
    cloneGroups_eq_classesLedBy (by decide +kernel), mergeAdjacent_eq_plain (by decide +kernel)]
  decide +kernel

end CodeClones
