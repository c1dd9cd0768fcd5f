import CodeClones.Proofs.Positions
import Mathlib.Tactic.TFAE
import Mathlib.Logic.Relation

/-!
# Nodes that are alike to themselves

Likeness is symmetric and transitive, so a node that is alike to anything is alike to itself. Not
every node is: `with` statements, unmodelled constructs and numbers that are no numbers differ
from everything, and a node with one of these below it at a compared position fails with it. No
sibling comes to the rescue, because whatever a failing element were alike to would make it alike
to itself. Positions that take no part in a comparison hide what stands there.
-/

namespace CodeClones.Syntax

/-! ## What fails, and where it is looked for -/

/-- The nodes at a position, unless it is overlooked. -/
def comparedAt (kind : Kind) (label : String) (nodes : List Node) : List Node :=
  if (kind, label) ∈ overlooked then [] else nodes

/-- The nodes in the fields of a node of a kind that take part in a comparison. -/
def Slots.compared (kind : Kind) : {fields : List Field} → Slots fields → List Node
  | [], .done => []
  | .child label _ :: _, .child node others =>
    comparedAt kind label [node] ++ others.compared kind
  | .optionalChild label _ :: _, .optionalChild node others =>
    comparedAt kind label node.toList ++ others.compared kind
  | .children label _ :: _, .children nodes others =>
    comparedAt kind label nodes ++ others.compared kind
  | .optionalChildren label _ :: _, .optionalChildren nodes others =>
    comparedAt kind label (nodes.getD []) ++ others.compared kind
  | .attribute _ _ _ :: _, .attribute _ others => others.compared kind

namespace Node

/-- The direct children of a node at compared positions. -/
def compared (node : Node) : List Node :=
  node.slots.compared node.kind

/-- The second node is the first, or below it through compared positions only. -/
def Reaches : Node → Node → Prop :=
  Relation.ReflTransGen fun node child => child ∈ node.compared

/-- The number that a number literal holds. -/
def number? : Node → Option Binary64
  | .mk _ .numberLiteral (.attribute number .done) => some number
  | _ => none

/-- Whether the node by itself differs from everything: it is a `with` statement, an unmodelled
construct, or a number literal that holds no number. -/
def failsClosed (node : Node) : Bool :=
  node.kind == .withStatement || node.kind == .unmodelled || node.number?.any Binary64.isNaN

/-- No node that is reached through compared positions differs from everything. -/
def Comparable (node : Node) : Prop :=
  ∀ below, node.Reaches below → below.failsClosed = false

/-- A node is comparable exactly if it does not fail by itself and its compared children are
comparable. -/
theorem comparable_iff (node : Node) :
    node.Comparable ↔ node.failsClosed = false ∧ ∀ child ∈ node.compared, child.Comparable := by
  constructor
  · intro comparable
    refine ⟨comparable node .refl, fun child member below reached => ?_⟩
    exact comparable below (.head member reached)
  · rintro ⟨here, children⟩ below reached
    rcases Relation.ReflTransGen.cases_head reached with rfl | ⟨child, member, reached'⟩
    · exact here
    · exact children child member below reached'

end Node

/-! ## Contents compared with themselves -/

/-- Whether a field holds a number. -/
def Field.isNumber : Field → Bool
  | .attribute _ .number _ => true
  | _ => false

/-- Only number literals hold numbers. -/
theorem isNumber_eq_false {kind : Kind} (other : kind ≠ .numberLiteral) :
    ∀ field ∈ kind.layout, field.isNumber = false := by
  revert other
  cases kind <;> decide +kernel

/-- Attributes other than numbers are equal to themselves. -/
theorem AttributeType.same_self {type : AttributeType} (other : type ≠ .number)
    (value : type.Value) : type.same value value = true := by
  cases type with
  | number => exact absurd rfl other
  | text | optionalText | flag | keyword | flavour | access => exact BEq.refl value

/-- Attributes other than numbers agree with themselves by every rule. -/
theorem AttributeRule.agrees_self (rule : AttributeRule) (names : Bool) {type : AttributeType}
    (other : type ≠ .number) (value : type.Value) : rule.agrees names type value value = true := by
  have same := type.same_self other value
  cases rule with
  | exact => exact same
  | trimmed =>
    cases type with
    | text => exact BEq.refl _
    | number | optionalText | flag | keyword | flavour | access => exact same
  | whenNamed => simp only [agrees, same, Bool.or_true]
  | ignored => rfl

/-- A list of children is related to itself by a rule exactly if the rule leaves it out or each
child is alike to itself. -/
theorem ChildRule.listsRelated_self_iff (rule : ChildRule) (names : Bool) (nodes : List Node) :
    rule.ListsRelated (Alike names) nodes nodes ↔
      rule = .ignored ∨ ∀ node ∈ nodes, Alike names node node := by
  -- What a member of a group is alike to need not be that member, but makes it alike to itself.
  have groups : GroupsRelated (Alike names) nodes nodes ↔
      ∀ node ∈ nodes, Alike names node node := by
    constructor
    · rintro ⟨_, onto, _⟩ node member
      obtain ⟨other, _, alike⟩ := onto node member
      exact Node.alike_self_of_alike alike
    · intro selves
      exact ⟨rfl, fun node member => ⟨node, member, selves node member⟩,
        fun node member => ⟨node, member, selves node member⟩⟩
  cases rule with
  | alike => simp [ListsRelated, groups]
  | named => simp [ListsRelated, groups]
  | ordered => simp [ListsRelated, List.forall₂_same]
  | ignored => simp [ListsRelated]

/-- The nodes at a position that takes part in a comparison all have a property exactly if the
rule leaves the position out or all nodes there have it. -/
theorem forall_comparedAt_iff {kind : Kind} {label : String} {rule : ChildRule}
    (follows : rule.Follows kind label) {nodes : List Node} {property : Node → Prop} :
    (∀ node ∈ comparedAt kind label nodes, property node) ↔
      rule = .ignored ∨ ∀ node ∈ nodes, property node := by
  unfold comparedAt
  by_cases ignored : rule = .ignored
  · rw [if_pos (follows.overlooked.mp ignored)]
    simp [ignored]
  · rw [if_neg fun listed => ignored (follows.overlooked.mpr listed)]
    simp [ignored]

/-- Contents without numbers are related to themselves exactly if all nodes at compared positions
have a property that the stored nodes have exactly if they are alike to themselves. -/
theorem Slots.related_self_iff {kind : Kind} (names : Bool) {property : Node → Prop} :
    {fields : List Field} → (slots : Slots fields) →
    (∀ field ∈ fields, field.Follows kind ∧ field.isNumber = false) →
    (∀ child ∈ slots.stored, ∀ names, Alike names child child ↔ property child) →
    (slots.Related Alike names slots ↔ ∀ child ∈ slots.compared kind, property child)
  | [], .done, _, _ => by simp [Slots.Related, Slots.compared]
  | .child label rule :: _, .child node others, lawful, selves => by
    simp only [stored, List.forall_mem_cons] at lawful selves
    have rest := others.related_self_iff names lawful.2 selves.2
    simp only [Slots.Related, Slots.compared, List.forall_mem_append,
      forall_comparedAt_iff lawful.1.1, List.forall_mem_singleton, rest, selves.1]
  | .optionalChild label rule :: _, .optionalChild node others, lawful, selves => by
    simp only [stored, List.forall_mem_cons, List.forall_mem_append] at lawful selves
    have rest := others.related_self_iff names lawful.2 selves.2
    have field : Option.Rel (Alike (rule.checksNames names)) node node ↔
        ∀ child ∈ node.toList, property child := by
      cases node with
      | none => simp
      | some node => simpa using selves.1 node (by simp) (rule.checksNames names)
    simp only [Slots.Related, Slots.compared, List.forall_mem_append,
      forall_comparedAt_iff lawful.1.1, rest, field]
  | .children label rule :: _, .children nodes others, lawful, selves => by
    simp only [stored, List.forall_mem_cons, List.forall_mem_append] at lawful selves
    have rest := others.related_self_iff names lawful.2 selves.2
    have field : (∀ node ∈ nodes, Alike (rule.checksNames names) node node) ↔
        ∀ node ∈ nodes, property node :=
      forall₂_congr fun node member => selves.1 node member _
    simp only [Slots.Related, Slots.compared, List.forall_mem_append,
      forall_comparedAt_iff lawful.1.1, rest, rule.listsRelated_self_iff, field]
  | .optionalChildren label rule :: _, .optionalChildren nodes others, lawful, selves => by
    simp only [stored, List.forall_mem_cons, List.forall_mem_append] at lawful selves
    have rest := others.related_self_iff names lawful.2 selves.2
    have field : (rule = .ignored ∨
        Option.Rel (rule.ListsRelated (Alike (rule.checksNames names))) nodes nodes) ↔
        rule = .ignored ∨ ∀ node ∈ nodes.getD [], property node := by
      cases nodes with
      | none => simp
      | some nodes =>
        have inside : (∀ node ∈ nodes, Alike (rule.checksNames names) node node) ↔
            ∀ node ∈ nodes, property node :=
          forall₂_congr fun node member => selves.1 node member _
        simp only [Option.rel_some_some, rule.listsRelated_self_iff, inside, Option.getD_some,
          or_self_left]
    simp only [Slots.Related, Slots.compared, List.forall_mem_append,
      forall_comparedAt_iff lawful.1.1, rest, field]
  | .attribute label type rule :: _, .attribute value others, lawful, selves => by
    simp only [stored, List.forall_mem_cons] at lawful selves
    have rest := others.related_self_iff names lawful.2 selves
    have other : type ≠ .number := by
      rintro rfl
      exact absurd lawful.1.2 (by simp [Field.isNumber])
    simp only [Slots.Related, Slots.compared, rule.agrees_self names other value, rest, true_and]

/-! ## Exactly which nodes fail -/

/-- A node other than a number literal fails exactly if its kind is excluded. -/
theorem Node.failsClosed_eq_isExcluded {node : Node} (other : node.kind ≠ .numberLiteral) :
    node.failsClosed = node.kind.isExcluded := by
  obtain ⟨span, kind, slots⟩ := node
  cases kind
  case numberLiteral => exact absurd rfl other
  all_goals rfl

/-- Whether names are checked or not, a node is alike to itself exactly if it is comparable. -/
theorem Node.alike_self_iff (names : Bool) (node : Node) :
    node.alike names node = true ↔ node.Comparable := by
  induction node using Node.induction_on_stored generalizing names with
  | step node ih =>
    rw [Node.comparable_iff]
    by_cases number : node.kind = .numberLiteral
    · obtain ⟨span, kind, slots⟩ := node
      obtain rfl : kind = .numberLiteral := number
      match slots with
      | .attribute value .done =>
        rw [number_alike_iff]
        change _ ↔ value.isNaN = false ∧ ∀ child ∈ [], _
        simp
    · rw [Node.failsClosed_eq_isExcluded number]
      obtain ⟨span, kind, slots⟩ := node
      rw [Node.alike_mk_iff]
      have lawful : ∀ field ∈ kind.layout, field.Follows kind ∧ field.isNumber = false :=
        fun field member => ⟨layout_follows kind field member, isNumber_eq_false number field member⟩
      exact and_congr_right fun _ =>
        slots.related_self_iff names lawful fun child member names => ih child member names

/-- For every node, whether names are checked or not, it is the same whether it is alike to
itself, whether it is alike to some node, and whether none of the nodes that it reaches through
compared positions, itself included, is a `with` statement, an unmodelled construct or a number
literal that holds no number. -/
theorem alike_self_tfae (names : Bool) (node : Node) :
    List.TFAE [node.alike names node = true, ∃ other, node.alike names other = true,
      ∀ below, node.Reaches below → below.failsClosed = false] := by
  tfae_have 1 → 2 := fun alike => ⟨node, alike⟩
  tfae_have 2 → 1 := fun ⟨_, alike⟩ => Node.alike_self_of_alike alike
  tfae_have 1 ↔ 3 := Node.alike_self_iff names node
  tfae_finish

end CodeClones.Syntax
