import CodeClones.Matching
import Mathlib.Data.List.Forall2

/-!
# Likeness as a relation on trees

The comparison of two nodes runs as a test. Here the test is read as a relation: two nodes are
alike when they have one kind, which is not an excluded one, and their contents are related
field by field through likeness of the children. `Slots.Related` is that reading for any
relation on children, so that a law of likeness is proved by one induction over the tree
(`Node.induction_on_stored`) and one pass over the five sorts of fields.

Likeness is symmetric and transitive, for single nodes, optional nodes and sibling groups. It is
not reflexive: excluded kinds and numbers that are not numbers are alike to nothing.
-/

namespace CodeClones.Binary64

/-- Equality of numbers by value does not depend on the side. -/
theorem sameValue_comm (left right : Binary64) :
    left.sameValue right = right.sameValue left := by
  simp only [sameValue, Bool.and_comm, Bool.beq_comm]

/-- Equality of numbers by value carries over a third number. -/
theorem sameValue_trans {first second third : Binary64}
    (front : first.sameValue second = true) (back : second.sameValue third = true) :
    first.sameValue third = true := by
  simp only [sameValue, isZero, Bool.and_eq_true, Bool.or_eq_true,
    Bool.not_eq_true', beq_iff_eq, magnitude] at front back ⊢
  refine ⟨⟨front.1.1, back.1.2⟩, ?_⟩
  rcases front.2 with equal | zeros <;> rcases back.2 with equal' | zeros'
  · exact Or.inl (equal.trans equal')
  · exact Or.inr ⟨equal ▸ zeros'.1, zeros'.2⟩
  · exact Or.inr ⟨zeros.1, equal' ▸ zeros.2⟩
  · exact Or.inr ⟨zeros.1, zeros'.2⟩

end CodeClones.Binary64

namespace CodeClones.Syntax

/-- A property of all nodes follows if every node has it as soon as the nodes stored in its
fields do. -/
theorem Node.induction_on_stored {motive : Node → Prop}
    (step : ∀ node : Node, (∀ child ∈ node.stored, motive child) → motive node)
    (node : Node) : motive node :=
  step node fun child _ => Node.induction_on_stored step child
termination_by sizeOf node
decreasing_by exact Node.sizeOf_lt_of_mem_stored ‹_›

/-! ## Lists of tests -/

/-- The tests for likeness to the members of a list, one for each. -/
theorem likeness_eq_map (names : Bool) (nodes : List Node) :
    likeness names nodes = nodes.map (Node.alike names) := by
  induction nodes with
  | nil => simp [likeness]
  | cons node others ih => simp [likeness, ih]

/-- An ordered comparison succeeds when each test holds for its own node. -/
theorem orderedAgree_iff (tests : List (Node → Bool)) (nodes : List Node) :
    orderedAgree tests nodes = true ↔
      List.Forall₂ (fun test node => test node = true) tests nodes := by
  unfold orderedAgree
  induction tests generalizing nodes with
  | nil => cases nodes <;> simp
  | cons test others ih =>
    cases nodes with
    | nil => simp
    | cons node rest =>
      rw [List.forall₂_cons, ← ih rest]
      simp only [List.length_cons, List.zipWith_cons_cons, List.all_cons, Bool.and_eq_true,
        beq_iff_eq, Nat.add_right_cancel_iff, id_eq]
      tauto

/-- The columns of a table of answers, gathered row by row: a node is met when it was met
before or one of the tests holds for it. -/
theorem foldl_zipWith_or (tests : List (Node → Bool)) (nodes : List Node) (met : Node → Bool) :
    (tests.map fun test => nodes.map test).foldl (fun met row => List.zipWith or met row)
        (nodes.map met) =
      nodes.map fun node => met node || tests.any fun test => test node := by
  induction tests generalizing met with
  | nil => simp
  | cons test others ih =>
    have row : List.zipWith or (nodes.map met) (nodes.map test) =
        nodes.map fun node => met node || test node := by
      simp [List.zipWith_map, List.zipWith_self]
    simp only [List.map_cons, List.foldl_cons, row, ih, List.any_cons, Bool.or_assoc]

/-- Two lists are related as sibling groups: they are equally long, and every member of either
is related to some member of the other. -/
def GroupsRelated (related : Node → Node → Prop) (left right : List Node) : Prop :=
  left.length = right.length ∧ (∀ node ∈ left, ∃ other ∈ right, related node other) ∧
    ∀ other ∈ right, ∃ node ∈ left, related node other

/-- The comparison of sibling groups, which asks each question once, decides the relation in
both directions. -/
theorem groupAgree_likeness_iff (names : Bool) (left right : List Node) :
    groupAgree (likeness names left) right = true ↔
      GroupsRelated (fun node other => node.alike names other = true) left right := by
  simp only [groupAgree, likeness_eq_map, GroupsRelated, Bool.and_eq_true, beq_iff_eq,
    List.length_map]
  rw [foldl_zipWith_or]
  simp only [List.all_map, List.all_eq_true, Function.comp_apply, List.any_map, List.any_eq_true,
    id_eq, Bool.false_or]

/-! ## Contents related field by field -/

/-- Two lists of children are related by the rule of their field. -/
def ChildRule.ListsRelated (rule : ChildRule) (related : Node → Node → Prop)
    (left right : List Node) : Prop :=
  match rule with
  | .ignored => True
  | .ordered => List.Forall₂ related left right
  | .alike | .named => GroupsRelated related left right

/-- Two contents are related: each field by its rule, and the children through the given
relation, which is told whether names are checked. -/
def Slots.Related (related : Bool → Node → Node → Prop) (names : Bool) :
    {fields : List Field} → Slots fields → Slots fields → Prop
  | [], .done, .done => True
  | .child _ rule :: _, .child left others, .child right others' =>
    (rule = .ignored ∨ related (rule.checksNames names) left right) ∧
      others.Related related names others'
  | .optionalChild _ rule :: _, .optionalChild left others, .optionalChild right others' =>
    (rule = .ignored ∨ Option.Rel (related (rule.checksNames names)) left right) ∧
      others.Related related names others'
  | .children _ rule :: _, .children left others, .children right others' =>
    rule.ListsRelated (related (rule.checksNames names)) left right ∧
      others.Related related names others'
  | .optionalChildren _ rule :: _, .optionalChildren left others,
      .optionalChildren right others' =>
    (rule = .ignored ∨
        Option.Rel (rule.ListsRelated (related (rule.checksNames names))) left right) ∧
      others.Related related names others'
  | .attribute _ type rule :: _, .attribute left others, .attribute right others' =>
    rule.agrees names type left right = true ∧ others.Related related names others'

/-- Likeness as a relation, with the checking of names as its first argument. -/
abbrev Alike (names : Bool) (left right : Node) : Prop :=
  left.alike names right = true

/-- The comparison of two lists by their rule decides the relation of the rule. -/
theorem ChildRule.listsAgree_iff (rule : ChildRule) (names : Bool) (left right : List Node) :
    rule.listsAgree (likeness names left) right = true ↔
      rule.ListsRelated (Alike names) left right := by
  cases rule with
  | alike => exact groupAgree_likeness_iff names left right
  | named => exact groupAgree_likeness_iff names left right
  | ordered =>
    simp only [listsAgree, ListsRelated, orderedAgree_iff, likeness_eq_map,
      List.forall₂_map_left_iff]
  | ignored => simp [listsAgree, ListsRelated]

/-- The comparison of contents decides whether they are related through likeness. -/
theorem Slots.agree_iff (names : Bool) : {fields : List Field} → (left right : Slots fields) →
    (left.agree names right = true ↔ left.Related Alike names right)
  | [], .done, .done => by simp [Slots.agree, Slots.Related]
  | .child _ rule :: _, .child left others, .child right others' => by
    simp only [Slots.agree, Slots.Related, Bool.and_eq_true, Bool.or_eq_true, beq_iff_eq,
      Slots.agree_iff names others others']
  | .optionalChild _ rule :: _, .optionalChild left others, .optionalChild right others' => by
    cases left <;> cases right <;>
      simp [Slots.agree, Slots.Related, Slots.agree_iff names others others']
  | .children _ rule :: _, .children left others, .children right others' => by
    simp only [Slots.agree, Slots.Related, Bool.and_eq_true, rule.listsAgree_iff,
      Slots.agree_iff names others others']
  | .optionalChildren _ rule :: _, .optionalChildren left others,
      .optionalChildren right others' => by
    cases left <;> cases right <;>
      simp [Slots.agree, Slots.Related, rule.listsAgree_iff, Slots.agree_iff names others others']
  | .attribute _ type rule :: _, .attribute left others, .attribute right others' => by
    simp only [Slots.agree, Slots.Related, Bool.and_eq_true, Slots.agree_iff names others others']

/-- Two nodes of one kind are alike when the kind is not excluded and their contents are
related. -/
theorem Node.alike_mk_iff (names : Bool) (span span' : Span) (kind : Kind)
    (left right : Slots kind.layout) :
    (Node.mk span kind left).alike names (Node.mk span' kind right) = true ↔
      kind.isExcluded = false ∧ left.Related Alike names right := by
  have same : (Node.mk span' kind right).kind = kind := rfl
  unfold Node.alike
  rw [dif_pos same, Bool.and_eq_true, Bool.not_eq_true', ← Slots.agree_iff]
  rfl

/-- Alike nodes have one kind. -/
theorem Node.kind_eq_of_alike {names : Bool} {left right : Node}
    (alike : left.alike names right = true) : right.kind = left.kind := by
  cases left with
  | mk span kind slots =>
    unfold Node.alike at alike
    split at alike
    · rename_i same
      exact same
    · contradiction

/-- What is alike to a node is a node of the same kind with related contents. -/
theorem Node.exists_of_alike {names : Bool} {span : Span} {kind : Kind}
    {slots : Slots kind.layout} {other : Node}
    (alike : (Node.mk span kind slots).alike names other = true) :
    ∃ (span' : Span) (slots' : Slots kind.layout), other = .mk span' kind slots' ∧
      kind.isExcluded = false ∧ slots.Related Alike names slots' := by
  cases other with
  | mk span' kind' slots' =>
    obtain rfl : kind' = kind := Node.kind_eq_of_alike alike
    obtain ⟨included, related⟩ := (Node.alike_mk_iff names span span' kind' slots slots').mp alike
    exact ⟨span', slots', rfl, included, related⟩

/-! ## Laws of the rules -/

/-- Equality of attributes does not depend on the side. -/
theorem AttributeType.same_comm (type : AttributeType) (left right : type.Value) :
    type.same left right = type.same right left := by
  cases type with
  | number => exact Binary64.sameValue_comm left right
  | text | optionalText | flag | keyword | flavour | access => exact BEq.comm

/-- Equality of attributes carries over a third one. -/
theorem AttributeType.same_trans (type : AttributeType) {first second third : type.Value}
    (front : type.same first second = true) (back : type.same second third = true) :
    type.same first third = true := by
  cases type with
  | number => exact Binary64.sameValue_trans front back
  | text | optionalText | flag | keyword | flavour | access => exact BEq.trans front back

/-- Equality of attributes up to whitespace at their ends does not depend on the side. -/
theorem AttributeType.sameTrimmed_comm (type : AttributeType) (left right : type.Value) :
    type.sameTrimmed left right = type.sameTrimmed right left := by
  cases type with
  | text => exact BEq.comm
  | optionalText | flag | number | keyword | flavour | access => exact same_comm _ left right

/-- Equality of attributes up to whitespace at their ends carries over a third one. -/
theorem AttributeType.sameTrimmed_trans (type : AttributeType) {first second third : type.Value}
    (front : type.sameTrimmed first second = true)
    (back : type.sameTrimmed second third = true) : type.sameTrimmed first third = true := by
  cases type with
  | number => exact Binary64.sameValue_trans front back
  | text | optionalText | flag | keyword | flavour | access => exact BEq.trans front back

/-- Agreement of attributes by a rule does not depend on the side. -/
theorem AttributeRule.agrees_comm (rule : AttributeRule) (names : Bool) (type : AttributeType)
    (left right : type.Value) :
    rule.agrees names type left right = rule.agrees names type right left := by
  cases rule with
  | exact => exact type.same_comm left right
  | trimmed => exact type.sameTrimmed_comm left right
  | whenNamed => simp only [agrees, type.same_comm left right]
  | ignored => rfl

/-- Agreement of attributes by a rule carries over a third attribute. -/
theorem AttributeRule.agrees_trans (rule : AttributeRule) (names : Bool) (type : AttributeType)
    {first second third : type.Value} (front : rule.agrees names type first second = true)
    (back : rule.agrees names type second third = true) :
    rule.agrees names type first third = true := by
  cases rule with
  | exact => exact type.same_trans front back
  | trimmed => exact type.sameTrimmed_trans front back
  | whenNamed =>
    cases names with
    | false => rfl
    | true => exact type.same_trans front back
  | ignored => rfl

/-- Relatedness of sibling groups turns around with the relation on their members. -/
theorem GroupsRelated.symm {related : Node → Node → Prop} {left right : List Node}
    (turn : ∀ node ∈ left, ∀ other, related node other → related other node)
    (groups : GroupsRelated related left right) : GroupsRelated related right left := by
  obtain ⟨lengths, onto, back⟩ := groups
  refine ⟨lengths.symm, fun other member => ?_, fun node member => ?_⟩
  · obtain ⟨node, inLeft, pair⟩ := back other member
    exact ⟨node, inLeft, turn node inLeft other pair⟩
  · obtain ⟨other, inRight, pair⟩ := onto node member
    exact ⟨other, inRight, turn node member other pair⟩

/-- Relatedness of sibling groups carries over a third group. -/
theorem GroupsRelated.trans {related : Node → Node → Prop} {first second third : List Node}
    (join : ∀ node ∈ first, ∀ middle other,
      related node middle → related middle other → related node other)
    (front : GroupsRelated related first second) (back : GroupsRelated related second third) :
    GroupsRelated related first third := by
  refine ⟨front.1.trans back.1, fun node member => ?_, fun other member => ?_⟩
  · obtain ⟨middle, inSecond, pair⟩ := front.2.1 node member
    obtain ⟨other, inThird, pair'⟩ := back.2.1 middle inSecond
    exact ⟨other, inThird, join node member middle other pair pair'⟩
  · obtain ⟨middle, inSecond, pair'⟩ := back.2.2 other member
    obtain ⟨node, inFirst, pair⟩ := front.2.2 middle inSecond
    exact ⟨node, inFirst, join node inFirst middle other pair pair'⟩

/-- Relatedness of lists by a rule turns around with the relation on their members. -/
theorem ChildRule.ListsRelated.symm {rule : ChildRule} {related : Node → Node → Prop}
    {left right : List Node}
    (turn : ∀ node ∈ left, ∀ other, related node other → related other node)
    (lists : rule.ListsRelated related left right) : rule.ListsRelated related right left := by
  cases rule with
  | alike => exact GroupsRelated.symm turn lists
  | named => exact GroupsRelated.symm turn lists
  | ordered =>
    induction (show List.Forall₂ related left right from lists) with
    | nil => exact List.Forall₂.nil
    | @cons node other rest rest' pair pairs ih =>
      refine List.Forall₂.cons (turn node List.mem_cons_self other pair) (ih ?_ pairs)
      exact fun node member => turn node (List.mem_cons_of_mem _ member)
  | ignored => trivial

/-- Relatedness of lists by a rule carries over a third list. -/
theorem ChildRule.ListsRelated.trans {rule : ChildRule} {related : Node → Node → Prop}
    {first second third : List Node}
    (join : ∀ node ∈ first, ∀ middle other,
      related node middle → related middle other → related node other)
    (front : rule.ListsRelated related first second)
    (back : rule.ListsRelated related second third) : rule.ListsRelated related first third := by
  cases rule with
  | alike => exact GroupsRelated.trans join front back
  | named => exact GroupsRelated.trans join front back
  | ordered =>
    induction (show List.Forall₂ related first second from front) generalizing third with
    | nil => exact back
    | @cons node middle rest rest' pair pairs ih =>
      obtain ⟨other, others, pair', pairs', rfl⟩ := List.forall₂_cons_left_iff.mp back
      refine List.Forall₂.cons (join node List.mem_cons_self middle other pair pair')
        (ih ?_ pairs pairs')
      exact fun node member => join node (List.mem_cons_of_mem _ member)
  | ignored => trivial

/-- Relatedness of optional values turns around with the relation on the value. -/
theorem optionRel_symm {α : Type} {related : α → α → Prop} {left right : Option α}
    (turn : ∀ value ∈ left, ∀ other, related value other → related other value)
    (both : Option.Rel related left right) : Option.Rel related right left := by
  cases both with
  | none => exact Option.Rel.none
  | some pair => exact Option.Rel.some (turn _ rfl _ pair)

/-- Relatedness of optional values carries over a third one. -/
theorem optionRel_trans {α : Type} {related : α → α → Prop} {first second third : Option α}
    (join : ∀ value ∈ first, ∀ middle other,
      related value middle → related middle other → related value other)
    (front : Option.Rel related first second) (back : Option.Rel related second third) :
    Option.Rel related first third := by
  cases front with
  | none => exact back
  | some pair =>
    cases back with
    | some pair' => exact Option.Rel.some (join _ rfl _ _ pair pair')

/-- Relatedness of contents turns around with the relation on the stored nodes. -/
theorem Slots.Related.symm {related : Bool → Node → Node → Prop} {names : Bool} :
    {fields : List Field} → (left right : Slots fields) →
    (∀ child ∈ left.stored, ∀ names other, related names child other →
      related names other child) →
    left.Related related names right → right.Related related names left
  | [], .done, .done, _, _ => trivial
  | .child _ rule :: _, .child left others, .child right others', turn, both => by
    simp only [stored, List.forall_mem_cons] at turn
    exact ⟨both.1.imp_right (turn.1 _ right), symm others others' turn.2 both.2⟩
  | .optionalChild _ rule :: _, .optionalChild left others, .optionalChild right others', turn,
      both => by
    simp only [stored, List.forall_mem_append, Option.mem_toList] at turn
    exact ⟨both.1.imp_right (optionRel_symm fun node held => turn.1 node held _),
      symm others others' turn.2 both.2⟩
  | .children _ rule :: _, .children left others, .children right others', turn, both => by
    simp only [stored, List.forall_mem_append] at turn
    exact ⟨both.1.symm fun node member => turn.1 node member _,
      symm others others' turn.2 both.2⟩
  | .optionalChildren _ rule :: _, .optionalChildren left others,
      .optionalChildren right others', turn, both => by
    simp only [stored, List.forall_mem_append] at turn
    refine ⟨both.1.imp_right (optionRel_symm fun nodes held other lists => lists.symm ?_),
      symm others others' turn.2 both.2⟩
    obtain rfl : left = some nodes := held
    exact fun node member => turn.1 node member _
  | .attribute _ type rule :: _, .attribute left others, .attribute right others', turn,
      both => by
    refine ⟨?_, symm others others' turn both.2⟩
    rw [rule.agrees_comm]
    exact both.1

/-- Relatedness of contents carries over third contents. -/
theorem Slots.Related.trans {related : Bool → Node → Node → Prop} {names : Bool} :
    {fields : List Field} → (first second third : Slots fields) →
    (∀ child ∈ first.stored, ∀ names middle other, related names child middle →
      related names middle other → related names child other) →
    first.Related related names second → second.Related related names third →
    first.Related related names third
  | [], .done, .done, .done, _, _, _ => trivial
  | .child _ rule :: _, .child _ others, .child middle others', .child right others'', join,
      front, back => by
    simp only [stored, List.forall_mem_cons] at join
    refine ⟨?_, trans others others' others'' join.2 front.2 back.2⟩
    exact front.1.elim Or.inl fun pair => back.1.imp_right (join.1 _ middle right pair)
  | .optionalChild _ rule :: _, .optionalChild _ others, .optionalChild middle others',
      .optionalChild right others'', join, front, back => by
    simp only [stored, List.forall_mem_append, Option.mem_toList] at join
    refine ⟨?_, trans others others' others'' join.2 front.2 back.2⟩
    exact front.1.elim Or.inl fun pair => back.1.imp_right
      (optionRel_trans (fun node held => join.1 node held _) pair)
  | .children _ rule :: _, .children _ others, .children _ others', .children _ others'', join,
      front, back => by
    simp only [stored, List.forall_mem_append] at join
    exact ⟨front.1.trans (fun node member => join.1 node member _) back.1,
      trans others others' others'' join.2 front.2 back.2⟩
  | .optionalChildren _ rule :: _, .optionalChildren left others,
      .optionalChildren _ others', .optionalChildren _ others'', join, front, back => by
    simp only [stored, List.forall_mem_append] at join
    refine ⟨?_, trans others others' others'' join.2 front.2 back.2⟩
    refine front.1.elim Or.inl fun pair => back.1.imp_right
      (optionRel_trans (fun nodes held middle other lists => lists.trans ?_) pair)
    obtain rfl : left = some nodes := held
    exact fun node member => join.1 node member _
  | .attribute _ type rule :: _, .attribute _ others, .attribute _ others',
      .attribute _ others'', join, front, back =>
    ⟨rule.agrees_trans names type front.1 back.1,
      trans others others' others'' join front.2 back.2⟩

/-! ## Likeness is symmetric and transitive -/

/-- Likeness of nodes turns around. -/
theorem Node.alike_symm {names : Bool} {left right : Node}
    (alike : left.alike names right = true) : right.alike names left = true := by
  induction left using Node.induction_on_stored generalizing names right with
  | step node ih =>
    cases node with
    | mk span kind slots =>
      obtain ⟨span', slots', rfl, included, related⟩ := Node.exists_of_alike alike
      refine (Node.alike_mk_iff names span' span kind slots' slots).mpr ⟨included, ?_⟩
      exact Slots.Related.symm slots slots' (fun child member _ _ => ih child member) related

/-- Likeness of nodes carries over a third node. -/
theorem Node.alike_trans {names : Bool} {first second third : Node}
    (front : first.alike names second = true) (back : second.alike names third = true) :
    first.alike names third = true := by
  induction first using Node.induction_on_stored generalizing names second third with
  | step node ih =>
    cases node with
    | mk span kind slots =>
      obtain ⟨span', slots', rfl, included, related⟩ := Node.exists_of_alike front
      obtain ⟨span'', slots'', rfl, _, related'⟩ := Node.exists_of_alike back
      refine (Node.alike_mk_iff names span span'' kind slots slots'').mpr ⟨included, ?_⟩
      exact Slots.Related.trans slots slots' slots''
        (fun child member names middle other => ih child member) related related'

/-- Likeness of nodes does not depend on the side. -/
theorem Node.alike_comm (names : Bool) (left right : Node) :
    left.alike names right = right.alike names left :=
  Bool.eq_iff_iff.mpr ⟨Node.alike_symm, Node.alike_symm⟩

/-- A node that is alike to some node is alike to itself. -/
theorem Node.alike_self_of_alike {names : Bool} {left right : Node}
    (alike : left.alike names right = true) : left.alike names left = true :=
  Node.alike_trans alike (Node.alike_symm alike)

/-- A test that is symmetric and transitive, but need not hold of a thing and itself. -/
structure PartialEquivalence {α : Type} (test : α → α → Bool) : Prop where
  /-- The answer does not depend on the side. -/
  symm : ∀ left right, test left right = test right left
  /-- Two positive answers that share a thing give a third. -/
  trans : ∀ first second third, test first second = true → test second third = true →
    test first third = true

/-- Likeness of nodes is a partial equivalence. -/
theorem Node.alike_isPartial (names : Bool) : PartialEquivalence (Node.alike names) where
  symm := Node.alike_comm names
  trans _ _ _ := Node.alike_trans

/-- A partial equivalence extends to optional things if a present one is equivalent to no absent
one. -/
theorem PartialEquivalence.option {α : Type} {test : α → α → Bool} (law : PartialEquivalence test)
    {extended : Option α → Option α → Bool}
    (mixed : ∀ value, extended none (some value) = false ∧ extended (some value) none = false)
    (present : ∀ left right, extended (some left) (some right) = test left right) :
    PartialEquivalence extended where
  symm left right := by
    cases left <;> cases right <;> simp only [mixed, present]
    exact law.symm _ _
  trans first second third front back := by
    cases first with
    | none =>
      cases second with
      | none => exact back
      | some middle => simp [mixed] at front
    | some value =>
      cases second with
      | none => simp [mixed] at front
      | some middle =>
        cases third with
        | none => simp [mixed] at back
        | some other =>
          rw [present] at front back ⊢
          exact law.trans value middle other front back

/-- Likeness of optional nodes is a partial equivalence. -/
theorem optionsAlike_isPartial (names : Bool) : PartialEquivalence (optionsAlike names) :=
  (Node.alike_isPartial names).option (fun _ => ⟨rfl, rfl⟩) fun _ _ => rfl

/-- Likeness of sibling groups is a partial equivalence. -/
theorem groupsAlike_isPartial (names : Bool) : PartialEquivalence (groupsAlike names) where
  symm left right := by
    have turn : ∀ left right, groupsAlike names left right = true →
        groupsAlike names right left = true := by
      intro left right alike
      rw [groupsAlike, groupAgree_likeness_iff] at alike ⊢
      exact alike.symm fun node _ other => Node.alike_symm
    exact Bool.eq_iff_iff.mpr ⟨turn left right, turn right left⟩
  trans first second third front back := by
    rw [groupsAlike, groupAgree_likeness_iff] at front back ⊢
    exact front.trans (fun node _ middle other => Node.alike_trans) back

/-- Likeness of optional sibling groups is a partial equivalence. -/
theorem optionalGroupsAlike_isPartial (names : Bool) :
    PartialEquivalence (optionalGroupsAlike names) :=
  (groupsAlike_isPartial names).option (fun _ => ⟨rfl, rfl⟩) fun _ _ => rfl

/-- Two sibling groups are alike when they are equally long and each member of either has a
sibling in the other, each group taking its turn as the one that asks. -/
theorem groupsAlike_eq_hasSibling (names : Bool) (left right : List Node) :
    groupsAlike names left right =
      (left.length == right.length && left.all (fun node => hasSibling names node right) &&
        right.all fun node => hasSibling names node left) := by
  rw [Bool.eq_iff_iff, groupsAlike, groupAgree_likeness_iff]
  simp only [GroupsRelated, hasSibling, Bool.and_eq_true, beq_iff_eq, List.all_eq_true,
    List.any_eq_true, and_assoc]
  -- The code asks the second question from the other side, which symmetry makes the same.
  simp only [Node.alike_comm names]

/-- Numbers are alike when both are numbers and they have the same bits or are both zero. -/
theorem number_alike_iff (names : Bool) (span span' : Span) (left right : Binary64) :
    (Node.mk span .numberLiteral (.attribute left .done)).alike names
        (Node.mk span' .numberLiteral (.attribute right .done)) = true ↔
      left.isNaN = false ∧ right.isNaN = false ∧
        (left.bits = right.bits ∨ left.isZero = true ∧ right.isZero = true) := by
  rw [Node.alike_mk_iff]
  change _ ∧ left.sameValue right = true ∧ True ↔ _
  simp [Kind.isExcluded, Binary64.sameValue, and_assoc]

/-- Likeness is a partial equivalence on nodes of every kind and depth, on optional nodes and
on optional sibling groups, whether or not names are checked. Sibling groups are compared in
both directions, and numbers by value: one that is no number differs from everything, and the
two zeros are equal. -/
theorem likeness_partialEquivalence (names : Bool) :
    PartialEquivalence (Node.alike names) ∧
    PartialEquivalence (optionsAlike names) ∧
    PartialEquivalence (optionalGroupsAlike names) ∧
    (∀ left right : List Node, optionalGroupsAlike names (some left) (some right) =
      (left.length == right.length && left.all (fun node => hasSibling names node right) &&
        right.all fun node => hasSibling names node left)) ∧
    ∀ (span span' : Span) (left right : Binary64),
      (Node.mk span .numberLiteral (.attribute left .done)).alike names
          (Node.mk span' .numberLiteral (.attribute right .done)) = true ↔
        left.isNaN = false ∧ right.isNaN = false ∧
          (left.bits = right.bits ∨ left.isZero = true ∧ right.isZero = true) :=
  ⟨Node.alike_isPartial names, optionsAlike_isPartial names, optionalGroupsAlike_isPartial names,
    groupsAlike_eq_hasSibling names, number_alike_iff names⟩

end CodeClones.Syntax
