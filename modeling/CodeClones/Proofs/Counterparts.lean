import CodeClones.Proofs.SelfLikeness

/-!
# Counterparts in alike nodes

Two alike nodes go down together: every child of the first at a compared position is alike to some
child of the second at a compared position, though not always with the same checking of names. So
every node that the first reaches through compared positions has a counterpart that the second
reaches, and what likeness keeps of single nodes is the same all over both trees.
-/

namespace CodeClones.Syntax

/-! ## Related fields as groups -/

/-- Lists that are related place by place are related as groups. -/
theorem groupsRelated_of_forall₂ {related : Node → Node → Prop} {left right : List Node}
    (lists : List.Forall₂ related left right) : GroupsRelated related left right := by
  induction lists with
  | nil => simp [GroupsRelated]
  | @cons node other rest rest' pair _ ih =>
    obtain ⟨lengths, onto, back⟩ := ih
    refine ⟨congrArg (· + 1) lengths, ?_, ?_⟩
    · refine List.forall_mem_cons.mpr ⟨⟨other, List.mem_cons_self, pair⟩, fun node member => ?_⟩
      obtain ⟨found, inside, pair'⟩ := onto node member
      exact ⟨found, List.mem_cons_of_mem _ inside, pair'⟩
    · refine List.forall_mem_cons.mpr ⟨⟨node, List.mem_cons_self, pair⟩, fun other member => ?_⟩
      obtain ⟨found, inside, pair'⟩ := back other member
      exact ⟨found, List.mem_cons_of_mem _ inside, pair'⟩

/-- Whatever the rule of their field, lists that take part in a comparison are related as
groups. -/
theorem ChildRule.ListsRelated.groups {rule : ChildRule} {related : Node → Node → Prop}
    {left right : List Node} (lists : rule.ListsRelated related left right) :
    rule = .ignored ∨ GroupsRelated related left right := by
  cases rule with
  | alike => exact Or.inr lists
  | named => exact Or.inr lists
  | ordered => exact Or.inr (groupsRelated_of_forall₂ lists)
  | ignored => exact Or.inl rfl

/-- Related optional nodes are related as groups of at most one. -/
theorem groupsRelated_of_optionRel {related : Node → Node → Prop} {left right : Option Node}
    (both : Option.Rel related left right) :
    GroupsRelated related left.toList right.toList := by
  cases both with
  | none => simp [GroupsRelated]
  | some pair => exact groupsRelated_of_forall₂ (List.Forall₂.nil.cons pair)

/-- Related optional lists that take part in a comparison are related as groups, an absent one as
the empty group. -/
theorem ChildRule.groups_of_optionRel {rule : ChildRule} {related : Node → Node → Prop}
    {left right : Option (List Node)}
    (both : Option.Rel (rule.ListsRelated related) left right) :
    rule = .ignored ∨ GroupsRelated related (left.getD []) (right.getD []) := by
  cases both with
  | none => exact Or.inr (groupsRelated_of_forall₂ List.Forall₂.nil)
  | some lists => exact lists.groups

/-! ## Counterparts -/

/-- Every node of the first list has a counterpart in the second one. -/
def Answered (related : Node → Node → Prop) (left right : List Node) : Prop :=
  ∀ node ∈ left, ∃ other ∈ right, related node other

/-- Lists one behind the other are answered part by part. -/
theorem Answered.append {related : Node → Node → Prop} {left left' right right' : List Node}
    (front : Answered related left right) (back : Answered related left' right') :
    Answered related (left ++ left') (right ++ right') := by
  intro node member
  rcases List.mem_append.mp member with inFront | inBack
  · obtain ⟨other, inside, pair⟩ := front node inFront
    exact ⟨other, List.mem_append_left _ inside, pair⟩
  · obtain ⟨other, inside, pair⟩ := back node inBack
    exact ⟨other, List.mem_append_right _ inside, pair⟩

/-- If a position is left out or holds related groups, every compared node there has a counterpart
at the same position. -/
theorem answered_comparedAt {kind : Kind} {label : String} {rule : ChildRule}
    (follows : rule.Follows kind label) {related : Bool → Node → Node → Prop} {names : Bool}
    {left right : List Node} (groups : rule = .ignored ∨ GroupsRelated (related names) left right) :
    Answered (fun node other => ∃ names, related names node other)
      (comparedAt kind label left) (comparedAt kind label right) := by
  intro node member
  unfold comparedAt at member ⊢
  by_cases listed : (kind, label) ∈ overlooked
  · rw [if_pos listed] at member
    contradiction
  · rw [if_neg listed] at member ⊢
    have taken : rule ≠ .ignored := fun ignored => listed (follows.overlooked.mp ignored)
    obtain ⟨_, onto, _⟩ := groups.resolve_left taken
    obtain ⟨other, inside, pair⟩ := onto node member
    exact ⟨other, inside, names, pair⟩

/-- In related contents, every compared node has a counterpart, with names checked or not. -/
theorem Slots.Related.answered {related : Bool → Node → Node → Prop} {names : Bool}
    {kind : Kind} :
    {fields : List Field} → (left right : Slots fields) →
    (∀ field ∈ fields, field.Follows kind) → left.Related related names right →
    Answered (fun node other => ∃ names, related names node other)
      (left.compared kind) (right.compared kind)
  | [], .done, .done, _, _ => by
    intro node member
    contradiction
  | .child _ _ :: _, .child _ others, .child _ others', follows, both => by
    obtain ⟨here, behind⟩ := List.forall_mem_cons.mp follows
    have groups := both.1.imp_right fun pair =>
      groupsRelated_of_forall₂ (List.Forall₂.nil.cons pair)
    exact (answered_comparedAt here groups).append (answered others others' behind both.2)
  | .optionalChild _ _ :: _, .optionalChild _ others, .optionalChild _ others', follows, both => by
    obtain ⟨here, behind⟩ := List.forall_mem_cons.mp follows
    have groups := both.1.imp_right groupsRelated_of_optionRel
    exact (answered_comparedAt here groups).append (answered others others' behind both.2)
  | .children _ _ :: _, .children _ others, .children _ others', follows, both => by
    obtain ⟨here, behind⟩ := List.forall_mem_cons.mp follows
    exact (answered_comparedAt here both.1.groups).append
      (answered others others' behind both.2)
  | .optionalChildren _ _ :: _, .optionalChildren left others, .optionalChildren right others',
      follows, both => by
    obtain ⟨here, behind⟩ := List.forall_mem_cons.mp follows
    have groups := both.1.elim Or.inl ChildRule.groups_of_optionRel
    exact (answered_comparedAt here groups).append (answered others others' behind both.2)
  | .attribute _ _ _ :: _, .attribute _ others, .attribute _ others', follows, both =>
    answered others others' (List.forall_mem_cons.mp follows).2 both.2

/-- Every compared child of a node has a counterpart in each node alike to it. -/
theorem Node.answered_of_alike {names : Bool} {left right : Node}
    (alike : left.alike names right = true) :
    Answered (fun child other => ∃ names, child.alike names other = true)
      left.compared right.compared := by
  obtain ⟨span, kind, slots⟩ := left
  obtain ⟨span', slots', rfl, _, related⟩ := Node.exists_of_alike alike
  exact Slots.Related.answered slots slots' (layout_follows kind) related

/-- Every node that a node reaches through compared positions has a counterpart that each node
alike to it reaches. -/
theorem Node.exists_reached_of_alike {names : Bool} {left right below : Node}
    (alike : left.alike names right = true) (reached : left.Reaches below) :
    ∃ other, right.Reaches other ∧ ∃ names, below.alike names other = true := by
  induction reached with
  | refl => exact ⟨right, .refl, names, alike⟩
  | tail _ member ih =>
    obtain ⟨other, reached', names', alike'⟩ := ih
    obtain ⟨child, member', alike''⟩ := Node.answered_of_alike alike' _ member
    exact ⟨child, reached'.tail member', alike''⟩

end CodeClones.Syntax
