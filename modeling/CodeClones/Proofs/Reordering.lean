import CodeClones.Proofs.Rewording

/-!
# The order of siblings

Lists of children are compared as sibling groups, in which only what is there counts and not where
it stands. `Reorder` puts one list of children in another order, at a node or anywhere below it,
and any number of such steps may permute lists whose members are permuted themselves. None of
them alters what a node is alike to. The elements of a tuple are the one list that is compared
place by place, so they keep their order; what is inside them need not.
-/

namespace CodeClones.Syntax

mutual

/-- The second node is the first with one list of children put in another order, at the node
itself or at any depth below it. -/
inductive Reorder : Node → Node → Prop where
  /-- The list stands in a field of the node or below one. -/
  | inside {span kind slots slots'} (reorder : SlotsReorder kind slots slots') :
      Reorder (.mk span kind slots) (.mk span kind slots')

/-- The second contents of a node of a kind are the first with one list of children put in another
order. -/
inductive SlotsReorder : (kind : Kind) → {fields : List Field} → Slots fields → Slots fields →
    Prop where
  /-- A list is put in another order, which does not hold the elements of a tuple. -/
  | children {kind label rule nodes nodes' fields others} (free : kind ≠ .tupleType)
      (order : nodes.Perm nodes') :
      SlotsReorder kind (.children nodes others : Slots (.children label rule :: fields))
        (.children nodes' others)
  /-- An optional list that is there is put in another order. -/
  | optionalChildren {kind label rule nodes nodes' fields others} (free : kind ≠ .tupleType)
      (order : nodes.Perm nodes') :
      SlotsReorder kind
        (.optionalChildren (some nodes) others : Slots (.optionalChildren label rule :: fields))
        (.optionalChildren (some nodes') others)
  /-- The list stands below a child. -/
  | belowChild {kind label rule node node' fields others} (reorder : Reorder node node') :
      SlotsReorder kind (.child node others : Slots (.child label rule :: fields))
        (.child node' others)
  /-- The list stands below an optional child that is there. -/
  | belowOptionalChild {kind label rule node node' fields others} (reorder : Reorder node node') :
      SlotsReorder kind
        (.optionalChild (some node) others : Slots (.optionalChild label rule :: fields))
        (.optionalChild (some node') others)
  /-- The list stands below a member of a list, behind those in front. -/
  | belowChildren {kind label rule node node' back fields others} (front : List Node)
      (reorder : Reorder node node') :
      SlotsReorder kind
        (.children (front ++ node :: back) others : Slots (.children label rule :: fields))
        (.children (front ++ node' :: back) others)
  /-- The list stands below a member of an optional list that is there. -/
  | belowOptionalChildren {kind label rule node node' back fields others} (front : List Node)
      (reorder : Reorder node node') :
      SlotsReorder kind
        (.optionalChildren (some (front ++ node :: back)) others :
          Slots (.optionalChildren label rule :: fields))
        (.optionalChildren (some (front ++ node' :: back)) others)
  /-- The list stands in or below a field behind a child. -/
  | afterChild {kind label rule node fields others others'}
      (reorder : SlotsReorder kind others others') :
      SlotsReorder kind (.child node others : Slots (.child label rule :: fields))
        (.child node others')
  /-- The list stands in or below a field behind an optional child. -/
  | afterOptionalChild {kind label rule node fields others others'}
      (reorder : SlotsReorder kind others others') :
      SlotsReorder kind
        (.optionalChild node others : Slots (.optionalChild label rule :: fields))
        (.optionalChild node others')
  /-- The list stands in or below a field behind another list. -/
  | afterChildren {kind label rule nodes fields others others'}
      (reorder : SlotsReorder kind others others') :
      SlotsReorder kind (.children nodes others : Slots (.children label rule :: fields))
        (.children nodes others')
  /-- The list stands in or below a field behind an optional list. -/
  | afterOptionalChildren {kind label rule nodes fields others others'}
      (reorder : SlotsReorder kind others others') :
      SlotsReorder kind
        (.optionalChildren nodes others : Slots (.optionalChildren label rule :: fields))
        (.optionalChildren nodes others')
  /-- The list stands in or below a field behind an attribute. -/
  | afterAttribute {kind label type rule value fields others others'}
      (reorder : SlotsReorder kind others others') :
      SlotsReorder kind (.attribute value others : Slots (.attribute label type rule :: fields))
        (.attribute value others')

end

/-! ## Rules that leave the order open -/

/-- Whether a field holds a list that is compared place by place. -/
def Field.isOrdered : Field → Bool
  | .children _ rule => rule == .ordered
  | .optionalChildren _ rule => rule == .ordered
  | _ => false

/-- Only tuples hold lists that are compared place by place. -/
theorem isOrdered_eq_false (kind : Kind) :
    ∀ field ∈ kind.layout, kind ≠ .tupleType → field.isOrdered = false := by
  cases kind <;> decide +kernel

/-- In another order, a list is related to the same lists, unless the rule goes by places. -/
theorem ChildRule.listsRelated_perm {rule : ChildRule} {related : Node → Node → Prop}
    {nodes nodes' : List Node} (free : rule ≠ .ordered) (order : nodes.Perm nodes')
    (others : List Node) :
    rule.ListsRelated related nodes others ↔ rule.ListsRelated related nodes' others := by
  cases rule with
  | alike | named => simp only [ListsRelated, GroupsRelated, order.length_eq, order.mem_iff]
  | ordered => exact absurd rfl free
  | ignored => exact Iff.rfl

/-! ## What a reordering keeps -/

mutual

/-- A reordered node is alike to the same nodes. -/
theorem Reorder.alike_iff {node node' : Node} :
    Reorder node node' → ∀ names other, Alike names node other ↔ Alike names node' other
  | .inside reorder, _, other => Node.alike_congr
      (reorder.related_iff (isOrdered_eq_false _)) other

/-- Reordered contents are related to the same contents. -/
theorem SlotsReorder.related_iff {names : Bool} {kind : Kind} {fields : List Field}
    {slots slots' : Slots fields} :
    SlotsReorder kind slots slots' →
      (∀ field ∈ fields, kind ≠ .tupleType → field.isOrdered = false) →
      ∀ contents, slots.Related Alike names contents ↔ slots'.Related Alike names contents
  | .children free order, unordered, .children _ _ => by
    have here := bne_iff_ne.mp (congrArg not (unordered _ List.mem_cons_self free))
    simp only [Slots.Related, ChildRule.listsRelated_perm here order]
  | .optionalChildren free order, unordered, .optionalChildren other _ => by
    have here := bne_iff_ne.mp (congrArg not (unordered _ List.mem_cons_self free))
    cases other <;> simp [Slots.Related, ChildRule.listsRelated_perm here order]
  | .belowChild reorder, _, .child _ _ => by
    simp only [Slots.Related, reorder.alike_iff]
  | .belowOptionalChild reorder, _, .optionalChild other _ => by
    cases other <;> simp [Slots.Related, reorder.alike_iff]
  | .belowChildren _ reorder, _, .children _ _ => by
    simp only [Slots.Related, ChildRule.listsRelated_congr (reorder.alike_iff _)]
  | .belowOptionalChildren _ reorder, _, .optionalChildren other _ => by
    cases other <;> simp [Slots.Related, ChildRule.listsRelated_congr (reorder.alike_iff _)]
  | .afterChild reorder, unordered, .child _ others =>
    and_congr_right fun _ => reorder.related_iff (List.forall_mem_cons.mp unordered).2 others
  | .afterOptionalChild reorder, unordered, .optionalChild _ others =>
    and_congr_right fun _ => reorder.related_iff (List.forall_mem_cons.mp unordered).2 others
  | .afterChildren reorder, unordered, .children _ others =>
    and_congr_right fun _ => reorder.related_iff (List.forall_mem_cons.mp unordered).2 others
  | .afterOptionalChildren reorder, unordered, .optionalChildren _ others =>
    and_congr_right fun _ => reorder.related_iff (List.forall_mem_cons.mp unordered).2 others
  | .afterAttribute reorder, unordered, .attribute _ others =>
    and_congr_right fun _ => reorder.related_iff (List.forall_mem_cons.mp unordered).2 others

end

/-- No number of lists of children put in another order, at whatever places of a tree, alters
what the node is alike to, on either side of the comparison. -/
theorem alike_of_reorders (names : Bool) (node node' : Node)
    (reorders : Relation.ReflTransGen Reorder node node') (other : Node) :
    node'.alike names other = node.alike names other ∧
      other.alike names node' = other.alike names node := by
  have same : node'.alike names other = node.alike names other := by
    induction reorders with
    | refl => rfl
    | tail _ reorder ih =>
      rw [← ih, Bool.eq_iff_iff]
      exact (reorder.alike_iff names other).symm
  exact ⟨same, by rw [Node.alike_comm, same, Node.alike_comm]⟩

/-- Two values that are not alike. -/
def twoValues : List Node :=
  [.mk ⟨4, 8⟩ .thisKeyword .done, .mk ⟨10, 14⟩ .nullLiteral .done]

/-- A statement that calls something with the given arguments. -/
def calling (arguments : List Node) : Node :=
  .mk ⟨2, 16⟩ .expressionStatement (.child (.mk ⟨2, 15⟩ .call
    (.child (.mk ⟨2, 3⟩ .importKeyword .done) <| .optionalChild none <|
      .children arguments .done)) .done)

/-- A statement that does nothing. -/
def semicolon : Node :=
  .mk ⟨16, 17⟩ .emptyStatement .done

/-- A block of the given statements. -/
def blockOf (statements : List Node) : Node :=
  .mk ⟨0, 18⟩ .block (.children statements .done)

/-- A block stays alike to the original when its statements change places and so do the arguments
of a call in one of them. -/
theorem alike_of_reorders_calling :
    Relation.ReflTransGen Reorder (blockOf [calling twoValues, semicolon])
      (blockOf [semicolon, calling twoValues.reverse]) ∧
    (blockOf [semicolon, calling twoValues.reverse]).alike true
      (blockOf [calling twoValues, semicolon]) = true := by
  have arguments : Reorder (calling twoValues) (calling twoValues.reverse) :=
    .inside (.belowChild (.inside (.afterChild (.afterOptionalChild
      (.children (by decide) twoValues.reverse_perm.symm)))))
  have reorders : Relation.ReflTransGen Reorder (blockOf [calling twoValues, semicolon])
      (blockOf [semicolon, calling twoValues.reverse]) :=
    calc
      Relation.ReflTransGen Reorder _ (blockOf [calling twoValues.reverse, semicolon]) :=
        .single (.inside (.belowChildren [] arguments))
      Relation.ReflTransGen Reorder _ _ :=
        .single (.inside (.children (by decide) (.swap _ _ _)))
  refine ⟨reorders, ?_⟩
  rw [(alike_of_reorders true _ _ reorders _).1]
  decide +kernel

end CodeClones.Syntax
