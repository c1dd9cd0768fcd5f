import CodeClones.Proofs.Likeness

/-!
# Positions in a node and what a comparison does there

The layout of a kind gives every field a rule. Read over all kinds, the rules say two things
about positions, that is, about fields by the kind of the node and the label of the field. A few
positions are overlooked: whatever stands there takes no part in a comparison. At a few others
names are checked from there on, even if the comparison does not check them elsewhere. Both
lists are written out here, and `layout_follows` says that the layouts agree with them: all other
positions are compared, and pass on whether names are checked.
-/

namespace CodeClones.Syntax

/-- The positions that take no part in a comparison: labels of statements, and what stands in
front of the body of a getter, setter or method of an object. -/
def overlooked : List (Kind × String) :=
  [(.breakStatement, "label"), (.continueStatement, "label"), (.labeledStatement, "label"),
    (.getterProperty, "key"), (.getterProperty, "type_ann"),
    (.setterProperty, "key"), (.setterProperty, "param"),
    (.methodProperty, "key"), (.methodProperty, "function.params"),
    (.methodProperty, "function.decorators"), (.methodProperty, "function.type_params"),
    (.methodProperty, "function.return_type")]

/-- The positions from which on names are checked: names of types, keys of objects and entries
of lists of ancestors. -/
def nameChecked : List (Kind × String) :=
  [(.typeReference, "type_name"), (.qualifiedName, "left"), (.qualifiedName, "right"),
    (.keyValueProperty, "key"), (.heritageEntry, "expr")]

/-- Whether names are checked at a position, given whether they are in the node. -/
def checksAt (kind : Kind) (label : String) (names : Bool) : Bool :=
  names || nameChecked.contains (kind, label)

/-- The rule of a position agrees with the two lists. -/
structure ChildRule.Follows (rule : ChildRule) (kind : Kind) (label : String) : Prop where
  /-- The rule leaves the position out exactly if it is overlooked. -/
  overlooked : rule = .ignored ↔ (kind, label) ∈ overlooked
  /-- The rule turns the checking of names on exactly if names are checked there. -/
  named : rule = .named ↔ (kind, label) ∈ nameChecked

/-- Whether a position is in a list is decided by looking for its kind and label. -/
instance (position : Kind × String) (positions : List (Kind × String)) :
    Decidable (position ∈ positions) :=
  List.instDecidableMemOfLawfulBEq position positions

/-- Whether a rule agrees with the two lists is decided by looking it up. -/
instance (rule : ChildRule) (kind : Kind) (label : String) : Decidable (rule.Follows kind label) :=
  decidable_of_iff ((rule = .ignored ↔ (kind, label) ∈ overlooked) ∧
      (rule = .named ↔ (kind, label) ∈ nameChecked))
    ⟨fun ⟨overlooked, named⟩ => ⟨overlooked, named⟩,
      fun follows => ⟨follows.overlooked, follows.named⟩⟩

/-- A field that holds nodes agrees with the two lists. -/
def Field.Follows (kind : Kind) : Field → Prop
  | .child label rule => rule.Follows kind label
  | .optionalChild label rule => rule.Follows kind label
  | .children label rule => rule.Follows kind label
  | .optionalChildren label rule => rule.Follows kind label
  | .attribute _ _ _ => True

/-- Whether a field agrees with the two lists is decided by its rule. -/
instance (kind : Kind) : DecidablePred (Field.Follows kind)
  | .child label rule => inferInstanceAs (Decidable (rule.Follows kind label))
  | .optionalChild label rule => inferInstanceAs (Decidable (rule.Follows kind label))
  | .children label rule => inferInstanceAs (Decidable (rule.Follows kind label))
  | .optionalChildren label rule => inferInstanceAs (Decidable (rule.Follows kind label))
  | .attribute _ _ _ => inferInstanceAs (Decidable True)

/-- The layout of every kind agrees with the two lists. -/
theorem layout_follows (kind : Kind) : ∀ field ∈ kind.layout, field.Follows kind := by
  cases kind <;> decide +kernel

/-- A rule that agrees with the lists passes on whether names are checked as its position does. -/
theorem ChildRule.Follows.checksNames {rule : ChildRule} {kind : Kind} {label : String}
    (follows : rule.Follows kind label) (names : Bool) :
    rule.checksNames names = checksAt kind label names := by
  unfold ChildRule.checksNames checksAt
  congr 1
  rw [Bool.eq_iff_iff, beq_iff_eq, List.contains_iff_mem]
  exact follows.named

end CodeClones.Syntax
