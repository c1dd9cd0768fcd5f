import CodeClones.Lowering.Expressions
import CodeClones.Lowering.Markup
import CodeClones.Lowering.Statements
import CodeClones.Lowering.Types

/-!
# Lowering: all rules

The rules of all families together, and the recursion that applies them. The recursion is on
the levels that are left: a tree without a level left is not looked into, becomes an
`unmodelled` node, and reports that the nesting went too deep.
-/

namespace CodeClones.Lowering

open Syntax Concrete

/-- The rules of all families, by the grammar's name of the construct. -/
def rules : List (String × Rule) :=
  statementRules ++ typeRules ++ expressionRules ++ markupRules

/-- The rule for a construct, if there is one. -/
def rule? (kind : String) : Option Rule :=
  rules.lookup kind

/-- What holds of the rules of all families holds of the rule for a construct. -/
theorem forall_of_rule? {motive : String → Rule → Prop}
    (statements : ∀ entry ∈ statementRules, motive entry.1 entry.2)
    (types : ∀ entry ∈ typeRules, motive entry.1 entry.2)
    (expressions : ∀ entry ∈ expressionRules, motive entry.1 entry.2)
    (markup : ∀ entry ∈ markupRules, motive entry.1 entry.2) {kind : String} {rule : Rule}
    (found : rule? kind = some rule) : motive kind rule := by
  obtain ⟨front, back, split, _⟩ := List.lookup_eq_some_iff.mp found
  have member : (kind, rule) ∈ rules := by
    rw [split]
    simp
  simp only [rules, List.mem_append] at member
  rcases member with ((member | member) | member) | member
  · exact statements _ member
  · exact types _ member
  · exact expressions _ member
  · exact markup _ member

/-- Lower a tree by the rule for its kind. -/
def applyRule (context : Context) (tree : Tree) : Lowered Node :=
  match rule? tree.kind with
  | some rule => rule context tree
  | none => pure (unmodelled tree)

/-- Lower a tree, going down at most the given number of levels. -/
def lower (source : String) : (levels : Nat) → Tree → Lowered Node
  | 0, tree => ⟨unmodelled tree, true⟩
  | levels + 1, tree => applyRule ⟨source, lower source levels⟩ tree

/-- The trees that make up a program: the named children of its root, except for the line that
names an interpreter. -/
def programItems (root : Tree) : List Tree :=
  root.parts.filter fun item => item.kind != "hash_bang_line"

/-- Lower the items of a program, each going down at most the given number of levels. -/
def programBody (source : String) (levels : Nat) (root : Tree) : Lowered (List Node) :=
  .all ((programItems root).map (lower source levels))

end CodeClones.Lowering
