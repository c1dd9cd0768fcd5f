import CodeClones.Syntax.Node

/-!
# Structural likeness

Two nodes are alike when they are of one kind, which is not an excluded one, and every field
agrees by its rule. Positions take no part. Names take part only where they are checked:
everywhere if the comparison starts that way, and in any case below the fields whose rule says
so. Lists are compared as sibling groups: they have equally many members, and each member of
either is alike to some member of the other, whatever the order.
-/

namespace CodeClones.Syntax

/-- Whether two values of one sort are equal, floating-point numbers by value. -/
def AttributeType.same : (type : AttributeType) → type.Value → type.Value → Bool
  | .text, left, right => left == right
  | .optionalText, left, right => left == right
  | .flag, left, right => left == right
  | .number, left, right => left.sameValue right
  | .keyword, left, right => left == right
  | .flavour, left, right => left == right
  | .access, left, right => left == right

/-- Whether two values of one sort are equal, texts up to whitespace at their ends. -/
def AttributeType.sameTrimmed : (type : AttributeType) → type.Value → type.Value → Bool
  | .text, left, right => Text.trim left == Text.trim right
  | type, left, right => type.same left right

/-- Whether two attributes agree by their rule. -/
def AttributeRule.agrees (rule : AttributeRule) (names : Bool) (type : AttributeType)
    (left right : type.Value) : Bool :=
  match rule with
  | .exact => type.same left right
  | .trimmed => type.sameTrimmed left right
  | .whenNamed => !names || type.same left right
  | .ignored => true

/-- Whether names are checked below a field. -/
def ChildRule.checksNames (rule : ChildRule) (names : Bool) : Bool :=
  names || rule == .named

/-- Whether each test of the list holds for its own member of the other list, in order. -/
def orderedAgree (tests : List (Node → Bool)) (nodes : List Node) : Bool :=
  tests.length == nodes.length && (List.zipWith (fun test node => test node) tests nodes).all id

/-- Whether the lists are equally long, every test holds for some node, and for every node
some test holds. Each test is run once on each node. -/
def groupAgree (tests : List (Node → Bool)) (nodes : List Node) : Bool :=
  tests.length == nodes.length &&
    let table := tests.map fun test => nodes.map test
    table.all (fun row => row.any id) &&
      (table.foldl (fun met row => List.zipWith or met row) (nodes.map fun _ => false)).all id

/-- Whether two lists of children agree by their rule, the first given by the tests for
likeness to its members. -/
def ChildRule.listsAgree (rule : ChildRule) (tests : List (Node → Bool)) (nodes : List Node) :
    Bool :=
  match rule with
  | .ignored => true
  | .ordered => orderedAgree tests nodes
  | .alike | .named => groupAgree tests nodes

mutual

/-- Whether two nodes are alike; `names` says whether names are checked. -/
def Node.alike (names : Bool) : Node → Node → Bool
  | .mk _ kind slots, other =>
    if same : other.kind = kind then
      !kind.isExcluded && slots.agree names (same ▸ other.slots)
    else false

/-- Whether all fields agree by their rules. -/
def Slots.agree (names : Bool) : {fields : List Field} → Slots fields → Slots fields → Bool
  | [], .done, .done => true
  | .child _ rule :: _, .child left others, .child right others' =>
    (rule == .ignored || left.alike (rule.checksNames names) right) &&
      others.agree names others'
  | .optionalChild _ rule :: _, .optionalChild left others, .optionalChild right others' =>
    (rule == .ignored ||
      match left, right with
      | none, none => true
      | some left, some right => left.alike (rule.checksNames names) right
      | _, _ => false) &&
      others.agree names others'
  | .children _ rule :: _, .children left others, .children right others' =>
    rule.listsAgree (likeness (rule.checksNames names) left) right && others.agree names others'
  | .optionalChildren _ rule :: _, .optionalChildren left others,
      .optionalChildren right others' =>
    (rule == .ignored ||
      match left, right with
      | none, none => true
      | some left, some right => rule.listsAgree (likeness (rule.checksNames names) left) right
      | _, _ => false) &&
      others.agree names others'
  | .attribute _ type rule :: _, .attribute left others, .attribute right others' =>
    rule.agrees names type left right && others.agree names others'

/-- For each node of a list, the test for likeness to it. -/
def likeness (names : Bool) : List Node → List (Node → Bool)
  | [] => []
  | node :: others => node.alike names :: likeness names others

end

/-- Whether two optional nodes are alike: both are absent, or both are present and alike. -/
def optionsAlike (names : Bool) : Option Node → Option Node → Bool
  | none, none => true
  | some left, some right => left.alike names right
  | _, _ => false

/-- Whether two lists of nodes are alike as sibling groups. -/
def groupsAlike (names : Bool) (left right : List Node) : Bool :=
  groupAgree (likeness names left) right

/-- Whether two optional lists of nodes are alike as sibling groups. -/
def optionalGroupsAlike (names : Bool) : Option (List Node) → Option (List Node) → Bool
  | none, none => true
  | some left, some right => groupsAlike names left right
  | _, _ => false

/-- Whether some node of the group is alike to the given one. -/
def hasSibling (names : Bool) (node : Node) (group : List Node) : Bool :=
  group.any fun other => node.alike names other

/-- Two corresponding parts of two constructs, each of which may be absent. -/
inductive Correspondence where
  /-- Single nodes. -/
  | nodes (left right : Option Node)
  /-- Single nodes whose names are checked in any case. -/
  | namedNodes (left right : Option Node)
  /-- Sibling groups. -/
  | groups (left right : Option (List Node))
  /-- Truth values. -/
  | flags (left right : Option Bool)
  /-- Texts. -/
  | texts (left right : Option String)

/-- Whether two corresponding parts agree. -/
def Correspondence.agrees (names : Bool) : Correspondence → Bool
  | .nodes left right => optionsAlike names left right
  | .namedNodes left right => optionsAlike true left right
  | .groups left right => optionalGroupsAlike names left right
  | .flags left right => left == right
  | .texts left right => left == right

/-- Whether all corresponding parts agree. -/
def correspond (names : Bool) (parts : List Correspondence) : Bool :=
  parts.all fun part => part.agrees names

end CodeClones.Syntax
