import CodeClones.Concrete.Tree
import CodeClones.Syntax.Node
import CodeClones.Text.Bytes

/-!
# Lowering: the common parts

Lowering turns a concrete tree into a syntax node. It never fails: a construct without a rule
becomes an `unmodelled` node. Its only effect is to report that the nesting went deeper than
allowed, which `Lowered` carries along. A rule lowers one construct, and asks the `Lowering` it
is given for the nodes below; the nesting is counted there and nowhere else.
-/

namespace CodeClones.Lowering

open Syntax Concrete

/-- The result of lowering, with whether the nesting went too deep on the way. -/
structure Lowered (α : Type) where
  /-- The result. -/
  value : α
  /-- Whether some node lay deeper than allowed. -/
  tooDeep : Bool

namespace Lowered

instance : Monad Lowered where
  pure value := ⟨value, false⟩
  bind first next :=
    let second := next first.value
    ⟨second.value, first.tooDeep || second.tooDeep⟩

/-- Results in a list, gathered. -/
def all {α : Type} (results : List (Lowered α)) : Lowered (List α) :=
  ⟨results.map (·.value), results.any (·.tooDeep)⟩

/-- An optional result, turned inside out. -/
def optional {α : Type} : Option (Lowered α) → Lowered (Option α)
  | none => pure none
  | some result => some <$> result

end Lowered

/-- What a rule may use: the source text, and the lowering of the trees below. -/
structure Context where
  /-- The text that the grammar was given. -/
  source : String
  /-- Lowers a tree one level further down. -/
  lower : Tree → Lowered Node

/-- How one construct is lowered. -/
abbrev Rule := Context → Tree → Lowered Node

/-- A node at the place of a tree. -/
def place (tree : Tree) (kind : Kind) (slots : Slots kind.layout) : Node :=
  .mk tree.span kind slots

/-- A node with a description of what is not modelled. -/
def unmodelledAs (tree : Tree) (description : String) : Node :=
  place tree .unmodelled (.attribute description .done)

/-- The node for a construct without a rule. -/
def unmodelled (tree : Tree) : Node :=
  unmodelledAs tree tree.kind

/-- The node for a field that the construct lacks. -/
def lacking (tree : Tree) (field : String) : Node :=
  unmodelledAs tree (tree.kind ++ "." ++ field)

/-- A name without annotation. -/
def plainIdentifier (tree : Tree) (name : String) : Node :=
  place tree .identifier (.attribute name <| .optionalChild none <| .attribute false .done)

/-- The kinds of trees that are names. -/
def nameKinds : List String :=
  ["identifier", "type_identifier", "property_identifier", "shorthand_property_identifier",
    "shorthand_property_identifier_pattern", "private_property_identifier",
    "statement_identifier", "jsx_identifier"]

namespace Context

/-- The text that a tree covers; empty when its range is not a piece of the source. -/
def textOf (context : Context) (tree : Tree) : String :=
  (Text.slice? context.source tree.start tree.stop).getD ""

/-- The text of the node that answers for a field. -/
def fieldText? (context : Context) (tree : Tree) (field : String) : Option String :=
  (tree.child? field).bind fun child => Text.slice? context.source child.start child.stop

/-- The text of the node that answers for a field, or nothing. -/
def fieldText (context : Context) (tree : Tree) (field : String) : String :=
  (context.fieldText? tree field).getD ""

/-- Lower a list of trees. -/
def lowerAll (context : Context) (trees : List Tree) : Lowered (List Node) :=
  .all (trees.map context.lower)

/-- Lower an optional tree. -/
def lowerOptional (context : Context) (tree : Option Tree) : Lowered (Option Node) :=
  .optional (tree.map context.lower)

/-- A field that must be there. -/
def required (context : Context) (tree : Tree) (field : String) : Lowered Node :=
  match tree.child? field with
  | some child => context.lower child
  | none => pure (lacking tree field)

/-- A field that may be absent; a token does not fill it. -/
def optional (context : Context) (tree : Tree) (field : String) : Lowered (Option Node) :=
  context.lowerOptional ((tree.child? field).filter (·.named))

/-- All named children that fill a field. -/
def many (context : Context) (tree : Tree) (field : String) : Lowered (List Node) :=
  context.lowerAll (tree.partsOf field)

/-- All named children. -/
def parts (context : Context) (tree : Tree) : Lowered (List Node) :=
  context.lowerAll tree.parts

/-- The named children of the node that answers for a field. -/
def partsWithin (context : Context) (tree : Tree) (field : String) : Lowered (List Node) :=
  match tree.child? field with
  | some child => context.parts child
  | none => pure []

/-- The first named child, if any. -/
def first (context : Context) (tree : Tree) : Lowered (Option Node) :=
  context.lowerOptional tree.firstPart?

/-- The first named child of the node that answers for a field, if any. -/
def firstWithin (context : Context) (tree : Tree) (field : String) : Lowered (Option Node) :=
  match tree.child? field with
  | some child => context.first child
  | none => pure none

/-- The first named child, or a node that says what lacks it. -/
def firstRequired (context : Context) (tree : Tree) : Lowered Node :=
  match tree.firstPart? with
  | some child => context.lower child
  | none => pure (unmodelled tree)

/-- A condition without the parentheses around it. -/
def condition (context : Context) (tree : Tree) (field : String) : Lowered Node :=
  match tree.child? field with
  | some child =>
    if child.kind = "parenthesized_expression" then context.firstRequired child
    else context.lower child
  | none => pure (lacking tree field)

/-- A tree in the place of a name. -/
def name (context : Context) (tree : Tree) : Lowered Node :=
  if nameKinds.contains tree.kind then pure (plainIdentifier tree (context.textOf tree))
  else context.lower tree

/-- A field that holds a name and must be there. -/
def nameField (context : Context) (tree : Tree) (field : String) : Lowered Node :=
  match tree.child? field with
  | some child => context.name child
  | none => pure (lacking tree field)

/-- A field that holds a name and may be absent. -/
def optionalName (context : Context) (tree : Tree) (field : String) : Lowered (Option Node) :=
  .optional ((tree.child? field).map context.name)

/-- The decorators among the named children. -/
def decorators (context : Context) (tree : Tree) : Lowered (List Node) :=
  context.lowerAll (tree.parts.filter fun child => child.kind == "decorator")

/-- The access stated by a modifier among the children. -/
def access (context : Context) (tree : Tree) : Option Access :=
  (tree.partOfKind? "accessibility_modifier").bind fun modifier =>
    Access.ofModifier? (context.textOf modifier)

end Context

/-- A node with the annotation and the optional mark of the binding it makes; nodes that bind
nothing stay as they are. -/
def annotated (type : Option Node) (optional : Bool) : Node → Node
  | .mk span .identifier slots =>
    match slots with
    | .attribute name (.optionalChild _ (.attribute _ .done)) =>
      .mk span .identifier (.attribute name <| .optionalChild type <| .attribute optional .done)
  | .mk span .arrayPattern slots =>
    match slots with
    | .children elements (.optionalChild _ (.attribute _ .done)) =>
      .mk span .arrayPattern
        (.children elements <| .optionalChild type <| .attribute optional .done)
  | .mk span .objectPattern slots =>
    match slots with
    | .children members (.optionalChild _ (.attribute _ .done)) =>
      .mk span .objectPattern
        (.children members <| .optionalChild type <| .attribute optional .done)
  | .mk span .restPattern slots =>
    match slots with
    | .child target (.optionalChild _ .done) =>
      .mk span .restPattern (.child target <| .optionalChild type .done)
  | other => other

/-- A binding target with its annotation and optional mark. -/
def Context.binding (context : Context) (pattern : Tree) (type : Option Tree)
    (optional : Bool) : Lowered Node := do
  let target ← context.lower pattern
  let type ← context.lowerOptional type
  pure (annotated type optional target)

end CodeClones.Lowering
