import CodeClones.Lowering.Classes
import CodeClones.Lowering.Templates
import CodeClones.Numeric.Literal
import CodeClones.Text.Whitespace

/-!
# Lowering: expressions, literals and patterns
-/

namespace CodeClones.Lowering

open Syntax Concrete

/-- A numeric literal. Separators do not count; a final `n` makes an integer of any size, which
keeps its digits. -/
def numberNode (tree : Tree) (text : String) : Node :=
  let written := text.toList.filter (· != '_')
  if written.getLast? = some 'n' then
    place tree .bigIntegerLiteral
      (.attribute (String.ofList (Text.lowerAscii written.dropLast)) .done)
  else match Numeric.literal? written with
    | some value => place tree .numberLiteral (.attribute value .done)
    | none => unmodelled tree

/-- Whether the tree stops at a missing value. -/
def isOptionalChain (tree : Tree) : Bool :=
  tree.children.any fun child => child.kind == "optional_chain" || child.kind == "?."

/-- An access or a call, wrapped if it stops at a missing value. -/
def chained (tree : Tree) (inner : Node) : Node :=
  if isOptionalChain tree then place tree .optionalChain (.child inner .done) else inner

namespace Context

/-- The operator of an expression. -/
def operator (context : Context) (tree : Tree) : String :=
  context.fieldText tree "operator"

/-- A call, or a template behind a tag. -/
def callOrTag (context : Context) (tree : Tree) : Lowered Node := do
  let callee ← context.required tree "function"
  let typeArguments ← context.optional tree "type_arguments"
  match tree.child? "arguments" with
  | some arguments =>
    if arguments.kind = "template_string" then
      let template ← context.lower arguments
      pure (place tree .taggedTemplate
        (.child callee <| .optionalChild typeArguments <| .child template .done))
    else
      let arguments ← context.parts arguments
      pure (chained tree (place tree .call
        (.child callee <| .optionalChild typeArguments <| .children arguments .done)))
  | none =>
    pure (chained tree (place tree .call
      (.child callee <| .optionalChild typeArguments <| .children [] .done)))

/-- A method, getter or setter of an object. -/
def objectMethod (context : Context) (tree : Tree) : Lowered Node := do
  let key ← context.nameField tree "name"
  match flavourOf tree with
  | .getter =>
    let type ← context.optional tree "return_type"
    let body ← context.optional tree "body"
    pure (place tree .getterProperty
      (.child key <| .optionalChild type <| .optionalChild body .done))
  | .setter =>
    let parameters ← context.signatureParameters tree
    let body ← context.optional tree "body"
    pure (place tree .setterProperty
      (.child key <| .optionalChild parameters.head? <| .optionalChild body .done))
  | .method =>
    let parts ← context.functionParts tree
    pure (place tree .methodProperty
      (.child key <| .children parts.decorators <| .optionalChild parts.typeParameters <|
        .children parts.parameters <| .optionalChild parts.returnType <|
        .optionalChild parts.body <| .attribute parts.isAsync <|
        .attribute parts.isGenerator .done))

/-- A member of an object. -/
def objectMember (context : Context) (tree : Tree) : Lowered Node :=
  if tree.kind = "method_definition" then context.objectMethod tree else context.lower tree

/-- A member of an object pattern. -/
def patternMember (context : Context) (tree : Tree) : Lowered Node :=
  if tree.kind = "shorthand_property_identifier_pattern" then do
    let key ← context.name tree
    pure (place tree .shorthandPattern (.child key <| .optionalChild none .done))
  else context.lower tree

end Context

/-- A name as an expression. -/
def identifierRule : Rule := fun context tree =>
  pure (plainIdentifier tree (context.textOf tree))

/-- A function as an expression. -/
def functionExpression : Rule := fun context tree => do
  let name ← context.optionalName tree "name"
  let parts ← context.functionParts tree
  pure (place tree .functionExpression (.optionalChild name parts.slots))

/-- Access to a member by a key. -/
def subscript : Rule := fun context tree => do
  let property ← match tree.child? "index" with
    | some index => do
      let expression ← context.lower index
      pure (place index .computedKey (.child expression .done))
    | none => pure (unmodelled tree)
  let object ← context.required tree "object"
  pure (chained tree (place tree .memberAccess (.child object <| .child property .done)))

/-- A cast behind an expression; without a type it is to the narrowest one. -/
def castBehind : Rule := fun context tree =>
  match tree.parts with
  | expression :: type :: _ => do
    let expression ← context.lower expression
    let type ← context.lower type
    pure (place tree .asExpression (.child expression <| .child type .done))
  | [expression] => do
    let expression ← context.lower expression
    pure (place tree .constAssertion (.child expression .done))
  | [] => pure (unmodelled tree)

/-- A check of a type behind an expression. -/
def checkBehind : Rule := fun context tree =>
  match tree.parts with
  | expression :: type :: _ => do
    let expression ← context.lower expression
    let type ← context.lower type
    pure (place tree .satisfiesExpression (.child expression <| .child type .done))
  | _ => pure (unmodelled tree)

/-- A cast in front of an expression. -/
def castBefore : Rule := fun context tree =>
  match tree.parts with
  | bracketed :: expression :: _ => do
    let type ← if bracketed.kind = "type_arguments" then context.firstRequired bracketed
      else context.lower bracketed
    let expression ← context.lower expression
    pure (place tree .typeAssertion (.child expression <| .child type .done))
  | _ => pure (unmodelled tree)

/-- How expressions, literals and patterns are lowered, by the grammar's name. -/
def expressionRules : List (String × Rule) :=
  [("identifier", identifierRule),
    ("property_identifier", identifierRule),
    ("shorthand_property_identifier", identifierRule),
    ("shorthand_property_identifier_pattern", identifierRule),
    ("private_property_identifier", identifierRule),
    ("statement_identifier", identifierRule),
    ("undefined", identifierRule),
    ("this", fun _ tree => pure (place tree .thisKeyword .done)),
    ("super", fun _ tree => pure (place tree .superKeyword .done)),
    ("null", fun _ tree => pure (place tree .nullLiteral .done)),
    ("import", fun _ tree => pure (place tree .importKeyword .done)),
    ("true", fun _ tree => pure (place tree .booleanLiteral (.attribute true .done))),
    ("false", fun _ tree => pure (place tree .booleanLiteral (.attribute false .done))),
    ("number", fun context tree => pure (numberNode tree (context.textOf tree))),
    ("string", fun context tree =>
      pure (place tree .stringLiteral (.attribute (Text.literalValue (context.textOf tree)) .done))),
    ("template_string", fun context tree => do
      let holes ← context.templateHoles "template_substitution" tree
      pure (place tree .templateLiteral
        (.children (templateSegments context.source "template_substitution" tree) <|
          .children holes .done))),
    ("template_substitution", fun context tree => context.firstRequired tree),
    ("regex", fun context tree =>
      pure (place tree .regexLiteral
        (.attribute (context.fieldText tree "pattern") <|
          .attribute (context.fieldText tree "flags") .done))),
    ("array", fun context tree => do
      let elements ← context.parts tree
      pure (place tree .arrayLiteral (.children elements .done))),
    ("object", fun context tree => do
      let members ← Lowered.all (tree.parts.map context.objectMember)
      pure (place tree .objectLiteral (.children members .done))),
    ("pair", fun context tree => do
      let key ← context.nameField tree "key"
      let value ← context.required tree "value"
      pure (place tree .keyValueProperty (.child key <| .child value .done))),
    ("computed_property_name", fun context tree => do
      let expression ← context.firstRequired tree
      pure (place tree .computedKey (.child expression .done))),
    ("spread_element", fun context tree => do
      let expression ← context.firstRequired tree
      pure (place tree .spread (.child expression .done))),
    ("function_expression", functionExpression),
    ("function", functionExpression),
    ("generator_function", functionExpression),
    ("arrow_function", fun context tree => do
      let parts ← context.functionParts tree
      pure (place tree .arrowFunction parts.slots)),
    ("class", fun context tree => do
      let name ← context.optionalName tree "name"
      let parts ← context.classParts tree
      pure (place tree .classExpression (.optionalChild name parts.slots))),
    ("call_expression", fun context tree => context.callOrTag tree),
    ("new_expression", fun context tree => do
      let callee ← context.required tree "constructor"
      let arguments ← Lowered.optional ((tree.child? "arguments").map context.parts)
      let typeArguments ← context.optional tree "type_arguments"
      pure (place tree .construction
        (.child callee <| .optionalChild typeArguments <| .optionalChildren arguments .done))),
    ("member_expression", fun context tree => do
      let object ← context.required tree "object"
      let property ← context.nameField tree "property"
      pure (chained tree (place tree .memberAccess (.child object <| .child property .done)))),
    ("subscript_expression", subscript),
    ("parenthesized_expression", fun context tree => do
      let expression ← context.firstRequired tree
      pure (place tree .parenthesized (.child expression .done))),
    ("binary_expression", fun context tree => do
      let left ← context.required tree "left"
      let right ← context.required tree "right"
      pure (place tree .binary
        (.attribute (context.operator tree) <| .child left <| .child right .done))),
    ("unary_expression", fun context tree => do
      let operand ← context.required tree "argument"
      pure (place tree .unary (.attribute (context.operator tree) <| .child operand .done))),
    ("update_expression", fun context tree => do
      let operand ← context.required tree "argument"
      let operandStart := ((tree.child? "argument").map (·.start)).getD 0
      let isBefore := (tree.child? "operator").any fun operator => operator.start < operandStart
      pure (place tree .update
        (.attribute (context.operator tree) <| .attribute isBefore <| .child operand .done))),
    ("assignment_expression", fun context tree => do
      let left ← context.required tree "left"
      let right ← context.required tree "right"
      pure (place tree .assignment (.attribute "=" <| .child left <| .child right .done))),
    ("augmented_assignment_expression", fun context tree => do
      let left ← context.required tree "left"
      let right ← context.required tree "right"
      pure (place tree .assignment
        (.attribute (context.operator tree) <| .child left <| .child right .done))),
    ("ternary_expression", fun context tree => do
      let test ← context.required tree "condition"
      let consequence ← context.required tree "consequence"
      let alternative ← context.required tree "alternative"
      pure (place tree .conditional
        (.child test <| .child consequence <| .child alternative .done))),
    ("sequence_expression", fun context tree => do
      let operands ← context.lowerAll (unroll "sequence_expression" [tree])
      pure (place tree .sequence (.children operands .done))),
    ("await_expression", fun context tree => do
      let operand ← context.firstRequired tree
      pure (place tree .awaitExpression (.child operand .done))),
    ("yield_expression", fun context tree => do
      let operand ← context.first tree
      pure (place tree .yieldExpression
        (.optionalChild operand <| .attribute (tree.hasToken "*") .done))),
    ("meta_property", fun context tree =>
      pure (place tree .metaProperty
        (.attribute (Text.withoutSpaces (context.textOf tree)) .done))),
    ("as_expression", castBehind),
    ("satisfies_expression", checkBehind),
    ("non_null_expression", fun context tree => do
      let expression ← context.firstRequired tree
      pure (place tree .nonNullAssertion (.child expression .done))),
    ("type_assertion", castBefore),
    ("object_pattern", fun context tree => do
      let members ← Lowered.all (tree.parts.map context.patternMember)
      pure (place tree .objectPattern
        (.children members <| .optionalChild none <| .attribute false .done))),
    ("array_pattern", fun context tree => do
      let elements ← context.parts tree
      pure (place tree .arrayPattern
        (.children elements <| .optionalChild none <| .attribute false .done))),
    ("assignment_pattern", fun context tree => do
      let left ← context.required tree "left"
      let right ← context.required tree "right"
      pure (place tree .defaultPattern (.child left <| .child right .done))),
    ("rest_pattern", fun context tree => do
      let target ← context.firstRequired tree
      pure (place tree .restPattern (.child target <| .optionalChild none .done))),
    ("pair_pattern", fun context tree => do
      let key ← context.nameField tree "key"
      let value ← context.required tree "value"
      pure (place tree .keyValuePattern (.child key <| .child value .done))),
    ("object_assignment_pattern", fun context tree => do
      let key ← context.nameField tree "left"
      let value ← context.optional tree "right"
      pure (place tree .shorthandPattern (.child key <| .optionalChild value .done))),
    ("required_parameter", fun context tree => context.fullParameter tree),
    ("optional_parameter", fun context tree => context.fullParameter tree)]

end CodeClones.Lowering
