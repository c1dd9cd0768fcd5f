import CodeClones.Lowering.Basic

/-!
# Lowering: functions and their parameters

Declarations, expressions, arrow functions and methods share one shape, and so do all lists of
parameters.
-/

namespace CodeClones.Lowering

open Syntax Concrete

/-- What all functions have. -/
structure FunctionParts where
  /-- Decorators in front of the function. -/
  decorators : List Node
  /-- Its type parameters. -/
  typeParameters : Option Node
  /-- Its parameters. -/
  parameters : List Node
  /-- The type that it gives. -/
  returnType : Option Node
  /-- A block, or the expression of a short arrow function. -/
  body : Option Node
  /-- Whether it may wait. -/
  isAsync : Bool
  /-- Whether it hands out values one by one. -/
  isGenerator : Bool

/-- The parts as contents of the fields that functions share. -/
def FunctionParts.slots (parts : FunctionParts) : Slots functionFields :=
  .children parts.decorators <| .optionalChild parts.typeParameters <|
    .children parts.parameters <| .optionalChild parts.returnType <|
    .optionalChild parts.body <| .attribute parts.isAsync <| .attribute parts.isGenerator .done

/-- A parameter with its default value, if it has one. -/
def withDefault (value : Option (Tree × Node)) (pattern : Node) : Node :=
  match value with
  | some (tree, default) =>
    .mk ⟨pattern.span.start, tree.stop⟩ .defaultPattern (.child pattern <| .child default .done)
  | none => pattern

/-- Where the body of a function begins, or its end if it has none. -/
def bodyStart (tree : Tree) : Nat :=
  match tree.child? "body" with
  | some body => body.start
  | none => tree.stop

namespace Context

/-- A parameter that is nothing but a pattern. -/
def barePattern (context : Context) (tree : Tree) : Lowered Node := do
  let pattern ← context.lower tree
  pure (place tree .parameter (.children [] <| .child pattern .done))

/-- What a parameter binds, with its type. -/
def parameterTarget (context : Context) (tree : Tree) : Lowered Node :=
  match tree.child? "pattern" with
  | some pattern =>
    context.binding pattern (tree.child? "type") (tree.kind == "optional_parameter")
  | none => pure (unmodelled tree)

/-- What a parameter binds, with its type and its default value. -/
def parameterPattern (context : Context) (tree : Tree) : Lowered Node := do
  let target ← context.parameterTarget tree
  let value ← Lowered.optional ((tree.child? "value").map fun value => do
    pure (value, ← context.lower value))
  pure (withDefault value target)

/-- A parameter that may have decorators, modifiers, a type and a default value. -/
def fullParameter (context : Context) (tree : Tree) : Lowered Node := do
  let decorators ← context.decorators tree
  let access := context.access tree
  let readonly := tree.hasToken "readonly"
  let pattern ← context.parameterPattern tree
  if access.isSome || readonly then
    pure (place tree .parameterProperty
      (.children decorators <| .attribute access <| .attribute readonly <| .child pattern .done))
  else
    pure (place tree .parameter (.children decorators <| .child pattern .done))

/-- A member of a list of parameters. -/
def parameter (context : Context) (tree : Tree) : Lowered Node :=
  if tree.kind = "required_parameter" ∨ tree.kind = "optional_parameter" then
    context.fullParameter tree
  else context.barePattern tree

/-- A list of parameters. -/
def parameters (context : Context) (list : Tree) : Lowered (List Node) :=
  .all (list.parts.map context.parameter)

/-- The parameters of a signature; none when it has no list of them. -/
def signatureParameters (context : Context) (tree : Tree) : Lowered (List Node) :=
  match tree.child? "parameters" with
  | some list => context.parameters list
  | none => pure []

/-- The parameters of a function: a list, or the single name of a short arrow function. -/
def functionParameters (context : Context) (tree : Tree) : Lowered (List Node) :=
  match tree.child? "parameters", tree.child? "parameter" with
  | some list, _ => context.parameters list
  | none, some single => do pure [← context.barePattern single]
  | none, none => pure []

/-- The parts of a function. -/
def functionParts (context : Context) (tree : Tree) : Lowered FunctionParts := do
  let parameters ← context.functionParameters tree
  let decorators ← context.decorators tree
  let body ← context.optional tree "body"
  let typeParameters ← context.optional tree "type_parameters"
  let returnType ← context.optional tree "return_type"
  pure { decorators, typeParameters, parameters, returnType, body
         isAsync := tree.hasTokenBefore "async" (bodyStart tree)
         isGenerator := tree.hasTokenBefore "*" (bodyStart tree) }

end Context

end CodeClones.Lowering
