import CodeClones.Lowering.Functions
import CodeClones.Lowering.Names

/-!
# Lowering: classes

A decorator before a method or a field belongs to it, together with all decorators directly
before it and those inside the member. A decorator before any other member belongs to nothing.
-/

namespace CodeClones.Lowering

open Syntax Concrete

/-- What all classes have. -/
structure ClassParts where
  /-- Decorators in front of the class. -/
  decorators : List Node
  /-- Its type parameters. -/
  typeParameters : Option Node
  /-- The class that it extends. -/
  superclass : Option Node
  /-- The type arguments of that class. -/
  superArguments : Option Node
  /-- The interfaces that it implements. -/
  interfaces : List Node
  /-- Its members. -/
  body : List Node
  /-- Whether it cannot be constructed itself. -/
  isAbstract : Bool

/-- The parts as contents of the fields that classes share. -/
def ClassParts.slots (parts : ClassParts) : Slots classFields :=
  .children parts.decorators <| .optionalChild parts.typeParameters <|
    .optionalChild parts.superclass <| .optionalChild parts.superArguments <|
    .children parts.interfaces <| .children parts.body <| .attribute parts.isAbstract .done

/-- Whether a key names the constructor. -/
def isConstructorKey : Node → Bool
  | .mk _ .identifier (.attribute name _) => name == "constructor"
  | .mk _ .stringLiteral (.attribute value _) => value == "constructor"
  | _ => false

/-- A signature of keys with its static mark; other nodes stay as they are. -/
def markedStatic (isStatic : Bool) : Node → Node
  | .mk span .indexSignature slots =>
    match slots with
    | .children parameters (.optionalChild type (.attribute readonly (.attribute _ .done))) =>
      .mk span .indexSignature
        (.children parameters <| .optionalChild type <| .attribute readonly <|
          .attribute isStatic .done)
  | other => other

/-- What a method does, by the word in front of it. -/
def flavourOf (tree : Tree) : MethodFlavour :=
  if tree.hasTokenBefore "get" (bodyStart tree) then .getter
  else if tree.hasTokenBefore "set" (bodyStart tree) then .setter
  else .method

/-- What the clauses of a class say about its ancestors. -/
structure Ancestry where
  /-- The class that is extended. -/
  superclass : Option Node
  /-- The type arguments of that class. -/
  superArguments : Option Node
  /-- The interfaces that are implemented. -/
  interfaces : List Node

namespace Context

/-- A method, getter, setter or constructor, with the decorators that stand before it. -/
def method (context : Context) (leading : List Node) (tree : Tree) : Lowered Node := do
  let key ← context.nameField tree "name"
  let parts ← context.functionParts tree
  let parts := { parts with decorators := leading ++ parts.decorators }
  if isConstructorKey key then
    pure (place tree .classConstructor
      (.child key <| .children parts.parameters <| .optionalChild parts.body <|
        .attribute (context.access tree) .done))
  else
    pure (place tree .classMethod
      (.children parts.decorators <| .child key <| .optionalChild parts.typeParameters <|
        .children parts.parameters <| .optionalChild parts.returnType <|
        .optionalChild parts.body <| .attribute parts.isAsync <| .attribute parts.isGenerator <|
        .attribute (flavourOf tree) <| .attribute (tree.hasToken "static") <|
        .attribute (context.access tree) .done))

/-- A field of a class, with the decorators that stand before it. -/
def property (context : Context) (leading : List Node) (tree : Tree) : Lowered Node := do
  let key ← match (tree.child? "name").or (tree.child? "property") with
    | some key => context.name key
    | none => pure (unmodelled tree)
  let value ← context.optional tree "value"
  let type ← context.optional tree "type"
  let decorators ← context.decorators tree
  pure (place tree .classProperty
    (.children (leading ++ decorators) <| .child key <| .optionalChild type <|
      .optionalChild value <| .attribute (context.access tree) <|
      .attribute (tree.hasToken "static") <| .attribute (tree.hasToken "readonly") <|
      .attribute (tree.hasToken "?") .done))

/-- A member of a class, with the decorators that stand before it. -/
def member (context : Context) (leading : List Node) (tree : Tree) : Lowered Node :=
  match tree.kind with
  | "method_definition" | "method_signature" | "abstract_method_signature" =>
    context.method leading tree
  | "public_field_definition" | "field_definition" => context.property leading tree
  | "index_signature" => markedStatic (tree.hasToken "static") <$> context.lower tree
  | _ => context.lower tree

/-- The members among the trees, each with the decorators since the member before it. -/
def members (context : Context) (pending : List Node) : List Tree → Lowered (List Node)
  | [] => pure []
  | tree :: others =>
    if tree.kind = "decorator" then do
      let decorator ← context.lower tree
      context.members (pending ++ [decorator]) others
    else do
      let member ← context.member pending tree
      let rest ← context.members [] others
      pure (member :: rest)

/-- Take one clause of a class into account. -/
def clause (context : Context) (ancestry : Ancestry) (tree : Tree) : Lowered Ancestry :=
  match tree.kind with
  | "extends_clause" => do
    let superclass ← match tree.child? "value" with
      | some value => some <$> context.lower value
      | none => context.first tree
    let superArguments ← context.optional tree "type_arguments"
    pure { ancestry with superclass, superArguments }
  | "implements_clause" => do
    let interfaces ← context.heritage tree
    pure { ancestry with interfaces }
  | _ =>
    match ancestry.superclass with
    | some _ => pure ancestry
    | none => do
      let superclass ← context.lower tree
      pure { ancestry with superclass := some superclass }

/-- Take the clauses of a class into account, one after another. -/
def clauses (context : Context) (ancestry : Ancestry) : List Tree → Lowered Ancestry
  | [] => pure ancestry
  | tree :: others => do
    let ancestry ← context.clause ancestry tree
    context.clauses ancestry others

/-- The ancestors of a class. -/
def ancestry (context : Context) (tree : Tree) : Lowered Ancestry :=
  match tree.partOfKind? "class_heritage" with
  | some heritage => context.clauses ⟨none, none, []⟩ heritage.parts
  | none => pure ⟨none, none, []⟩

/-- The members of a class. -/
def classBody (context : Context) (tree : Tree) : Lowered (List Node) :=
  match tree.child? "body" with
  | some body => context.members [] body.parts
  | none => pure []

/-- The parts of a class. -/
def classParts (context : Context) (tree : Tree) : Lowered ClassParts := do
  let decorators ← context.decorators tree
  let typeParameters ← context.optional tree "type_parameters"
  let ancestry ← context.ancestry tree
  let body ← context.classBody tree
  pure { decorators, typeParameters, body
         superclass := ancestry.superclass
         superArguments := ancestry.superArguments
         interfaces := ancestry.interfaces
         isAbstract := tree.kind == "abstract_class_declaration" || tree.hasToken "abstract" }

end Context

end CodeClones.Lowering
