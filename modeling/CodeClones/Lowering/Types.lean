import CodeClones.Lowering.Functions
import CodeClones.Lowering.Names
import CodeClones.Lowering.Templates

/-!
# Lowering: types
-/

namespace CodeClones.Lowering

open Syntax Concrete

/-- A claim about a type with its mark that the claim is asserted; other nodes stay as they
are. -/
def markedAsserted : Node → Node
  | .mk span .typePredicate slots =>
    match slots with
    | .attribute _ (.child name (.optionalChild type .done)) =>
      .mk span .typePredicate (.attribute true <| .child name <| .optionalChild type .done)
  | other => other

/-- A name with the type of the keys that it stands for; other nodes stay as they are. -/
def withKeyType (type : Option Node) : Node → Node
  | .mk span .identifier slots =>
    match slots with
    | .attribute name (.optionalChild _ (.attribute optional .done)) =>
      .mk span .identifier (.attribute name <| .optionalChild type <| .attribute optional .done)
  | other => other

/-- Whether a node is a name. -/
def isIdentifier (node : Node) : Bool :=
  node.kind == .identifier

/-- What the kind of ascription says about whether the members of a mapped type are
optional. -/
def optionalMark? (kind : String) : Option String :=
  match kind with
  | "opting_type_annotation" => some "?"
  | "omitting_type_annotation" => some "-?"
  | "adding_type_annotation" => some "+?"
  | _ => none

namespace Context

/-- A type that wraps the first named child. -/
def wrapping (context : Context) (tree : Tree) (wrap : Node → Node) : Lowered Node :=
  wrap <$> context.firstRequired tree

/-- How the members of a mapped type are marked as constant. -/
def readonlyMark? (context : Context) (tree : Tree) : Option String :=
  if tree.hasToken "readonly" then
    some (match context.fieldText? tree "sign" with
      | some "-" => "-readonly"
      | some "+" => "+readonly"
      | _ => "readonly")
  else none

/-- A type built key by key. -/
def mappedType (context : Context) (clause tree : Tree) : Lowered Node := do
  let name ← context.nameField clause "name"
  let constraint ← context.optional clause "type"
  let parameter := place clause .typeParameter
    (.child name <| .optionalChild constraint <| .optionalChild none .done)
  let renamed ← context.optional clause "alias"
  let type ← context.firstWithin tree "type"
  pure (place tree .mappedType
    (.child parameter <| .optionalChild renamed <|
      .attribute ((tree.child? "type").bind fun ascription => optionalMark? ascription.kind) <|
      .attribute (context.readonlyMark? tree) <| .optionalChild type .done))

/-- The type of the keys of a signature, as an ascription of its own. -/
def keyType (context : Context) (tree : Tree) : Lowered (Option Node) :=
  .optional ((tree.child? "index_type").map fun type => do
    let inner ← context.lower type
    pure (place type .typeAscription (.child inner .done)))

/-- The typed key of a signature. -/
def signatureKey (context : Context) (tree name : Tree) : Lowered Node := do
  let key ← context.name name
  if isIdentifier key then
    let type ← context.keyType tree
    pure (withKeyType type key)
  else pure key

/-- The type of all keys of an object, or a mapped type. -/
def keySignature (context : Context) (tree : Tree) : Lowered Node :=
  match tree.partOfKind? "mapped_type_clause" with
  | some clause => context.mappedType clause tree
  | none => do
    let key ← Lowered.optional ((tree.child? "name").map (context.signatureKey tree))
    let type ← context.lowerOptional (tree.child? "type")
    pure (place tree .indexSignature
      (.children key.toList <| .optionalChild type <|
        .attribute (tree.hasToken "readonly") <| .attribute false .done))

/-- A claim about the type of a parameter that is asserted. -/
def assertion (context : Context) (tree : Tree) : Lowered Node :=
  match tree.firstPart? with
  | none => pure (unmodelled tree)
  | some inner =>
    if inner.kind = "type_predicate" then do
      let claim ← context.lower inner
      pure ((markedAsserted claim).withSpan tree.span)
    else do
      let name ← context.name inner
      pure (place tree .typePredicate
        (.attribute true <| .child name <| .optionalChild none .done))

end Context

/-- A type written behind a name. -/
def ascription : Rule := fun context tree =>
  context.wrapping tree fun type => place tree .typeAscription (.child type .done)

/-- A method of an object type. -/
def methodSignature : Rule := fun context tree => do
  let key ← context.nameField tree "name"
  let parameters ← context.signatureParameters tree
  let typeParameters ← context.optional tree "type_parameters"
  let type ← context.optional tree "return_type"
  pure (place tree .methodSignature
    (.child key <| .optionalChild typeParameters <| .children parameters <|
      .optionalChild type <| .attribute (tree.hasToken "?") .done))

/-- The type of a function. -/
def functionType : Rule := fun context tree => do
  let parameters ← context.signatureParameters tree
  let typeParameters ← context.optional tree "type_parameters"
  let returned ← context.optional tree "return_type"
  let type ← match returned with
    | some type => pure (some type)
    | none => context.optional tree "type"
  pure (place tree .functionType
    (.optionalChild typeParameters <| .children parameters <| .optionalChild type .done))

/-- The type of an expression. -/
def typeQuery : Rule := fun context tree => do
  let typeArguments ← context.lowerOptional
    (tree.parts.find? fun child => child.kind == "type_arguments")
  match tree.parts.find? fun child => child.kind != "type_arguments" with
  | some expression =>
    let expression ← context.lower expression
    pure (place tree .typeQuery (.child expression <| .optionalChild typeArguments .done))
  | none => pure (unmodelled tree)

/-- The type of a member. -/
def indexedAccess : Rule := fun context tree =>
  match tree.parts with
  | object :: index :: _ => do
    let object ← context.lower object
    let index ← context.lower index
    pure (place tree .indexedAccessType (.child object <| .child index .done))
  | _ => pure (unmodelled tree)

/-- A type to be found by the choice around it. -/
def inferType : Rule := fun context tree =>
  match tree.parts with
  | [] => pure (unmodelled tree)
  | nameTree :: others => do
    let name ← context.name nameTree
    let constraint ← context.lowerOptional others.head?
    let parameter := place nameTree .typeParameter
      (.child name <| .optionalChild constraint <| .optionalChild none .done)
    pure (place tree .inferType (.child parameter .done))

/-- How types are lowered, by the grammar's name. -/
def typeRules : List (String × Rule) :=
  [("type_annotation", ascription),
    ("opting_type_annotation", ascription),
    ("omitting_type_annotation", ascription),
    ("adding_type_annotation", ascription),
    ("asserts_annotation", ascription),
    ("type_predicate_annotation", ascription),
    ("predefined_type", fun context tree =>
      pure (place tree .keywordType (.attribute (context.textOf tree) .done))),
    ("this_type", fun _ tree => pure (place tree .thisType .done)),
    ("type_identifier", fun context tree => do
      let name ← context.name tree
      pure (place tree .typeReference (.child name <| .optionalChild none .done))),
    ("nested_type_identifier", fun context tree => do
      let name ← context.qualifiedName tree
      pure (place tree .typeReference (.child name <| .optionalChild none .done))),
    ("generic_type", fun context tree => do
      let name ← context.genericName tree
      let typeArguments ← context.optional tree "type_arguments"
      pure (place tree .typeReference (.child name <| .optionalChild typeArguments .done))),
    ("type_arguments", fun context tree => do
      let types ← context.parts tree
      pure (place tree .typeArguments (.children types .done))),
    ("type_parameters", fun context tree => do
      let parameters ← context.parts tree
      pure (place tree .typeParameters (.children parameters .done))),
    ("type_parameter", fun context tree => do
      let name ← context.nameField tree "name"
      let constraint ← context.firstWithin tree "constraint"
      let default ← context.firstWithin tree "value"
      pure (place tree .typeParameter
        (.child name <| .optionalChild constraint <| .optionalChild default .done))),
    ("union_type", fun context tree => do
      let types ← context.lowerAll (operands "union_type" tree)
      pure (place tree .unionType (.children types .done))),
    ("intersection_type", fun context tree => do
      let types ← context.lowerAll (operands "intersection_type" tree)
      pure (place tree .intersectionType (.children types .done))),
    ("array_type", fun context tree =>
      context.wrapping tree fun type => place tree .arrayType (.child type .done)),
    ("tuple_type", fun context tree => do
      let elements ← context.parts tree
      pure (place tree .tupleType (.children elements .done))),
    ("optional_type", fun context tree =>
      context.wrapping tree fun type => place tree .optionalType (.child type .done)),
    ("rest_type", fun context tree =>
      context.wrapping tree fun type => place tree .restType (.child type .done)),
    ("function_type", functionType),
    ("constructor_type", fun context tree => do
      let parameters ← context.signatureParameters tree
      let typeParameters ← context.optional tree "type_parameters"
      let type ← context.optional tree "type"
      pure (place tree .constructorType
        (.optionalChild typeParameters <| .children parameters <| .optionalChild type <|
          .attribute (tree.hasToken "abstract") .done))),
    ("object_type", fun context tree => do
      let members ← context.parts tree
      pure (place tree .objectType (.children members .done))),
    ("interface_body", fun context tree => do
      let members ← context.parts tree
      pure (place tree .interfaceBody (.children members .done))),
    ("property_signature", fun context tree => do
      let key ← context.nameField tree "name"
      let type ← context.optional tree "type"
      pure (place tree .propertySignature
        (.child key <| .attribute (tree.hasToken "?") <| .attribute (tree.hasToken "readonly") <|
          .optionalChild type .done))),
    ("method_signature", methodSignature),
    ("abstract_method_signature", methodSignature),
    ("call_signature", fun context tree => do
      let parameters ← context.signatureParameters tree
      let typeParameters ← context.optional tree "type_parameters"
      let type ← context.optional tree "return_type"
      pure (place tree .callSignature
        (.optionalChild typeParameters <| .children parameters <| .optionalChild type .done))),
    ("construct_signature", fun context tree => do
      let parameters ← context.signatureParameters tree
      let typeParameters ← context.optional tree "type_parameters"
      let type ← context.optional tree "type"
      pure (place tree .constructSignature
        (.optionalChild typeParameters <| .children parameters <| .optionalChild type .done))),
    ("index_signature", fun context tree => context.keySignature tree),
    ("literal_type", fun context tree =>
      context.wrapping tree fun literal => place tree .literalType (.child literal .done)),
    ("type_query", typeQuery),
    ("index_type_query", fun context tree =>
      context.wrapping tree fun type =>
        place tree .typeOperator (.attribute "keyof" <| .child type .done)),
    ("readonly_type", fun context tree =>
      context.wrapping tree fun type =>
        place tree .typeOperator (.attribute "readonly" <| .child type .done)),
    ("lookup_type", indexedAccess),
    ("parenthesized_type", fun context tree =>
      context.wrapping tree fun type => place tree .parenthesizedType (.child type .done)),
    ("conditional_type", fun context tree => do
      let checked ← context.required tree "left"
      let bound ← context.required tree "right"
      let consequence ← context.required tree "consequence"
      let alternative ← context.required tree "alternative"
      pure (place tree .conditionalType
        (.child checked <| .child bound <| .child consequence <| .child alternative .done))),
    ("infer_type", inferType),
    ("template_literal_type", fun context tree => do
      let holes ← context.templateHoles "template_type" tree
      pure (place tree .templateLiteralType
        (.children (templateSegments context.source "template_type" tree) <|
          .children holes .done))),
    ("type_predicate", fun context tree => do
      let name ← context.nameField tree "name"
      let type ← context.optional tree "type"
      pure (place tree .typePredicate
        (.attribute false <| .child name <| .optionalChild type .done))),
    ("asserts", fun context tree => context.assertion tree)]

end CodeClones.Lowering
