import CodeClones.Numeric.Binary64
import CodeClones.Syntax.Kind
import CodeClones.Text.Whitespace

/-!
# Layout of syntax nodes

What a node of each kind consists of, and how each part takes part in a comparison. A field
holds one child, an optional child, a list of children, an optional list, or an attribute that
is not a node. `Kind.layout` lists the fields of a kind, each with the label under which it is
written out and with its rule. The whole comparison of two nodes is read off this table; what a
walk visits is not, but listed by `Kind.visited`.
-/

namespace CodeClones.Syntax

/-- The keyword of a variable declaration. -/
inductive DeclarationKeyword where
  /-- Function-scoped. -/
  | varKeyword
  /-- Block-scoped. -/
  | letKeyword
  /-- Block-scoped and never reassigned. -/
  | constKeyword
  /-- Block-scoped and disposed of at its end. -/
  | usingKeyword
deriving DecidableEq, Repr

/-- The keyword as it is written. -/
def DeclarationKeyword.word : DeclarationKeyword → String
  | .varKeyword => "var"
  | .letKeyword => "let"
  | .constKeyword => "const"
  | .usingKeyword => "using"

/-- What a method of a class does. -/
inductive MethodFlavour where
  /-- It is called. -/
  | method
  /-- It is read. -/
  | getter
  /-- It is assigned. -/
  | setter
deriving DecidableEq, Repr

/-- The word for what a method does. -/
def MethodFlavour.word : MethodFlavour → String
  | .method => "method"
  | .getter => "getter"
  | .setter => "setter"

/-- Who may use a member of a class. -/
inductive Access where
  /-- Everyone. -/
  | publicAccess
  /-- Subclasses. -/
  | protectedAccess
  /-- The class itself. -/
  | privateAccess
deriving DecidableEq, Repr

/-- The modifier that states the access. -/
def Access.word : Access → String
  | .publicAccess => "public"
  | .protectedAccess => "protected"
  | .privateAccess => "private"

/-- The access that a modifier states, whitespace around it aside. -/
def Access.ofModifier? (text : String) : Option Access :=
  [.publicAccess, .protectedAccess, .privateAccess].find? fun access =>
    access.word == Text.trim text

/-- The sorts of attributes. -/
inductive AttributeType where
  /-- A text. -/
  | text
  /-- A text that may be absent. -/
  | optionalText
  /-- A truth value. -/
  | flag
  /-- A floating-point number. -/
  | number
  /-- The keyword of a declaration. -/
  | keyword
  /-- What a method does. -/
  | flavour
  /-- The access of a member, if it is stated. -/
  | access
deriving DecidableEq, Repr

/-- The values of a sort of attributes. -/
abbrev AttributeType.Value : AttributeType → Type
  | .text => String
  | .optionalText => Option String
  | .flag => Bool
  | .number => Binary64
  | .keyword => DeclarationKeyword
  | .flavour => MethodFlavour
  | .access => Option Access

/-- How an attribute takes part in a comparison. -/
inductive AttributeRule where
  /-- Both values are equal. -/
  | exact
  /-- Both texts are equal up to whitespace at their ends. -/
  | trimmed
  /-- Both values are equal if names are checked. -/
  | whenNamed
  /-- It takes no part. -/
  | ignored
deriving DecidableEq, Repr

/-- How a child, or a list of them, takes part in a comparison. -/
inductive ChildRule where
  /-- Children are alike; of lists, each member is alike to some member of the other. -/
  | alike
  /-- As `alike`, with names checked from here on. -/
  | named
  /-- Children are alike one by one, in order. -/
  | ordered
  /-- They take no part. -/
  | ignored
deriving DecidableEq, Repr

/-- One part of a node: what it holds, its label and its rule. -/
inductive Field where
  /-- One node. -/
  | child (label : String) (rule : ChildRule)
  /-- A node that may be absent. -/
  | optionalChild (label : String) (rule : ChildRule)
  /-- A list of nodes. -/
  | children (label : String) (rule : ChildRule)
  /-- A list of nodes that may be absent. -/
  | optionalChildren (label : String) (rule : ChildRule)
  /-- A value that is not a node. -/
  | attribute (label : String) (type : AttributeType) (rule : AttributeRule)
deriving DecidableEq, Repr

/-- The label of a field. -/
def Field.label : Field → String
  | .child label _ => label
  | .optionalChild label _ => label
  | .children label _ => label
  | .optionalChildren label _ => label
  | .attribute label _ _ => label

/-- The fields that functions share. -/
abbrev functionFields : List Field :=
  [.children "function.decorators" .alike, .optionalChild "function.type_params" .alike,
    .children "function.params" .alike, .optionalChild "function.return_type" .alike,
    .optionalChild "function.body" .alike, .attribute "function.is_async" .flag .exact,
    .attribute "function.is_generator" .flag .exact]

/-- The fields that classes share. -/
abbrev classFields : List Field :=
  [.children "class.decorators" .alike, .optionalChild "class.type_params" .alike,
    .optionalChild "class.super_class" .alike, .optionalChild "class.super_type_params" .alike,
    .children "class.implements" .alike, .children "class.body" .alike,
    .attribute "class.is_abstract" .flag .exact]

/-- The fields of a kind. -/
abbrev Kind.layout : Kind → List Field
  | .importDeclaration => [.children "specifiers" .alike, .child "src" .alike]
  | .exportDeclaration => [.child "decl" .alike, .attribute "is_default" .flag .exact]
  | .exportDefault => [.child "expr" .alike]
  | .exportNamed => [.children "specifiers" .alike, .optionalChild "src" .alike]
  | .expressionStatement => [.child "expr" .alike]
  | .block => [.children "stmts" .alike]
  | .emptyStatement => []
  | .debuggerStatement => []
  | .withStatement => [.child "object" .alike, .child "body" .alike]
  | .returnStatement => [.optionalChild "arg" .alike]
  | .labeledStatement => [.child "label" .ignored, .child "body" .alike]
  | .breakStatement => [.optionalChild "label" .ignored]
  | .continueStatement => [.optionalChild "label" .ignored]
  | .ifStatement => [.child "test" .alike, .child "cons" .alike, .optionalChild "alt" .alike]
  | .switchStatement => [.child "discriminant" .alike, .children "cases" .alike]
  | .switchCase => [.optionalChild "test" .alike, .children "cons" .alike]
  | .throwStatement => [.child "arg" .alike]
  | .tryStatement =>
    [.child "block" .alike, .optionalChild "handler" .alike, .optionalChild "finalizer" .alike]
  | .catchClause => [.optionalChild "param" .alike, .child "body" .alike]
  | .whileLoop => [.child "test" .alike, .child "body" .alike]
  | .doWhileLoop => [.child "test" .alike, .child "body" .alike]
  | .forLoop =>
    [.optionalChild "init" .alike, .optionalChild "test" .alike, .optionalChild "update" .alike,
      .child "body" .alike]
  | .forInLoop => [.child "left" .alike, .child "right" .alike, .child "body" .alike]
  | .forOfLoop =>
    [.attribute "is_await" .flag .exact, .child "left" .alike, .child "right" .alike,
      .child "body" .alike]
  | .variableDeclaration => [.attribute "kind" .keyword .ignored, .children "decls" .alike]
  | .variableDeclarator => [.child "name" .alike, .optionalChild "init" .alike]
  | .functionDeclaration => .child "ident" .alike :: functionFields
  | .classDeclaration => .child "ident" .alike :: classFields
  | .interfaceDeclaration =>
    [.child "id" .alike, .optionalChild "type_params" .alike, .children "extends" .alike,
      .child "body" .alike]
  | .interfaceBody => [.children "body" .alike]
  | .typeAlias =>
    [.child "id" .alike, .optionalChild "type_params" .alike, .child "type_ann" .alike]
  | .enumDeclaration =>
    [.child "id" .alike, .attribute "is_const" .flag .exact, .children "members" .alike]
  | .enumMember => [.child "id" .alike, .optionalChild "init" .alike]
  | .moduleDeclaration => [.child "id" .alike, .optionalChild "body" .alike]
  | .moduleBlock => [.children "body" .alike]
  | .identifier =>
    [.attribute "name" .text .whenNamed, .optionalChild "type_ann" .alike,
      .attribute "optional" .flag .exact]
  | .thisKeyword => []
  | .superKeyword => []
  | .importKeyword => []
  | .nullLiteral => []
  | .booleanLiteral => [.attribute "value" .flag .exact]
  | .numberLiteral => [.attribute "value" .number .exact]
  | .bigIntegerLiteral => [.attribute "digits" .text .exact]
  | .stringLiteral => [.attribute "value" .text .trimmed]
  | .regexLiteral => [.attribute "pattern" .text .trimmed, .attribute "flags" .text .trimmed]
  | .templateLiteral => [.children "quasis" .alike, .children "exprs" .alike]
  | .templateSegment => [.attribute "tail" .flag .exact, .attribute "cooked" .optionalText .exact]
  | .taggedTemplate => [.child "tag" .alike, .optionalChild "type_args" .alike, .child "tpl" .alike]
  | .arrayLiteral => [.children "elems" .alike]
  | .objectLiteral => [.children "props" .alike]
  | .spread => [.child "expr" .alike]
  | .keyValueProperty => [.child "key" .named, .child "value" .alike]
  | .computedKey => [.child "expr" .alike]
  | .getterProperty =>
    [.child "key" .ignored, .optionalChild "type_ann" .ignored, .optionalChild "body" .alike]
  | .setterProperty =>
    [.child "key" .ignored, .optionalChild "param" .ignored, .optionalChild "body" .alike]
  | .methodProperty =>
    [.child "key" .ignored, .children "function.decorators" .ignored,
      .optionalChild "function.type_params" .ignored, .children "function.params" .ignored,
      .optionalChild "function.return_type" .ignored, .optionalChild "function.body" .alike,
      .attribute "function.is_async" .flag .exact, .attribute "function.is_generator" .flag .exact]
  | .functionExpression => .optionalChild "ident" .alike :: functionFields
  | .arrowFunction => functionFields
  | .classExpression => .optionalChild "ident" .alike :: classFields
  | .call => [.child "callee" .alike, .optionalChild "type_args" .alike, .children "args" .alike]
  | .construction =>
    [.child "callee" .alike, .optionalChild "type_args" .alike, .optionalChildren "args" .alike]
  | .memberAccess => [.child "object" .alike, .child "prop" .alike]
  | .superAccess => [.child "obj" .alike, .child "prop" .alike]
  | .optionalChain => [.child "base" .alike]
  | .binary => [.attribute "op" .text .exact, .child "left" .alike, .child "right" .alike]
  | .unary => [.attribute "op" .text .exact, .child "arg" .alike]
  | .update => [.attribute "op" .text .exact, .attribute "prefix" .flag .exact, .child "arg" .alike]
  | .assignment => [.attribute "op" .text .exact, .child "left" .alike, .child "right" .alike]
  | .conditional => [.child "test" .alike, .child "cons" .alike, .child "alt" .alike]
  | .sequence => [.children "exprs" .alike]
  | .parenthesized => [.child "expr" .alike]
  | .awaitExpression => [.child "arg" .alike]
  | .yieldExpression => [.optionalChild "arg" .alike, .attribute "delegate" .flag .exact]
  | .metaProperty => [.attribute "text" .text .exact]
  | .asExpression => [.child "expr" .alike, .child "type_ann" .alike]
  | .satisfiesExpression => [.child "expr" .alike, .child "type_ann" .alike]
  | .constAssertion => [.child "expr" .alike]
  | .nonNullAssertion => [.child "expr" .alike]
  | .typeAssertion => [.child "expr" .alike, .child "type_ann" .alike]
  | .jsxElement =>
    [.child "opening" .alike, .children "children" .alike, .optionalChild "closing" .alike]
  | .jsxOpening =>
    [.child "name" .alike, .optionalChild "type_args" .alike, .children "attrs" .alike,
      .attribute "self_closing" .flag .exact]
  | .jsxClosing => [.child "name" .alike]
  | .jsxFragment => [.child "opening" .alike, .children "children" .alike, .child "closing" .alike]
  | .jsxOpeningFragment => []
  | .jsxClosingFragment => []
  | .jsxAttribute => [.child "name" .alike, .optionalChild "value" .alike]
  | .jsxExpression => [.child "expr" .alike]
  | .jsxEmptyExpression => []
  | .jsxText => [.attribute "value" .text .trimmed]
  | .jsxMemberName => [.child "object" .alike, .child "prop" .alike]
  | .jsxNamespacedName => [.child "ns" .alike, .child "name" .alike]
  | .arrayPattern =>
    [.children "elems" .alike, .optionalChild "type_ann" .alike,
      .attribute "optional" .flag .exact]
  | .objectPattern =>
    [.children "props" .alike, .optionalChild "type_ann" .alike,
      .attribute "optional" .flag .exact]
  | .keyValuePattern => [.child "key" .alike, .child "value" .alike]
  | .shorthandPattern => [.child "key" .alike, .optionalChild "value" .alike]
  | .defaultPattern => [.child "left" .alike, .child "right" .alike]
  | .restPattern => [.child "arg" .alike, .optionalChild "type_ann" .alike]
  | .parameter => [.children "decorators" .alike, .child "pat" .alike]
  | .parameterProperty =>
    [.children "decorators" .alike, .attribute "accessibility" .access .exact,
      .attribute "readonly" .flag .exact, .child "param" .alike]
  | .classConstructor =>
    [.child "key" .alike, .children "params" .alike, .optionalChild "body" .alike,
      .attribute "accessibility" .access .ignored]
  | .classMethod =>
    [.children "function.decorators" .alike, .child "key" .alike,
      .optionalChild "function.type_params" .alike, .children "function.params" .alike,
      .optionalChild "function.return_type" .alike, .optionalChild "function.body" .alike,
      .attribute "function.is_async" .flag .ignored,
      .attribute "function.is_generator" .flag .ignored, .attribute "kind" .flavour .exact,
      .attribute "is_static" .flag .exact, .attribute "accessibility" .access .ignored]
  | .classProperty =>
    [.children "decorators" .alike, .child "key" .alike, .optionalChild "type_ann" .alike,
      .optionalChild "value" .alike, .attribute "accessibility" .access .exact,
      .attribute "is_static" .flag .exact, .attribute "readonly" .flag .exact,
      .attribute "optional" .flag .exact]
  | .staticBlock => [.child "body" .alike]
  | .decorator => [.child "expr" .alike]
  | .indexSignature =>
    [.children "params" .alike, .optionalChild "type_ann" .alike,
      .attribute "readonly" .flag .exact, .attribute "is_static" .flag .exact]
  | .typeAscription => [.child "type_ann" .alike]
  | .keywordType => [.attribute "keyword" .text .exact]
  | .thisType => []
  | .typeReference => [.child "type_name" .named, .optionalChild "type_args" .alike]
  | .qualifiedName => [.child "left" .named, .child "right" .named]
  | .typeArguments => [.children "params" .alike]
  | .typeParameters => [.children "params" .alike]
  | .typeParameter =>
    [.child "name" .alike, .optionalChild "constraint" .alike, .optionalChild "default" .alike]
  | .unionType => [.children "types" .alike]
  | .intersectionType => [.children "types" .alike]
  | .arrayType => [.child "elem" .alike]
  | .tupleType => [.children "elems" .ordered]
  | .optionalType => [.child "type_ann" .alike]
  | .restType => [.child "type_ann" .alike]
  | .functionType =>
    [.optionalChild "type_params" .alike, .children "params" .alike,
      .optionalChild "type_ann" .alike]
  | .constructorType =>
    [.optionalChild "type_params" .alike, .children "params" .alike,
      .optionalChild "type_ann" .alike, .attribute "is_abstract" .flag .exact]
  | .objectType => [.children "members" .alike]
  | .propertySignature =>
    [.child "key" .alike, .attribute "optional" .flag .exact, .attribute "readonly" .flag .exact,
      .optionalChild "type_ann" .alike]
  | .methodSignature =>
    [.child "key" .alike, .optionalChild "type_params" .alike, .children "params" .alike,
      .optionalChild "type_ann" .alike, .attribute "optional" .flag .exact]
  | .callSignature =>
    [.optionalChild "type_params" .alike, .children "params" .alike,
      .optionalChild "type_ann" .alike]
  | .constructSignature =>
    [.optionalChild "type_params" .alike, .children "params" .alike,
      .optionalChild "type_ann" .alike]
  | .literalType => [.child "lit" .alike]
  | .typeQuery => [.child "expr_name" .alike, .optionalChild "type_args" .alike]
  | .typeOperator => [.attribute "op" .text .exact, .child "type_ann" .alike]
  | .indexedAccessType => [.child "obj_type" .alike, .child "index_type" .alike]
  | .parenthesizedType => [.child "type_ann" .alike]
  | .conditionalType =>
    [.child "check_type" .alike, .child "extends_type" .alike, .child "true_type" .alike,
      .child "false_type" .alike]
  | .inferType => [.child "param" .alike]
  | .mappedType =>
    [.child "type_param" .alike, .optionalChild "name_type" .alike,
      .attribute "optional" .optionalText .exact, .attribute "readonly" .optionalText .exact,
      .optionalChild "type_ann" .alike]
  | .templateLiteralType => [.children "quasis" .alike, .children "types" .alike]
  | .heritageEntry => [.child "expr" .named, .optionalChild "type_args" .alike]
  | .typePredicate =>
    [.attribute "asserts" .flag .exact, .child "param_name" .alike,
      .optionalChild "type_ann" .alike]
  | .unmodelled => [.attribute "kind" .text .exact]

end CodeClones.Syntax
