import CodeClones.Syntax.Kind

/-!
# What a walk visits

A walk over a tree goes from a node to the nodes in its fields. Which fields these are, and in
which order they are visited, is listed here kind by kind, by the labels of the fields and without
a look at the layout of the kind: nothing but the lists sees to it that no field is left out. The
order is that of the source, except that the condition of a `do` loop comes before its body and the
expression behind a cast before the type.
-/

namespace CodeClones.Syntax

/-- What is visited in a function, its decorators aside. -/
def visitedUndecorated : List String :=
  ["function.type_params", "function.params", "function.return_type", "function.body"]

/-- What is visited in a function. -/
def visitedInFunction : List String :=
  "function.decorators" :: visitedUndecorated

/-- What is visited in a class. -/
def visitedInClass : List String :=
  ["class.decorators", "class.type_params", "class.super_class", "class.super_type_params",
    "class.implements", "class.body"]

/-- The labels of the fields that are visited in a node of the kind, in the order of the visit. -/
def Kind.visited : Kind → List String
  | .importDeclaration => ["specifiers", "src"]
  | .exportDeclaration => ["decl"]
  | .exportDefault => ["expr"]
  | .exportNamed => ["specifiers", "src"]
  | .expressionStatement => ["expr"]
  | .block => ["stmts"]
  | .withStatement => ["object", "body"]
  | .returnStatement => ["arg"]
  | .labeledStatement => ["label", "body"]
  | .breakStatement | .continueStatement => ["label"]
  | .ifStatement => ["test", "cons", "alt"]
  | .switchStatement => ["discriminant", "cases"]
  | .switchCase => ["test", "cons"]
  | .throwStatement => ["arg"]
  | .tryStatement => ["block", "handler", "finalizer"]
  | .catchClause => ["param", "body"]
  | .whileLoop | .doWhileLoop => ["test", "body"]
  | .forLoop => ["init", "test", "update", "body"]
  | .forInLoop | .forOfLoop => ["left", "right", "body"]
  | .variableDeclaration => ["decls"]
  | .variableDeclarator => ["name", "init"]
  | .functionDeclaration => "ident" :: visitedInFunction
  | .classDeclaration => "ident" :: visitedInClass
  | .interfaceDeclaration => ["id", "type_params", "extends", "body"]
  | .interfaceBody | .moduleBlock => ["body"]
  | .typeAlias => ["id", "type_params", "type_ann"]
  | .enumDeclaration => ["id", "members"]
  | .enumMember => ["id", "init"]
  | .moduleDeclaration => ["id", "body"]
  | .identifier => ["type_ann"]
  | .templateLiteral => ["quasis", "exprs"]
  | .templateLiteralType => ["quasis", "types"]
  | .taggedTemplate => ["tag", "type_args", "tpl"]
  | .arrayLiteral => ["elems"]
  | .objectLiteral => ["props"]
  | .spread | .computedKey | .parenthesized | .constAssertion | .nonNullAssertion
  | .jsxExpression | .decorator => ["expr"]
  | .keyValueProperty | .keyValuePattern => ["key", "value"]
  | .getterProperty => ["key", "type_ann", "body"]
  | .setterProperty => ["key", "param", "body"]
  | .methodProperty => "key" :: visitedInFunction
  | .functionExpression => "ident" :: visitedInFunction
  | .arrowFunction => visitedInFunction
  | .classExpression => "ident" :: visitedInClass
  | .call => ["callee", "type_args", "args"]
  | .construction => ["callee", "type_args", "args"]
  | .memberAccess | .jsxMemberName => ["object", "prop"]
  | .superAccess => ["obj", "prop"]
  | .optionalChain => ["base"]
  | .binary | .assignment | .defaultPattern => ["left", "right"]
  | .unary | .update | .awaitExpression => ["arg"]
  | .conditional => ["test", "cons", "alt"]
  | .sequence => ["exprs"]
  | .yieldExpression => ["arg"]
  | .asExpression | .satisfiesExpression | .typeAssertion => ["expr", "type_ann"]
  | .jsxElement => ["opening", "children", "closing"]
  | .jsxOpening => ["name", "type_args", "attrs"]
  | .jsxClosing => ["name"]
  | .jsxFragment => ["opening", "children", "closing"]
  | .jsxAttribute => ["name", "value"]
  | .jsxNamespacedName => ["ns", "name"]
  | .arrayPattern => ["elems", "type_ann"]
  | .objectPattern => ["props", "type_ann"]
  | .shorthandPattern => ["key", "value"]
  | .restPattern => ["arg", "type_ann"]
  | .parameter => ["decorators", "pat"]
  | .parameterProperty => ["decorators", "param"]
  | .classConstructor => ["key", "params", "body"]
  | .classMethod => "function.decorators" :: "key" :: visitedUndecorated
  | .classProperty => ["decorators", "key", "type_ann", "value"]
  | .staticBlock => ["body"]
  | .indexSignature => ["params", "type_ann"]
  | .typeAscription | .optionalType | .restType | .parenthesizedType | .typeOperator =>
    ["type_ann"]
  | .typeReference => ["type_name", "type_args"]
  | .qualifiedName => ["left", "right"]
  | .typeArguments | .typeParameters => ["params"]
  | .typeParameter => ["name", "constraint", "default"]
  | .unionType | .intersectionType => ["types"]
  | .arrayType => ["elem"]
  | .tupleType => ["elems"]
  | .functionType | .constructorType | .callSignature | .constructSignature =>
    ["type_params", "params", "type_ann"]
  | .objectType => ["members"]
  | .propertySignature => ["key", "type_ann"]
  | .methodSignature => ["key", "type_params", "params", "type_ann"]
  | .literalType => ["lit"]
  | .typeQuery => ["expr_name", "type_args"]
  | .indexedAccessType => ["obj_type", "index_type"]
  | .conditionalType => ["check_type", "extends_type", "true_type", "false_type"]
  | .inferType => ["param"]
  | .mappedType => ["type_param", "name_type", "type_ann"]
  | .heritageEntry => ["expr", "type_args"]
  | .typePredicate => ["param_name", "type_ann"]
  | .emptyStatement | .debuggerStatement | .thisKeyword | .superKeyword | .importKeyword
  | .nullLiteral | .booleanLiteral | .numberLiteral | .bigIntegerLiteral | .stringLiteral
  | .regexLiteral | .templateSegment | .metaProperty | .keywordType | .thisType
  | .jsxOpeningFragment | .jsxClosingFragment | .jsxEmptyExpression | .jsxText | .unmodelled => []

end CodeClones.Syntax
