/-!
# Kinds of syntax nodes

The closed vocabulary of the syntax tree. Every construct that the library compares is one of
these kinds; anything else is `unmodelled`, and is compared to nothing. Each kind has the name
under which it is shown, and belongs to at most some of three classes: types, statements and
leaves.
-/

namespace CodeClones.Syntax

/-- What a syntax node is. -/
inductive Kind where
  /-- An import with its local bindings. -/
  | importDeclaration
  /-- An export in front of a declaration. -/
  | exportDeclaration
  /-- An export of one expression. -/
  | exportDefault
  /-- An export of listed names. -/
  | exportNamed
  /-- An expression that stands as a statement. -/
  | expressionStatement
  /-- Statements between braces. -/
  | block
  /-- A lone semicolon. -/
  | emptyStatement
  /-- A stop for the debugger. -/
  | debuggerStatement
  /-- A `with` statement, which is never alike to anything. -/
  | withStatement
  /-- A `return`, with or without a value. -/
  | returnStatement
  /-- A statement behind a label. -/
  | labeledStatement
  /-- A `break`. -/
  | breakStatement
  /-- A `continue`. -/
  | continueStatement
  /-- An `if`, with or without an `else` branch. -/
  | ifStatement
  /-- A `switch` over its cases. -/
  | switchStatement
  /-- One case of a `switch`; the default case has no test. -/
  | switchCase
  /-- A `throw`. -/
  | throwStatement
  /-- A `try` with its handler and finalizer. -/
  | tryStatement
  /-- The handler of a `try`. -/
  | catchClause
  /-- A loop that tests first. -/
  | whileLoop
  /-- A loop that tests last. -/
  | doWhileLoop
  /-- A loop with initialiser, test and update. -/
  | forLoop
  /-- A loop over the keys of an object. -/
  | forInLoop
  /-- A loop over the values of an iterable. -/
  | forOfLoop
  /-- Variables declared by one keyword. -/
  | variableDeclaration
  /-- One declared variable with its initial value. -/
  | variableDeclarator
  /-- A named function. -/
  | functionDeclaration
  /-- A named class. -/
  | classDeclaration
  /-- An interface. -/
  | interfaceDeclaration
  /-- The members of an interface. -/
  | interfaceBody
  /-- A name for a type. -/
  | typeAlias
  /-- An enumeration. -/
  | enumDeclaration
  /-- One member of an enumeration. -/
  | enumMember
  /-- A namespace or module. -/
  | moduleDeclaration
  /-- The body of a namespace or module. -/
  | moduleBlock
  /-- A name, with the annotation of the binding it makes. -/
  | identifier
  /-- The keyword `this`. -/
  | thisKeyword
  /-- The keyword `super`. -/
  | superKeyword
  /-- The keyword `import` in the place of a function. -/
  | importKeyword
  /-- The literal `null`. -/
  | nullLiteral
  /-- A truth value. -/
  | booleanLiteral
  /-- A floating-point number. -/
  | numberLiteral
  /-- An integer of any size, by its digits. -/
  | bigIntegerLiteral
  /-- A string, by its value. -/
  | stringLiteral
  /-- A regular expression with its flags. -/
  | regexLiteral
  /-- A template, cut into segments and substitutions. -/
  | templateLiteral
  /-- The literal text before, between or after substitutions. -/
  | templateSegment
  /-- A template behind a tag. -/
  | taggedTemplate
  /-- A list of elements. -/
  | arrayLiteral
  /-- An object with its members. -/
  | objectLiteral
  /-- An expression spread into a list or object. -/
  | spread
  /-- A member of an object, written as key and value. -/
  | keyValueProperty
  /-- A key given by an expression. -/
  | computedKey
  /-- A getter of an object. -/
  | getterProperty
  /-- A setter of an object. -/
  | setterProperty
  /-- A method of an object. -/
  | methodProperty
  /-- A function as an expression. -/
  | functionExpression
  /-- An arrow function. -/
  | arrowFunction
  /-- A class as an expression. -/
  | classExpression
  /-- A call. -/
  | call
  /-- A call behind `new`. -/
  | construction
  /-- Access to a member, by name or by key. -/
  | memberAccess
  /-- Access to a member of the superclass. -/
  | superAccess
  /-- An access or call that stops at a missing value. -/
  | optionalChain
  /-- Two operands around an operator. -/
  | binary
  /-- An operator in front of its operand. -/
  | unary
  /-- An increment or decrement. -/
  | update
  /-- An assignment, plain or combined with an operator. -/
  | assignment
  /-- A choice between two expressions. -/
  | conditional
  /-- Expressions evaluated one after another. -/
  | sequence
  /-- An expression in parentheses. -/
  | parenthesized
  /-- A wait for a value. -/
  | awaitExpression
  /-- A value handed out of a generator. -/
  | yieldExpression
  /-- A property of the syntax itself, such as `new.target`. -/
  | metaProperty
  /-- A cast written behind the expression. -/
  | asExpression
  /-- A check of a type that keeps the expression's own. -/
  | satisfiesExpression
  /-- A cast to the narrowest type. -/
  | constAssertion
  /-- A claim that a value is present. -/
  | nonNullAssertion
  /-- A cast written in front of the expression. -/
  | typeAssertion
  /-- A markup element. -/
  | jsxElement
  /-- The tag that opens an element. -/
  | jsxOpening
  /-- The tag that closes an element. -/
  | jsxClosing
  /-- Markup without an element around it. -/
  | jsxFragment
  /-- The empty tag that opens a fragment. -/
  | jsxOpeningFragment
  /-- The empty tag that closes a fragment. -/
  | jsxClosingFragment
  /-- An attribute of an element. -/
  | jsxAttribute
  /-- An expression inside markup. -/
  | jsxExpression
  /-- Braces inside markup that hold nothing. -/
  | jsxEmptyExpression
  /-- Text inside markup. -/
  | jsxText
  /-- A dotted element name. -/
  | jsxMemberName
  /-- An element or attribute name with a namespace. -/
  | jsxNamespacedName
  /-- A pattern that takes a list apart. -/
  | arrayPattern
  /-- A pattern that takes an object apart. -/
  | objectPattern
  /-- A member of an object pattern, written as key and target. -/
  | keyValuePattern
  /-- A member of an object pattern that binds its key. -/
  | shorthandPattern
  /-- A target with a default value. -/
  | defaultPattern
  /-- A target for everything that is left. -/
  | restPattern
  /-- A parameter. -/
  | parameter
  /-- A parameter that also declares a member. -/
  | parameterProperty
  /-- A constructor. -/
  | classConstructor
  /-- A method, getter or setter of a class. -/
  | classMethod
  /-- A field of a class. -/
  | classProperty
  /-- Statements run when a class is made. -/
  | staticBlock
  /-- An expression applied to a declaration. -/
  | decorator
  /-- The type of all keys of an object. -/
  | indexSignature
  /-- The type written behind a name. -/
  | typeAscription
  /-- A built-in type. -/
  | keywordType
  /-- The type of the receiver. -/
  | thisType
  /-- A type named by its declaration. -/
  | typeReference
  /-- A dotted name of a type. -/
  | qualifiedName
  /-- The types given to a generic. -/
  | typeArguments
  /-- The type parameters of a declaration. -/
  | typeParameters
  /-- One type parameter. -/
  | typeParameter
  /-- Alternatives of types. -/
  | unionType
  /-- Several types at once. -/
  | intersectionType
  /-- A list of one type. -/
  | arrayType
  /-- Types in fixed positions. -/
  | tupleType
  /-- An element of a tuple that may be absent. -/
  | optionalType
  /-- All further elements of a tuple. -/
  | restType
  /-- The type of a function. -/
  | functionType
  /-- The type of a constructor. -/
  | constructorType
  /-- The type of an object, by its members. -/
  | objectType
  /-- A property of an object type. -/
  | propertySignature
  /-- A method of an object type. -/
  | methodSignature
  /-- An object type that can be called. -/
  | callSignature
  /-- An object type that can be constructed. -/
  | constructSignature
  /-- The type of a single value. -/
  | literalType
  /-- The type of an expression. -/
  | typeQuery
  /-- An operator applied to a type. -/
  | typeOperator
  /-- The type of a member. -/
  | indexedAccessType
  /-- A type in parentheses. -/
  | parenthesizedType
  /-- A choice between types. -/
  | conditionalType
  /-- A type to be found by the choice around it. -/
  | inferType
  /-- A type built key by key. -/
  | mappedType
  /-- A template of types. -/
  | templateLiteralType
  /-- One entry of an `extends` or `implements` list. -/
  | heritageEntry
  /-- A claim about the type of a parameter. -/
  | typePredicate
  /-- A construct outside this vocabulary, which is never alike to anything. -/
  | unmodelled
deriving DecidableEq, Repr, Hashable

namespace Kind

/-- The name under which a kind is shown. -/
def name : Kind → String
  | .importDeclaration => "ImportDecl"
  | .exportDeclaration => "ExportDecl"
  | .exportDefault => "ExportDefaultExpr"
  | .exportNamed => "ExportNamed"
  | .expressionStatement => "ExprStmt"
  | .block => "Block"
  | .emptyStatement => "Empty"
  | .debuggerStatement => "Debugger"
  | .withStatement => "With"
  | .returnStatement => "Return"
  | .labeledStatement => "Labeled"
  | .breakStatement => "Break"
  | .continueStatement => "Continue"
  | .ifStatement => "If"
  | .switchStatement => "Switch"
  | .switchCase => "SwitchCase"
  | .throwStatement => "Throw"
  | .tryStatement => "Try"
  | .catchClause => "CatchClause"
  | .whileLoop => "While"
  | .doWhileLoop => "DoWhile"
  | .forLoop => "For"
  | .forInLoop => "ForIn"
  | .forOfLoop => "ForOf"
  | .variableDeclaration => "VarDecl"
  | .variableDeclarator => "VarDeclarator"
  | .functionDeclaration => "FnDecl"
  | .classDeclaration => "ClassDecl"
  | .interfaceDeclaration => "TsInterfaceDecl"
  | .interfaceBody => "TsInterfaceBody"
  | .typeAlias => "TsTypeAliasDecl"
  | .enumDeclaration => "TsEnumDecl"
  | .enumMember => "TsEnumMember"
  | .moduleDeclaration => "TsModuleDecl"
  | .moduleBlock => "TsModuleBlock"
  | .identifier => "Ident"
  | .thisKeyword => "This"
  | .superKeyword => "Super"
  | .importKeyword => "Import"
  | .nullLiteral => "Null"
  | .booleanLiteral => "Bool"
  | .numberLiteral => "Num"
  | .bigIntegerLiteral => "BigInt"
  | .stringLiteral => "Str"
  | .regexLiteral => "Regex"
  | .templateLiteral => "Tpl"
  | .templateSegment => "TplElement"
  | .taggedTemplate => "TaggedTpl"
  | .arrayLiteral => "Array"
  | .objectLiteral => "Object"
  | .spread => "Spread"
  | .keyValueProperty => "KeyValueProp"
  | .computedKey => "Computed"
  | .getterProperty => "GetterProp"
  | .setterProperty => "SetterProp"
  | .methodProperty => "MethodProp"
  | .functionExpression => "FnExpr"
  | .arrowFunction => "Arrow"
  | .classExpression => "ClassExpr"
  | .call => "Call"
  | .construction => "New"
  | .memberAccess => "Member"
  | .superAccess => "SuperProp"
  | .optionalChain => "OptChain"
  | .binary => "Bin"
  | .unary => "Unary"
  | .update => "Update"
  | .assignment => "Assign"
  | .conditional => "Cond"
  | .sequence => "Seq"
  | .parenthesized => "Paren"
  | .awaitExpression => "Await"
  | .yieldExpression => "Yield"
  | .metaProperty => "MetaProp"
  | .asExpression => "TsAs"
  | .satisfiesExpression => "TsSatisfies"
  | .constAssertion => "TsConstAssertion"
  | .nonNullAssertion => "TsNonNull"
  | .typeAssertion => "TsTypeAssertion"
  | .jsxElement => "JsxElement"
  | .jsxOpening => "JsxOpening"
  | .jsxClosing => "JsxClosing"
  | .jsxFragment => "JsxFragment"
  | .jsxOpeningFragment => "JsxOpeningFragment"
  | .jsxClosingFragment => "JsxClosingFragment"
  | .jsxAttribute => "JsxAttr"
  | .jsxExpression => "JsxExprContainer"
  | .jsxEmptyExpression => "JsxEmptyExpr"
  | .jsxText => "JsxText"
  | .jsxMemberName => "JsxMemberExpr"
  | .jsxNamespacedName => "JsxNamespacedName"
  | .arrayPattern => "ArrayPat"
  | .objectPattern => "ObjectPat"
  | .keyValuePattern => "KeyValuePatProp"
  | .shorthandPattern => "AssignPatProp"
  | .defaultPattern => "AssignPat"
  | .restPattern => "RestPat"
  | .parameter => "Param"
  | .parameterProperty => "TsParamProp"
  | .classConstructor => "Constructor"
  | .classMethod => "ClassMethod"
  | .classProperty => "ClassProp"
  | .staticBlock => "StaticBlock"
  | .decorator => "Decorator"
  | .indexSignature => "TsIndexSignature"
  | .typeAscription => "TsTypeAnn"
  | .keywordType => "TsKeywordType"
  | .thisType => "TsThisType"
  | .typeReference => "TsTypeRef"
  | .qualifiedName => "TsQualifiedName"
  | .typeArguments => "TsTypeParamInstantiation"
  | .typeParameters => "TsTypeParamDecl"
  | .typeParameter => "TsTypeParam"
  | .unionType => "TsUnionType"
  | .intersectionType => "TsIntersectionType"
  | .arrayType => "TsArrayType"
  | .tupleType => "TsTupleType"
  | .optionalType => "TsOptionalType"
  | .restType => "TsRestType"
  | .functionType => "TsFnType"
  | .constructorType => "TsConstructorType"
  | .objectType => "TsTypeLit"
  | .propertySignature => "TsPropertySignature"
  | .methodSignature => "TsMethodSignature"
  | .callSignature => "TsCallSignature"
  | .constructSignature => "TsConstructSignature"
  | .literalType => "TsLitType"
  | .typeQuery => "TsTypeQuery"
  | .typeOperator => "TsTypeOperator"
  | .indexedAccessType => "TsIndexedAccessType"
  | .parenthesizedType => "TsParenthesizedType"
  | .conditionalType => "TsConditionalType"
  | .inferType => "TsInferType"
  | .mappedType => "TsMappedType"
  | .templateLiteralType => "TsTplLitType"
  | .heritageEntry => "TsExprWithTypeArgs"
  | .typePredicate => "TsTypePredicate"
  | .unmodelled => "Unknown"

/-- Every kind, in the order of the vocabulary. -/
def all : List Kind :=
  [.importDeclaration, .exportDeclaration, .exportDefault, .exportNamed, .expressionStatement,
   .block, .emptyStatement, .debuggerStatement, .withStatement, .returnStatement,
   .labeledStatement, .breakStatement, .continueStatement, .ifStatement, .switchStatement,
   .switchCase, .throwStatement, .tryStatement, .catchClause, .whileLoop, .doWhileLoop, .forLoop,
   .forInLoop, .forOfLoop, .variableDeclaration, .variableDeclarator, .functionDeclaration,
   .classDeclaration, .interfaceDeclaration, .interfaceBody, .typeAlias, .enumDeclaration,
   .enumMember, .moduleDeclaration, .moduleBlock, .identifier, .thisKeyword, .superKeyword,
   .importKeyword, .nullLiteral, .booleanLiteral, .numberLiteral, .bigIntegerLiteral,
   .stringLiteral, .regexLiteral, .templateLiteral, .templateSegment, .taggedTemplate,
   .arrayLiteral, .objectLiteral, .spread, .keyValueProperty, .computedKey, .getterProperty,
   .setterProperty, .methodProperty, .functionExpression, .arrowFunction, .classExpression,
   .call, .construction, .memberAccess, .superAccess, .optionalChain, .binary, .unary, .update,
   .assignment, .conditional, .sequence, .parenthesized, .awaitExpression, .yieldExpression,
   .metaProperty, .asExpression, .satisfiesExpression, .constAssertion, .nonNullAssertion,
   .typeAssertion, .jsxElement, .jsxOpening, .jsxClosing, .jsxFragment, .jsxOpeningFragment,
   .jsxClosingFragment, .jsxAttribute, .jsxExpression, .jsxEmptyExpression, .jsxText,
   .jsxMemberName, .jsxNamespacedName, .arrayPattern, .objectPattern, .keyValuePattern,
   .shorthandPattern, .defaultPattern, .restPattern, .parameter, .parameterProperty,
   .classConstructor, .classMethod, .classProperty, .staticBlock, .decorator, .indexSignature,
   .typeAscription, .keywordType, .thisType, .typeReference, .qualifiedName, .typeArguments,
   .typeParameters, .typeParameter, .unionType, .intersectionType, .arrayType, .tupleType,
   .optionalType, .restType, .functionType, .constructorType, .objectType, .propertySignature,
   .methodSignature, .callSignature, .constructSignature, .literalType, .typeQuery,
   .typeOperator, .indexedAccessType, .parenthesizedType, .conditionalType, .inferType,
   .mappedType, .templateLiteralType, .heritageEntry, .typePredicate, .unmodelled]

/-- The kind with a name. -/
def ofName? (text : String) : Option Kind :=
  all.find? fun kind => kind.name == text

/-- Type-level constructs. -/
def isType : Kind → Bool
  | .typeAscription | .keywordType | .thisType | .typeReference | .qualifiedName
  | .typeArguments | .typeParameters | .typeParameter | .unionType | .intersectionType
  | .arrayType | .tupleType | .optionalType | .restType | .functionType | .constructorType
  | .objectType | .literalType | .typeQuery | .typeOperator | .indexedAccessType
  | .parenthesizedType | .conditionalType | .inferType | .mappedType | .templateLiteralType
  | .typePredicate => true
  | _ => false

/-- Statements, declarations included. -/
def isStatement : Kind → Bool
  | .expressionStatement | .block | .emptyStatement | .debuggerStatement | .withStatement
  | .returnStatement | .labeledStatement | .breakStatement | .continueStatement | .ifStatement
  | .switchStatement | .throwStatement | .tryStatement | .whileLoop | .doWhileLoop | .forLoop
  | .forInLoop | .forOfLoop | .variableDeclaration | .functionDeclaration | .classDeclaration
  | .interfaceDeclaration | .typeAlias | .enumDeclaration | .moduleDeclaration => true
  | _ => false

/-- Kinds without structure worth comparing on its own. -/
def isLeaf : Kind → Bool
  | .identifier | .thisKeyword | .superKeyword | .importKeyword | .nullLiteral
  | .booleanLiteral | .numberLiteral | .bigIntegerLiteral | .stringLiteral | .regexLiteral
  | .templateSegment | .metaProperty | .jsxOpeningFragment | .jsxClosingFragment
  | .jsxEmptyExpression | .jsxText | .unmodelled => true
  | _ => false

/-- Kinds whose block is their body, not a statement in its own right. -/
def ownsBody : Kind → Bool
  | .functionDeclaration | .functionExpression | .arrowFunction | .methodProperty
  | .getterProperty | .setterProperty | .classMethod | .classConstructor | .staticBlock
  | .tryStatement | .catchClause => true
  | _ => false

/-- Kinds that are alike to nothing. -/
def isExcluded : Kind → Bool
  | .withStatement | .unmodelled => true
  | _ => false

/-- Kinds whose children are listed by where they start, because two of their fields
interleave in the source. -/
def interleaves : Kind → Bool
  | .templateLiteral | .templateLiteralType => true
  | _ => false

end Kind

end CodeClones.Syntax
