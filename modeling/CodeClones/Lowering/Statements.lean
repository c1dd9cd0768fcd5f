import CodeClones.Lowering.Classes

/-!
# Lowering: statements, declarations and modules
-/

namespace CodeClones.Lowering

open Syntax Concrete

/-- The keyword of a declaration by its text. -/
def keywordOfText (text : String) : DeclarationKeyword :=
  if text = "let" then .letKeyword
  else if text = "const" then .constKeyword
  else .usingKeyword

/-- The named trees inside a list of imported or exported names: the alias of each entry, or
its name. -/
def listedNames (list : Tree) : List Tree :=
  list.parts.filterMap fun entry => (entry.child? "alias").or (entry.child? "name")

/-- The trees that an import binds. -/
def importedNames (tree : Tree) : List Tree :=
  match tree.partOfKind? "import_clause" with
  | none => []
  | some clause =>
    clause.parts.flatMap fun part =>
      match part.kind with
      | "identifier" => [part]
      | "namespace_import" => part.firstPart?.toList
      | "named_imports" => listedNames part
      | _ => []

/-- The trees that an export names. -/
def exportedNames (tree : Tree) : List Tree :=
  tree.parts.flatMap fun part =>
    match part.kind with
    | "export_clause" => listedNames part
    | "namespace_export" => part.firstPart?.toList
    | _ => []

/-- The expression that an export consists of, if it lists no names. -/
def exportedExpression? (tree : Tree) : Option Tree :=
  tree.parts.find? fun part =>
    !(["export_clause", "namespace_export", "string", "decorator"].contains part.kind)

namespace Context

/-- An `else` branch, with or without its keyword. -/
def elseBranch (context : Context) (tree : Tree) : Lowered Node :=
  if tree.kind = "else_clause" then context.firstRequired tree else context.lower tree

/-- One part of the head of a loop; an empty part is absent. -/
def loopPart (context : Context) (tree : Tree) (field : String) : Lowered (Option Node) :=
  match (tree.partsOf field).head? with
  | none => pure none
  | some part =>
    match part.kind with
    | "empty_statement" => pure none
    | "expression_statement" => context.first part
    | _ => some <$> context.lower part

/-- The keyword of a variable declaration. -/
def declarationKeyword (context : Context) (tree : Tree) : DeclarationKeyword :=
  if tree.kind = "variable_declaration" then .varKeyword
  else match context.fieldText? tree "kind" with
    | some text => keywordOfText text
    | none => .letKeyword

/-- The target of a loop over keys or values: a declaration of its own, or a pattern. -/
def loopTarget (context : Context) (tree : Tree) : Lowered Node :=
  match tree.child? "kind", tree.child? "left" with
  | some keyword, some target => do
    let text := context.textOf keyword
    let word := if text = "var" then .varKeyword else keywordOfText text
    let name ← context.binding target none false
    let declarator := place target .variableDeclarator (.child name <| .optionalChild none .done)
    pure (.mk ⟨keyword.start, target.stop⟩ .variableDeclaration
      (.attribute word <| .children [declarator] .done))
  | none, some target => context.lower target
  | _, none => pure (unmodelled tree)

/-- A loop over keys or values. -/
def loopOver (context : Context) (tree : Tree) : Lowered Node := do
  let left ← context.loopTarget tree
  let right ← context.required tree "right"
  let body ← context.required tree "body"
  let overValues := match context.fieldText? tree "operator" with
    | some operator => operator == "of"
    | none => tree.hasToken "of"
  if overValues then
    pure (place tree .forOfLoop
      (.attribute (tree.hasToken "await") <| .child left <| .child right <| .child body .done))
  else
    pure (place tree .forInLoop (.child left <| .child right <| .child body .done))

/-- A member of an enumeration. -/
def enumMember (context : Context) (tree : Tree) : Lowered Node := do
  if tree.kind = "enum_assignment" then
    let name ← context.nameField tree "name"
    let value ← context.optional tree "value"
    pure (place tree .enumMember (.child name <| .optionalChild value .done))
  else
    let name ← context.name tree
    pure (place tree .enumMember (.child name <| .optionalChild none .done))

/-- The body of a namespace or module. -/
def moduleBlock (context : Context) (tree : Tree) : Lowered Node := do
  let body ← context.parts tree
  pure (place tree .moduleBlock (.children body .done))

/-- A declaration of something that exists elsewhere. A bare block extends the global names. -/
def ambient (context : Context) (tree : Tree) : Lowered Node :=
  match tree.firstPart? with
  | none => pure (unmodelled tree)
  | some part =>
    if part.kind = "statement_block" then do
      let body ← context.moduleBlock part
      pure (place tree .moduleDeclaration
        (.child (plainIdentifier tree "global") <| .optionalChild (some body) .done))
    else context.lower part

/-- An export. -/
def exportItem (context : Context) (tree : Tree) : Lowered Node := do
  match tree.child? "declaration", tree.child? "value" with
  | some declaration, _ =>
    let declaration ← context.lower declaration
    pure (place tree .exportDeclaration
      (.child declaration <| .attribute (tree.hasToken "default") .done))
  | none, some value =>
    let value ← context.lower value
    pure (place tree .exportDefault (.child value .done))
  | none, none =>
    let specifiers ← Lowered.all ((exportedNames tree).map context.name)
    match if specifiers.isEmpty && (tree.child? "source").isNone then exportedExpression? tree
        else none with
    | some expression =>
      let expression ← context.lower expression
      pure (place tree .exportDefault (.child expression .done))
    | none =>
      let source ← context.optional tree "source"
      pure (place tree .exportNamed (.children specifiers <| .optionalChild source .done))

end Context

/-- An expression that stands as a statement; a namespace in its place is a declaration. -/
def expressionStatement : Rule := fun context tree =>
  match tree.firstPart? with
  | none => pure (unmodelled tree)
  | some inner =>
    if inner.kind = "internal_module" ∨ inner.kind = "module" then context.lower inner
    else do
      let expression ← context.lower inner
      pure (place tree .expressionStatement (.child expression .done))

/-- Variables declared by one keyword. -/
def variableDeclaration : Rule := fun context tree => do
  let declarators ← context.lowerAll
    (tree.parts.filter fun child => child.kind == "variable_declarator")
  pure (place tree .variableDeclaration
    (.attribute (context.declarationKeyword tree) <| .children declarators .done))

/-- One declared variable. -/
def variableDeclarator : Rule := fun context tree => do
  let name ← match tree.child? "name" with
    | some name => context.binding name (tree.child? "type") false
    | none => pure (unmodelled tree)
  let value ← context.optional tree "value"
  pure (place tree .variableDeclarator (.child name <| .optionalChild value .done))

/-- A named function. -/
def functionDeclaration : Rule := fun context tree => do
  let name ← context.nameField tree "name"
  let parts ← context.functionParts tree
  pure (place tree .functionDeclaration (.child name parts.slots))

/-- A named class. -/
def classDeclaration : Rule := fun context tree => do
  let name ← context.nameField tree "name"
  let parts ← context.classParts tree
  pure (place tree .classDeclaration (.child name parts.slots))

/-- An interface. -/
def interfaceDeclaration : Rule := fun context tree => do
  let name ← context.nameField tree "name"
  let typeParameters ← context.optional tree "type_parameters"
  let ancestors ← match tree.partOfKind? "extends_type_clause" with
    | some clause => context.heritage clause
    | none => pure []
  let body ← match tree.child? "body" with
    | some body => do
      let members ← context.parts body
      pure (place body .interfaceBody (.children members .done))
    | none => pure (unmodelled tree)
  pure (place tree .interfaceDeclaration
    (.child name <| .optionalChild typeParameters <| .children ancestors <| .child body .done))

/-- An enumeration. -/
def enumDeclaration : Rule := fun context tree => do
  let name ← context.nameField tree "name"
  let members ← match tree.child? "body" with
    | some body => Lowered.all (body.parts.map context.enumMember)
    | none => pure []
  pure (place tree .enumDeclaration
    (.child name <| .attribute (tree.hasToken "const") <| .children members .done))

/-- A namespace or module. -/
def moduleDeclaration : Rule := fun context tree => do
  let name ← context.nameField tree "name"
  let body ← Lowered.optional ((tree.child? "body").map context.moduleBlock)
  pure (place tree .moduleDeclaration (.child name <| .optionalChild body .done))

/-- How statements, declarations and members of classes are lowered, by the grammar's name. -/
def statementRules : List (String × Rule) :=
  [("expression_statement", expressionStatement),
    ("statement_block", fun context tree => do
      let statements ← context.parts tree
      pure (place tree .block (.children statements .done))),
    ("empty_statement", fun _ tree => pure (place tree .emptyStatement .done)),
    ("debugger_statement", fun _ tree => pure (place tree .debuggerStatement .done)),
    ("with_statement", fun context tree => do
      let object ← context.condition tree "object"
      let body ← context.required tree "body"
      pure (place tree .withStatement (.child object <| .child body .done))),
    ("return_statement", fun context tree => do
      let value ← context.first tree
      pure (place tree .returnStatement (.optionalChild value .done))),
    ("labeled_statement", fun context tree => do
      let label ← context.nameField tree "label"
      let body ← context.required tree "body"
      pure (place tree .labeledStatement (.child label <| .child body .done))),
    ("break_statement", fun context tree => do
      let label ← context.optionalName tree "label"
      pure (place tree .breakStatement (.optionalChild label .done))),
    ("continue_statement", fun context tree => do
      let label ← context.optionalName tree "label"
      pure (place tree .continueStatement (.optionalChild label .done))),
    ("if_statement", fun context tree => do
      let test ← context.condition tree "condition"
      let consequence ← context.required tree "consequence"
      let alternative ← Lowered.optional ((tree.child? "alternative").map context.elseBranch)
      pure (place tree .ifStatement
        (.child test <| .child consequence <| .optionalChild alternative .done))),
    ("else_clause", fun context tree => context.elseBranch tree),
    ("switch_statement", fun context tree => do
      let value ← context.condition tree "value"
      let cases ← context.partsWithin tree "body"
      pure (place tree .switchStatement (.child value <| .children cases .done))),
    ("switch_case", fun context tree => do
      let test ← context.optional tree "value"
      let body ← context.many tree "body"
      pure (place tree .switchCase (.optionalChild test <| .children body .done))),
    ("switch_default", fun context tree => do
      let body ← context.many tree "body"
      pure (place tree .switchCase (.optionalChild none <| .children body .done))),
    ("throw_statement", fun context tree => do
      let value ← context.firstRequired tree
      pure (place tree .throwStatement (.child value .done))),
    ("try_statement", fun context tree => do
      let block ← context.required tree "body"
      let handler ← context.optional tree "handler"
      let finalizer ← Lowered.optional ((tree.child? "finalizer").map fun finalizer =>
        context.required finalizer "body")
      pure (place tree .tryStatement
        (.child block <| .optionalChild handler <| .optionalChild finalizer .done))),
    ("catch_clause", fun context tree => do
      let parameter ← Lowered.optional ((tree.child? "parameter").map fun parameter =>
        context.binding parameter (tree.child? "type") false)
      let body ← context.required tree "body"
      pure (place tree .catchClause (.optionalChild parameter <| .child body .done))),
    ("finally_clause", fun context tree => context.required tree "body"),
    ("while_statement", fun context tree => do
      let test ← context.condition tree "condition"
      let body ← context.required tree "body"
      pure (place tree .whileLoop (.child test <| .child body .done))),
    ("do_statement", fun context tree => do
      let test ← context.condition tree "condition"
      let body ← context.required tree "body"
      pure (place tree .doWhileLoop (.child test <| .child body .done))),
    ("for_statement", fun context tree => do
      let initial ← context.loopPart tree "initializer"
      let test ← context.loopPart tree "condition"
      let update ← context.loopPart tree "increment"
      let body ← context.required tree "body"
      pure (place tree .forLoop
        (.optionalChild initial <| .optionalChild test <| .optionalChild update <|
          .child body .done))),
    ("for_in_statement", fun context tree => context.loopOver tree),
    ("lexical_declaration", variableDeclaration),
    ("variable_declaration", variableDeclaration),
    ("variable_declarator", variableDeclarator),
    ("function_declaration", functionDeclaration),
    ("generator_function_declaration", functionDeclaration),
    ("function_signature", functionDeclaration),
    ("class_declaration", classDeclaration),
    ("abstract_class_declaration", classDeclaration),
    ("interface_declaration", interfaceDeclaration),
    ("type_alias_declaration", fun context tree => do
      let name ← context.nameField tree "name"
      let typeParameters ← context.optional tree "type_parameters"
      let type ← context.required tree "value"
      pure (place tree .typeAlias
        (.child name <| .optionalChild typeParameters <| .child type .done))),
    ("enum_declaration", enumDeclaration),
    ("enum_assignment", fun context tree => context.enumMember tree),
    ("internal_module", moduleDeclaration),
    ("module", moduleDeclaration),
    ("ambient_declaration", fun context tree => context.ambient tree),
    ("import_statement", fun context tree => do
      let specifiers ← Lowered.all ((importedNames tree).map context.name)
      let source ← context.required tree "source"
      pure (place tree .importDeclaration (.children specifiers <| .child source .done))),
    ("export_statement", fun context tree => context.exportItem tree),
    ("method_definition", fun context tree => context.method [] tree),
    ("public_field_definition", fun context tree => context.property [] tree),
    ("field_definition", fun context tree => context.property [] tree),
    ("class_static_block", fun context tree => do
      let body ← context.required tree "body"
      pure (place tree .staticBlock (.child body .done))),
    ("decorator", fun context tree => do
      let expression ← context.firstRequired tree
      pure (place tree .decorator (.child expression .done)))]

end CodeClones.Lowering
