import CodeClones.Lowering.Names

/-!
# Lowering: markup inside code
-/

namespace CodeClones.Lowering

open Syntax Concrete

namespace Context

/-- The tag that opens an element, or the whole of an element without children. -/
def openingTag (context : Context) (selfClosing : Bool) (tree : Tree) : Lowered Node := do
  let nameTree := tree.child? "name"
  let attributes ← context.lowerAll (tree.parts.filter fun child =>
    some child.id != nameTree.map (·.id) && child.kind != "type_arguments")
  let name ← match nameTree with
    | some name => context.markupName name
    | none => pure (unmodelled tree)
  let typeArguments ← context.optional tree "type_arguments"
  pure (place tree .jsxOpening
    (.child name <| .optionalChild typeArguments <| .children attributes <|
      .attribute selfClosing .done))

/-- An element with its children, or a fragment when its opening tag has no name. -/
def element (context : Context) (tree : Tree) : Lowered Node := do
  let opening := (tree.child? "open_tag").or (tree.partOfKind? "jsx_opening_element")
  let closing := (tree.child? "close_tag").or (tree.partOfKind? "jsx_closing_element")
  match opening, closing with
  | some opening, some closing =>
    let children ← context.lowerAll (tree.parts.filter fun child =>
      child.id != opening.id && child.id != closing.id)
    match opening.child? "name" with
    | none =>
      pure (place tree .jsxFragment
        (.child (place opening .jsxOpeningFragment .done) <| .children children <|
          .child (place closing .jsxClosingFragment .done) .done))
    | some _ =>
      let opening ← context.openingTag false opening
      let closing ← context.lower closing
      pure (place tree .jsxElement
        (.child opening <| .children children <| .optionalChild (some closing) .done))
  | _, _ => pure (unmodelled tree)

end Context

/-- Text inside markup, a character reference included. -/
def markupText : Rule := fun context tree =>
  pure (place tree .jsxText (.attribute (context.textOf tree) .done))

/-- An opening tag by itself; without a name it opens a fragment. -/
def openingElement : Rule := fun context tree =>
  match tree.child? "name" with
  | some _ => context.openingTag false tree
  | none => pure (place tree .jsxOpeningFragment .done)

/-- A closing tag; without a name it closes a fragment. -/
def closingElement : Rule := fun context tree =>
  match tree.child? "name" with
  | some name => do
    let name ← context.markupName name
    pure (place tree .jsxClosing (.child name .done))
  | none => pure (place tree .jsxClosingFragment .done)

/-- An attribute of an element, with its value if it has one. -/
def markupAttribute : Rule := fun context tree =>
  match tree.parts with
  | [] => pure (unmodelled tree)
  | name :: others => do
    let name ← context.markupName name
    let value ← context.lowerOptional others.head?
    pure (place tree .jsxAttribute (.child name <| .optionalChild value .done))

/-- Code inside markup. -/
def markupExpression : Rule := fun context tree =>
  match tree.firstPart? with
  | some inner => do
    let expression ← context.lower inner
    pure (place tree .jsxExpression (.child expression .done))
  | none => pure (place tree .jsxEmptyExpression .done)

/-- How markup is lowered, by the grammar's name. -/
def markupRules : List (String × Rule) :=
  [("jsx_element", fun context tree => context.element tree),
    ("jsx_self_closing_element", fun context tree => do
      let opening ← context.openingTag true tree
      pure (place tree .jsxElement
        (.child opening <| .children [] <| .optionalChild none .done))),
    ("jsx_opening_element", openingElement),
    ("jsx_closing_element", closingElement),
    ("jsx_attribute", markupAttribute),
    ("jsx_expression", markupExpression),
    ("jsx_text", markupText),
    ("html_character_reference", markupText),
    ("jsx_namespace_name", fun context tree => context.markupName tree)]

end CodeClones.Lowering
