import CodeClones.Concrete.Point
import CodeClones.Detection
import CodeClones.Files.Path
import CodeClones.Lowering.Rules

/-!
# Parsing

A grammar turns a text into a concrete tree; it always does, and marks what fits no rule. It also
knows the points of the text. The tree becomes a program if nothing is marked and its nesting is
not too deep, and is refused otherwise, with the point of the node that is to blame. The name of a
file decides which dialect its text is in.
-/

namespace CodeClones

open Syntax Concrete

/-- The two dialects that texts are written in. -/
inductive Dialect where
  /-- Types, and type assertions in angle brackets. -/
  | typeScript
  /-- Types, and markup in angle brackets. -/
  | markup
deriving DecidableEq, Repr

/-- The dialect of a file, by the extension of its name. -/
def Dialect.ofName (name : String) : Dialect :=
  match Path.lowerExtension? name with
  | some "ts" | some "mts" | some "cts" => .typeScript
  | _ => .markup

/-- The name of a dialect. -/
def Dialect.name : Dialect → String
  | .typeScript => "TypeScript"
  | .markup => "Tsx"

/-- Why a tree is refused. -/
inductive ParseError where
  /-- The text fits no rule at a place, counted from one; a column counts bytes. -/
  | unexpected (line column : Nat) (kind : String)
  /-- The text lacks something at a place. -/
  | missing (line column : Nat) (kind : String)
  /-- The nesting goes deeper than the given number of levels. -/
  | tooDeep (levels : Nat)
deriving DecidableEq, Repr

/-- What is said about a refusal. -/
def ParseError.message : ParseError → String
  | .unexpected line column kind =>
    "syntax error at line " ++ toString line ++ ", column " ++ toString column ++
      " (" ++ kind ++ ")"
  | .missing line column kind =>
    "syntax error at line " ++ toString line ++ ", column " ++ toString column ++
      " (missing " ++ kind ++ ")"
  | .tooDeep levels => "nesting deeper than " ++ toString levels ++ " levels"

mutual

/-- The node to blame for what is wrong in a tree: going down into the first child with an
error, the first node that is an error or missing, or the last one reached. -/
def Concrete.Tree.culprit : Tree → Tree
  | .node header children =>
    if header.isError || header.isMissing then .node header children
    else (culpritAmong? children).getD (.node header children)

/-- The node to blame in the first tree with an error. -/
def Concrete.Tree.culpritAmong? : List Tree → Option Tree
  | [] => none
  | tree :: others =>
    if tree.header.hasError then some tree.culprit else culpritAmong? others

end

/-- The refusal of a tree for which a node that starts at a point is to blame. -/
def ParseError.ofCulprit (point : Point) (culprit : Tree) : ParseError :=
  if culprit.header.isMissing then .missing (point.row + 1) (point.column + 1) culprit.kind
  else .unexpected (point.row + 1) (point.column + 1) culprit.kind

/-- How deep nodes may be nested. -/
def maxNesting : Nat := 1000

/-- The program of a concrete tree, nested at most the given number of levels. The points are those
of the offsets at which nodes start. -/
def Syntax.Program.ofTree (levels : Nat) (source : String) (points : Nat → Point) (root : Tree) :
    Except ParseError Program :=
  if root.header.hasError then
    let culprit := root.culprit
    .error (.ofCulprit (points culprit.start) culprit)
  else
    let body := Lowering.programBody source levels root
    if body.tooDeep then .error (.tooDeep levels) else .ok ⟨root.span, body.value⟩

/-- What a grammar says of texts. -/
structure Grammar where
  /-- The concrete tree of a text in a dialect. -/
  tree : Dialect → String → Tree
  /-- The point of an offset in a text. -/
  point : String → Nat → Point

/-- The program of a text in a dialect. -/
def Grammar.parse (grammar : Grammar) (dialect : Dialect) (source : String) :
    Except ParseError Program :=
  Syntax.Program.ofTree maxNesting source (grammar.point source) (grammar.tree dialect source)

/-- The parser that a grammar gives. -/
def Grammar.parser (grammar : Grammar) : Parser := fun name source =>
  (grammar.parse (.ofName name) source).toOption

/-- A text in a dialect with its concrete tree. -/
abbrev Sample := (Dialect × String) × Tree

/-- A program without items, at the start of a text. -/
def emptyTree : Tree :=
  .node ⟨0, "program", ⟨0, 0⟩, true, none, false, false, false, []⟩ []

/-- The tree of a text of which nothing fits. -/
def refusedTree (source : String) : Tree :=
  .node ⟨0, "ERROR", ⟨0, Text.size source⟩, true, none, true, false, true, []⟩ []

/-- The grammar that knows some texts. Of any other text it knows nothing that fits, except
that the empty text is a program. -/
def Grammar.ofSamples (samples : List Sample) : Grammar where
  tree dialect source :=
    match samples.lookup (dialect, source) with
    | some tree => tree
    | none => if source = "" then emptyTree else refusedTree source
  point := pointAt

end CodeClones
