import CodeClones.Lowering.Basic
import CodeClones.Text.Escapes

/-!
# Lowering: templates

A template is cut into substitutions and the literal segments around them: one more segment
than substitutions, and the last segment marked as the tail. Segments have no tree of their
own; they are the text between the substitutions and inside the delimiters.
-/

namespace CodeClones.Lowering

open Syntax Concrete

/-- The literal text of a template between two offsets. Its value is missing when an escape in
it is malformed. -/
def segment (source : String) (start stop : Nat) (tail : Bool) : Node :=
  let written := (Text.slice? source start stop).getD ""
  .mk ⟨start, max stop start⟩ .templateSegment
    (.attribute tail <| .attribute (Text.unescape written) .done)

/-- The segments between substitutions, from a cursor on to the end of the template. -/
def segments (source : String) (cursor stop : Nat) : List Tree → List Node
  | [] => [segment source cursor stop true]
  | substitution :: others =>
    segment source cursor substitution.start false ::
      segments source substitution.stop stop others

/-- The substitutions of a template, by the kind of tree that holds one. -/
def substitutions (kind : String) (tree : Tree) : List Tree :=
  tree.parts.filter fun child => child.kind == kind

/-- The segments of a template. -/
def templateSegments (source : String) (kind : String) (tree : Tree) : List Node :=
  let first := tree.start + 1
  segments source first (max (tree.stop - 1) first) (substitutions kind tree)

/-- What the substitutions of a template hold. -/
def Context.templateHoles (context : Context) (kind : String) (tree : Tree) :
    Lowered (List Node) :=
  .all ((substitutions kind tree).map context.firstRequired)

end CodeClones.Lowering
