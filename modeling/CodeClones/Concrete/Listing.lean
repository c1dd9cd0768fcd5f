import CodeClones.Concrete.Tree
import CodeClones.Text.Digits
import CodeClones.Text.Lines

/-!
# Listings of concrete trees

A listing writes a concrete tree as text, one node on a line and each node before its children.
The columns are separated by tabs: the kind, the first byte and the one behind the last, `1` for
a named node and `0` for a token, the field of the parent or nothing, the number of children,
the letters of what is wrong (`E` for an error, `M` for a missing node, `H` for an error at or
below the node), and the fields that are answered by some other node, each with the number of
the line of its answer.
-/

namespace CodeClones.Concrete

open CodeClones.Text

/-- A number in a column. -/
def number? (column : List Char) : Option Nat :=
  natOfDigits? 10 column

/-- A field and the line that answers for it, if any, joined by an equals sign. -/
def lookup? (column : List Char) : Option (String × Option Nat) :=
  match pieces '=' column with
  | [field, []] => some (String.ofList field, none)
  | [field, line] => (number? line).map fun line => (String.ofList field, some line)
  | _ => none

/-- The node on a line, which is given by its number. -/
def Row.ofLine? (line : Nat) (characters : List Char) : Option Row :=
  match pieces '\t' characters with
  | kind :: start :: stop :: named :: field :: count :: others => do
    let start ← number? start
    let stop ← number? stop
    let count ← number? count
    let flags := others.headD []
    let lookups ← (others.drop 1).mapM lookup?
    some ⟨⟨line, String.ofList kind, ⟨start, stop⟩, named == ['1'],
      if field.isEmpty then none else some (String.ofList field),
      flags.contains 'E', flags.contains 'M', flags.contains 'H', lookups⟩, count⟩
  | _ => none

/-- The tree of a listing. -/
def Tree.ofListing? (listing : String) : Option Tree := do
  let rows ← (lines listing.toList).zipIdx.mapM fun numbered => Row.ofLine? numbered.2 numbered.1
  Tree.ofRows? rows

end CodeClones.Concrete
