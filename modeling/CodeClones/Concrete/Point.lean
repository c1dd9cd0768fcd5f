import CodeClones.Text.Bytes

/-!
# Points of a text

A place in a text is known in two ways: by the number of bytes before it, and as a point, which
has a row and a column. A grammar knows both for every node. How the points of a text follow from
its bytes is said here as a reader goes over them, one byte after another.
-/

namespace CodeClones.Concrete

/-- A row and a column, both counted from zero; a column counts bytes. -/
structure Point where
  /-- Number of the row. -/
  row : Nat
  /-- Number of bytes in front, in the same row. -/
  column : Nat
deriving DecidableEq, Repr

/-- The first point of a text. -/
def Point.first : Point := ⟨0, 0⟩

/-- The point behind a byte, by the point in front of it: a line feed ends the row. -/
def Point.after (point : Point) (byte : UInt8) : Point :=
  if byte = 10 then ⟨point.row + 1, 0⟩ else ⟨point.row, point.column + 1⟩

/-- The point that a reader reaches at an offset. -/
def pointAt (source : String) (offset : Nat) : Point :=
  ((Text.bytes source).take offset).foldl Point.after .first

end CodeClones.Concrete
