import CodeClones.Text.Bytes

/-!
# Lines

A text is cut into lines in two ways. `lines` gives the contents of its lines, each without
its line ending. `LineIndex` records where the line feeds stand, and answers on which line a
byte offset lies.
-/

namespace CodeClones.Text

/-- The pieces between the separators, always at least one. -/
def pieces (separator : Char) (characters : List Char) : List (List Char) :=
  characters.foldr
    (fun character found =>
      if character = separator then [] :: found
      else match found with
        | [] => [[character]]
        | piece :: others => (character :: piece) :: others)
    [[]]

/-- A line without the carriage return that belongs to its line ending. -/
def withoutReturn (line : List Char) : List Char :=
  if line.getLast? = some '\r' then line.dropLast else line

/-- The contents of the lines. A line ends at a line feed, which takes a carriage return
before it along; the last line needs no ending and is left out when it is empty. -/
def lines (characters : List Char) : List (List Char) :=
  let found := pieces '\n' characters
  let ended := found.dropLast.map withoutReturn
  match found.getLast? with
  | none | some [] => ended
  | some last => ended ++ [last]

/-- Join lines with one line feed between neighbours. -/
def joinLines : List (List Char) → List Char
  | [] => []
  | [line] => line
  | line :: others => line ++ '\n' :: joinLines others

/-- How many numbers stand before the first one that fails a test. On numbers of which those that
pass stand first, a binary search finds it. -/
def partitionPoint (test : Nat → Bool) (numbers : List Nat) : Nat :=
  (numbers.takeWhile test).length

/-- Where the line feeds of a text stand. -/
structure LineIndex where
  /-- Byte offsets of the line feeds, ascending. -/
  feeds : List Nat
  /-- Number of bytes of the text. -/
  size : Nat

namespace LineIndex

/-- Record the line feeds of a text. -/
def ofText (text : String) : LineIndex where
  feeds := ((bytes text).zipIdx.filter fun entry => entry.1 == 10).map (·.2)
  size := Text.size text

/-- Number of lines: none for the empty text, otherwise one more than its line feeds. -/
def lineCount (index : LineIndex) : Nat :=
  if index.size = 0 then 0 else index.feeds.length + 1

/-- The line, counted from one, on which a byte offset lies; a line feed lies on the line that
it ends. Every offset of the empty text is on line zero. -/
def lineOf (index : LineIndex) (offset : Nat) : Nat :=
  if index.size = 0 then 0 else partitionPoint (· < offset) index.feeds + 1

/-- First and last line of a half-open byte range; an empty range lies on one line. -/
def lineRange (index : LineIndex) (start stop : Nat) : Nat × Nat :=
  let first := index.lineOf start
  (first, if start < stop then index.lineOf (stop - 1) else first)

end LineIndex

end CodeClones.Text
