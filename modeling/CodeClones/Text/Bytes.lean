/-!
# Byte offsets into text

Every position in this library counts UTF-8 bytes. A range of bytes is a piece of text only
when both ends fall between two characters, so taking a slice may fail.
-/

namespace CodeClones.Text

/-- Number of bytes of the text. -/
def size (text : String) : Nat :=
  text.utf8ByteSize

/-- Whether a byte offset lies in the text and between two of its characters. -/
def isBoundary (text : String) (offset : Nat) : Bool :=
  (text.pos? ⟨offset⟩).isSome

/-- The text between two byte offsets; none when the range is inverted, ends outside the text
or splits a character. -/
def slice? (text : String) (start stop : Nat) : Option String :=
  if start ≤ stop then
    match text.pos? ⟨start⟩, text.pos? ⟨stop⟩ with
    | some first, some last => some (text.extract first last)
    | _, _ => none
  else none

/-- The text from a byte offset on; none when the offset is outside the text or splits a
character. -/
def suffix? (text : String) (start : Nat) : Option String :=
  slice? text start (size text)

/-- The bytes of the text. -/
def bytes (text : String) : List UInt8 :=
  text.toByteArray.data.toList

end CodeClones.Text
