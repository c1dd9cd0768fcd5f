/-!
# Spans

A half-open range of byte offsets. Nothing forces its start to come before its end; the
operations treat an inverted range as empty.
-/

namespace CodeClones

/-- A half-open range of byte offsets. -/
structure Span where
  /-- First byte of the range. -/
  start : Nat
  /-- One past the last byte of the range. -/
  stop : Nat
deriving DecidableEq, Repr

namespace Span

/-- Number of bytes of the range. -/
def length (span : Span) : Nat :=
  span.stop - span.start

/-- Whether the range holds no byte. -/
def isEmpty (span : Span) : Bool :=
  span.length == 0

/-- Both ends moved back, as far as the beginning of the text at most. -/
def movedBack (span : Span) (offset : Nat) : Span :=
  ⟨span.start - offset, span.stop - offset⟩

end Span

end CodeClones
