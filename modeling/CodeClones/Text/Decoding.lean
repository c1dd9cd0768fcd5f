import CodeClones.Text.Lines

/-!
# Decoding bytes as text

Bytes read from a file are taken as UTF-8. Each maximal ill-formed part, the longest start of
a character that some further byte could have completed, or else a single byte, is replaced by
one replacement character, so every list of bytes has a text. Files whose lines stand for
themselves are read only as far as they are well-formed.
-/

namespace CodeClones.Text

/-- The replacement character. -/
def replacement : Char := Char.ofNat 0xFFFD

/-- Whether a byte lies between two bounds. -/
def inRange (low high : Nat) (byte : UInt8) : Bool :=
  low ≤ byte.toNat && byte.toNat ≤ high

/-- How the bytes of a character begin. -/
inductive Lead where
  /-- A character of one byte. -/
  | single (code : Nat)
  /-- The payload of the first byte, the bounds of the second, and the number of continuation
  bytes after the second. -/
  | several (payload low high more : Nat)
  /-- A byte that begins no character. -/
  | illFormed

/-- Classify the first byte of a character. -/
def lead (byte : UInt8) : Lead :=
  let code := byte.toNat
  if code < 0x80 then .single code
  else if 0xC2 ≤ code && code ≤ 0xDF then .several (code - 0xC0) 0x80 0xBF 0
  else if code == 0xE0 then .several 0 0xA0 0xBF 1
  else if code == 0xED then .several 0xD 0x80 0x9F 1
  else if 0xE1 ≤ code && code ≤ 0xEF then .several (code - 0xE0) 0x80 0xBF 1
  else if code == 0xF0 then .several 0 0x90 0xBF 2
  else if 0xF1 ≤ code && code ≤ 0xF3 then .several (code - 0xF0) 0x80 0xBF 2
  else if code == 0xF4 then .several 4 0x80 0x8F 2
  else .illFormed

/-- Read continuation bytes; on success the code point, and in any case the bytes that were
not consumed. -/
def continuation : Nat → Nat → List UInt8 → Option Nat × List UInt8
  | 0, code, rest => (some code, rest)
  | _ + 1, _, [] => (none, [])
  | more + 1, code, byte :: rest =>
    if inRange 0x80 0xBF byte then continuation more (code * 64 + (byte.toNat - 0x80)) rest
    else (none, byte :: rest)

/-- Reading continuation bytes never lengthens the input. -/
theorem continuation_length_le (more code : Nat) (rest : List UInt8) :
    (continuation more code rest).2.length ≤ rest.length := by
  induction more generalizing code rest with
  | zero => simp [continuation]
  | succ more ih =>
    cases rest with
    | nil => simp [continuation]
    | cons byte rest =>
      simp only [continuation]
      split
      · exact Nat.le_trans (ih _ _) (Nat.le_succ _)
      · exact Nat.le_refl _

/-- Read one character after its first byte: the character, or the replacement character for
an ill-formed part, and the bytes after it. -/
def decodeStep (byte : UInt8) (rest : List UInt8) : Char × List UInt8 :=
  match lead byte with
  | .single code => (Char.ofNat code, rest)
  | .illFormed => (replacement, rest)
  | .several payload low high more =>
    match rest with
    | [] => (replacement, [])
    | second :: others =>
      if inRange low high second then
        match continuation more (payload * 64 + (second.toNat - 0x80)) others with
        | (some code, left) => (Char.ofNat code, left)
        | (none, left) => (replacement, left)
      else (replacement, rest)

/-- One step consumes at least the first byte. -/
theorem decodeStep_length_le (byte : UInt8) (rest : List UInt8) :
    (decodeStep byte rest).2.length ≤ rest.length := by
  unfold decodeStep
  cases lead byte with
  | single code => exact Nat.le_refl _
  | illFormed => exact Nat.le_refl _
  | several payload low high more =>
    cases rest with
    | nil => exact Nat.le_refl _
    | cons second others =>
      simp only
      split
      · have bound := continuation_length_le more (payload * 64 + (second.toNat - 0x80)) others
        cases result : continuation more (payload * 64 + (second.toNat - 0x80)) others with
        | mk found left =>
          rw [result] at bound
          cases found <;> exact Nat.le_trans bound (Nat.le_succ _)
      · exact Nat.le_refl _

/-- The characters of the bytes, after those already read, which are kept in reverse. -/
def decodeOnto (done : List Char) : List UInt8 → List Char
  | [] => done.reverse
  | byte :: rest => decodeOnto ((decodeStep byte rest).1 :: done) (decodeStep byte rest).2
termination_by bytes => bytes.length
decreasing_by
  have := decodeStep_length_le byte rest
  simp only [List.length_cons]
  omega

/-- The text of the bytes, with one replacement character for each ill-formed part. -/
def decode (bytes : List UInt8) : String :=
  String.ofList (decodeOnto [] bytes)

/-- The text of the bytes, if no part of them is ill-formed. -/
def decodeExact? (bytes : List UInt8) : Option String :=
  let text := decode bytes
  if Text.bytes text = bytes then some text else none

/-- The lines in front of the first one that is ill-formed. A line ends at a line feed, which
takes a carriage return before it along; the last line needs no ending and is left out when it
is empty. -/
def wellFormedLines (content : List UInt8) : List (List Char) :=
  let found := content.splitOn 10
  let ended := found.dropLast.map fun line =>
    (decodeExact? line).map fun text => withoutReturn text.toList
  let last := (found.getLast?.filter fun line => !line.isEmpty).map fun line =>
    (decodeExact? line).map fun text => text.toList
  ((ended ++ last.toList).takeWhile Option.isSome).filterMap id

end CodeClones.Text
