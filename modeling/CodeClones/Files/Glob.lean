import CodeClones.Text.Bytes

/-!
# Globs

A glob is a pattern for a whole path. A question mark stands for one byte and a star for any
run of bytes; whether these may be slashes is decided when a path is matched. Two stars that
make up a whole component stand for any number of folders. Brackets list characters, braces
list alternatives, and a backslash takes away the meaning of the character behind it.

A glob is read in two steps, first into lexemes and then into tokens, and is matched by
following all ways in which its tokens can cover the front of a path.
-/

namespace CodeClones

/-- Why a text is no glob. -/
inductive GlobError where
  /-- A bracket is not closed. -/
  | unclosedClass
  /-- The end of a range comes before its start. -/
  | reversedRange
  /-- A closing brace has no opening one. -/
  | unopenedAlternatives
  /-- An opening brace has no closing one. -/
  | unclosedAlternatives
  /-- A backslash has nothing behind it. -/
  | danglingEscape
deriving DecidableEq, Repr

namespace Glob

/-- A range of characters, both ends included. -/
abbrev Range := Char × Char

/-- The characters listed between brackets. -/
structure CharacterClass where
  /-- Whether the class holds what is not listed. -/
  negated : Bool
  /-- The listed ranges. -/
  ranges : List Range
deriving DecidableEq, Repr

/-! ## Character classes -/

/-- What has been read of a class: its ranges, the last one first, and whether a dash waits for
the end of the last one. -/
structure ClassDraft where
  /-- The ranges read so far, the last one first. -/
  ranges : List Range
  /-- Whether the next character ends the last range. -/
  extending : Bool

/-- Put a character into the class, as the end of a range if one is waited for. -/
def ClassDraft.add (draft : ClassDraft) (character : Char) : Except GlobError ClassDraft :=
  match draft.extending, draft.ranges with
  | true, (low, _) :: others =>
    if character < low then .error .reversedRange
    else .ok ⟨(low, character) :: others, false⟩
  | _, ranges => .ok ⟨(character, character) :: ranges, false⟩

/-- The ranges in the order of the text; a dash that waits in vain stands for itself. -/
def ClassDraft.finish (draft : ClassDraft) : List Range :=
  (if draft.extending then ('-', '-') :: draft.ranges else draft.ranges).reverse

/-- Read a class up to its closing bracket, giving the ranges and the text behind it, or
nothing when the bracket is missing. A closing bracket or a dash in the first place stands for
itself. -/
def classBody (first : Bool) (draft : ClassDraft) :
    List Char → Except GlobError (Option (List Range × List Char))
  | [] => .ok none
  | character :: rest =>
    if character = ']' && !first then .ok (some (draft.finish, rest))
    else if character = '-' && !first && !draft.extending then
      classBody false ⟨draft.ranges, true⟩ rest
    else do
      classBody false (← draft.add character) rest

/-- What stands behind a class is shorter than what it was read from. -/
theorem classBody_length_lt {first : Bool} {draft : ClassDraft} {characters : List Char}
    {ranges : List Range} {rest : List Char}
    (result : classBody first draft characters = .ok (some (ranges, rest))) :
    rest.length < characters.length := by
  induction characters generalizing first draft with
  | nil => simp [classBody] at result
  | cons character others ih =>
    simp only [classBody] at result
    split at result
    · cases result
      exact Nat.lt_succ_self _
    · split at result
      · exact Nat.lt_succ_of_lt (ih result)
      · cases added : draft.add character with
        | error reason => simp [added, bind, Except.bind] at result
        | ok next =>
          simp only [added, bind, Except.bind] at result
          exact Nat.lt_succ_of_lt (ih result)

/-- Read a class behind its opening bracket. -/
def characterClass : List Char → Except GlobError (Option (CharacterClass × List Char))
  | '!' :: rest | '^' :: rest =>
    (·.map fun found => (⟨true, found.1⟩, found.2)) <$> classBody true ⟨[], false⟩ rest
  | characters =>
    (·.map fun found => (⟨false, found.1⟩, found.2)) <$> classBody true ⟨[], false⟩ characters

/-- What stands behind a class is shorter than what it was read from. -/
theorem characterClass_length_lt {characters rest : List Char} {found : CharacterClass}
    (result : characterClass characters = .ok (some (found, rest))) :
    rest.length < characters.length := by
  have body : ∀ {text : List Char} {negated : Bool},
      (·.map fun found => (CharacterClass.mk negated found.1, found.2)) <$>
        classBody true ⟨[], false⟩ text = .ok (some (found, rest)) →
      rest.length < text.length := by
    intro text negated equation
    cases read : classBody true ⟨[], false⟩ text with
    | error reason => simp [read, Functor.map, Except.map] at equation
    | ok value =>
      cases value with
      | none => simp [read, Functor.map, Except.map] at equation
      | some pair =>
        simp only [read, Functor.map, Except.map, Option.map_some, Except.ok.injEq,
          Option.some.injEq, Prod.mk.injEq] at equation
        rw [← equation.2]
        exact classBody_length_lt read
  unfold characterClass at result
  split at result
  · exact Nat.lt_succ_of_lt (body result)
  · exact Nat.lt_succ_of_lt (body result)
  · exact body result

/-! ## Lexemes -/

/-- The smallest pieces of a glob. -/
inductive Lexeme where
  /-- A character that stands for itself. -/
  | plain (character : Char)
  /-- A character behind a backslash. -/
  | escaped (character : Char)
  /-- A question mark. -/
  | question
  /-- A star. -/
  | star
  /-- An opening brace. -/
  | opening
  /-- A closing brace. -/
  | closing
  /-- A comma. -/
  | comma
  /-- A class in brackets. -/
  | characters (listed : CharacterClass)
deriving DecidableEq, Repr

/-- The character that a lexeme ends in. -/
def Lexeme.last : Lexeme → Char
  | .plain character | .escaped character => character
  | .question => '?'
  | .star => '*'
  | .opening => '{'
  | .closing => '}'
  | .comma => ','
  | .characters _ => ']'

/-- What becomes of an opening bracket. -/
inductive Brackets where
  /-- It begins a class, which must be closed. -/
  | closed
  /-- It begins a class, unless that is not closed. -/
  | lenient
  /-- It stands for itself. -/
  | plain
deriving DecidableEq, Repr

/-- The lexemes of a text. Behind a bracket that is not closed, no bracket begins a class. -/
def lexemes (brackets : Brackets) : List Char → Except GlobError (List Lexeme)
  | [] => .ok []
  | '?' :: rest => (.question :: ·) <$> lexemes brackets rest
  | '*' :: rest => (.star :: ·) <$> lexemes brackets rest
  | '{' :: rest => (.opening :: ·) <$> lexemes brackets rest
  | '}' :: rest => (.closing :: ·) <$> lexemes brackets rest
  | ',' :: rest => (.comma :: ·) <$> lexemes brackets rest
  | '\\' :: character :: rest => (.escaped character :: ·) <$> lexemes brackets rest
  | ['\\'] => .error .danglingEscape
  | '[' :: rest =>
    if brackets = .plain then (.plain '[' :: ·) <$> lexemes brackets rest
    else
      match result : characterClass rest with
      | .error reason => .error reason
      | .ok (some (found, others)) =>
        have : others.length < rest.length := characterClass_length_lt result
        (.characters found :: ·) <$> lexemes brackets others
      | .ok none =>
        if brackets = .lenient then (.plain '[' :: ·) <$> lexemes .plain rest
        else .error .unclosedClass
  | character :: rest => (.plain character :: ·) <$> lexemes brackets rest
termination_by characters => characters.length

/-! ## Tokens -/

/-- What a part of a glob stands for. -/
inductive Token where
  /-- A character. -/
  | literal (character : Char)
  /-- One byte. -/
  | anyByte
  /-- Any run of bytes. -/
  | anyRun
  /-- Any number of folders at the beginning. -/
  | leadingFolders
  /-- Any number of folders between two slashes. -/
  | innerFolders
  /-- Everything below a folder. -/
  | trailingFolders
  /-- One byte of a class. -/
  | characters (listed : CharacterClass)
  /-- One of several sequences. -/
  | oneOf (branches : List (List Token))

/-- A glob under construction. -/
structure Draft where
  /-- The tokens of the branch that is being read, the last one first. -/
  current : List Token
  /-- The open braces, the innermost first: the branches already read, the last one first, and
  the tokens before the brace. -/
  outer : List (List (List Token) × List Token)

namespace Draft

/-- Add a token to the branch. -/
def push (draft : Draft) (token : Token) : Draft :=
  { draft with current := token :: draft.current }

/-- Whether a brace is open. -/
def inBraces (draft : Draft) : Bool :=
  !draft.outer.isEmpty

/-- Open a brace. -/
def openBrace (draft : Draft) : Draft :=
  ⟨[], ([], draft.current) :: draft.outer⟩

/-- A comma begins the next branch; outside braces it stands for itself. -/
def nextBranch (draft : Draft) : Draft :=
  match draft.outer with
  | [] => draft.push (.literal ',')
  | (branches, before) :: others =>
    ⟨[], (draft.current.reverse :: branches, before) :: others⟩

/-- Close the innermost brace. -/
def closeBrace (draft : Draft) : Except GlobError Draft :=
  match draft.outer with
  | [] => .error .unopenedAlternatives
  | (branches, before) :: others =>
    .ok ⟨.oneOf (draft.current.reverse :: branches).reverse :: before, others⟩

/-- Let the token take the place of the slash before it; folders that already stand there
stay. -/
def replaceLast (draft : Draft) (token : Token) : Draft :=
  match draft.current with
  | .leadingFolders :: _ | .trailingFolders :: _ => draft
  | current => { draft with current := token :: current.drop 1 }

/-- Two stars, given the character before and the lexeme behind them: folders if they make up
a whole component, two runs otherwise. The result says whether the slash behind them belongs
to them. -/
def twoStars (draft : Draft) (before : Option Char) (behind : Option Lexeme) : Draft × Bool :=
  let runs := ((draft.push .anyRun).push .anyRun, false)
  if draft.current.isEmpty then
    match behind with
    | none => (draft.push .leadingFolders, false)
    | some (.plain '/') => (draft.push .leadingFolders, true)
    | _ => runs
  else if before == some '/' || (draft.inBraces && (before == some ',' || before == some '{')) then
    match behind with
    | none => (draft.replaceLast .trailingFolders, false)
    | some (.plain '/') => (draft.replaceLast .innerFolders, true)
    | some .comma | some .closing =>
      if draft.inBraces then (draft.replaceLast .trailingFolders, false) else runs
    | _ => runs
  else runs

/-- Read lexemes, given the character before them. -/
def read (draft : Draft) (before : Option Char) : List Lexeme → Except GlobError Draft
  | [] => .ok draft
  | .star :: .star :: rest =>
    let (next, takesSlash) := draft.twoStars before rest.head?
    if takesSlash then next.read (some '/') (rest.drop 1) else next.read (some '*') rest
  | lexeme :: rest =>
    let next : Except GlobError Draft :=
      match lexeme with
      | .plain character | .escaped character => .ok (draft.push (.literal character))
      | .question => .ok (draft.push .anyByte)
      | .star => .ok (draft.push .anyRun)
      | .opening => .ok draft.openBrace
      | .closing => draft.closeBrace
      | .comma => .ok draft.nextBranch
      | .characters found => .ok (draft.push (.characters found))
    match next with
    | .ok next => next.read (some lexeme.last) rest
    | .error reason => .error reason
termination_by lexemes => lexemes.length
decreasing_by all_goals simp +arith

end Draft

/-! ## Matching -/

/-- Whether a byte lies in a range of characters. A range of characters of several bytes is
taken byte by byte: only the last byte of its start and the first byte of its end make up a
range of bytes, the others stand for themselves. -/
def Range.hasByte (range : Range) (byte : UInt8) : Bool :=
  let low := Text.bytes (String.singleton range.1)
  let high := Text.bytes (String.singleton range.2)
  low.contains byte || high.contains byte ||
    (range.1 != range.2 && low.getLast?.any (· ≤ byte) && high.head?.any (byte ≤ ·))

/-- Whether a class holds a byte. -/
def CharacterClass.hasByte (listed : CharacterClass) (byte : UInt8) : Bool :=
  listed.ranges.any (Range.hasByte · byte) != listed.negated

/-- The slash between the names of a path. -/
def slash : UInt8 := 47

/-- What can be left of the bytes behind a run, which may hold slashes or not. -/
def afterRun (slashes : Bool) : List UInt8 → List (List UInt8)
  | [] => [[]]
  | byte :: rest =>
    (byte :: rest) :: if slashes || byte != slash then afterRun slashes rest else []

/-- What is left of the bytes behind each of their slashes. -/
def afterSlashes : List UInt8 → List (List UInt8)
  | [] => []
  | byte :: rest => if byte = slash then rest :: afterSlashes rest else afterSlashes rest

/-- What is left of the bytes behind a start, if they have it. -/
def afterStart : (start bytes : List UInt8) → List (List UInt8)
  | [], bytes => [bytes]
  | _ :: _, [] => []
  | expected :: start, byte :: bytes =>
    if expected = byte then afterStart start bytes else []

/-- What is left of the bytes behind the first one, if it passes the test. -/
def afterByte (test : UInt8 → Bool) : List UInt8 → List (List UInt8)
  | [] => []
  | byte :: rest => if test byte then [rest] else []

mutual

/-- Whether a token stands for nothing at all. -/
def Token.isVoid : Token → Bool
  | .oneOf branches => areVoid branches
  | _ => false

/-- Whether all tokens stand for nothing. -/
def isVoid : List Token → Bool
  | [] => true
  | token :: others => token.isVoid && isVoid others

/-- Whether all branches stand for nothing. -/
def areVoid : List (List Token) → Bool
  | [] => true
  | branch :: others => isVoid branch && areVoid others

end

mutual

/-- What can be left of the bytes behind a token. Branches that stand for nothing do not
count, unless there are no others. -/
def Token.after (slashes : Bool) (bytes : List UInt8) : Token → List (List UInt8)
  | .literal character => afterStart (Text.bytes (String.singleton character)) bytes
  | .anyByte => afterByte (fun byte => slashes || byte != slash) bytes
  | .anyRun => afterRun slashes bytes
  | .leadingFolders => bytes :: afterSlashes bytes
  | .innerFolders => (afterByte (· == slash) bytes).flatMap fun rest => rest :: afterSlashes rest
  | .trailingFolders => (afterByte (· == slash) bytes).flatMap (afterRun true)
  | .characters listed => afterByte listed.hasByte bytes
  | .oneOf branches => if areVoid branches then [bytes] else afterAny slashes bytes branches

/-- What can be left of the bytes behind one of the branches. -/
def afterAny (slashes : Bool) (bytes : List UInt8) : List (List Token) → List (List UInt8)
  | [] => []
  | branch :: others =>
    (if isVoid branch then [] else afterAll slashes [bytes] branch) ++
      afterAny slashes bytes others

/-- What can be left behind all tokens of any of the lists of bytes. -/
def afterAll (slashes : Bool) (starts : List (List UInt8)) : List Token → List (List UInt8)
  | [] => starts
  | token :: others =>
    afterAll slashes (starts.flatMap fun bytes => token.after slashes bytes).eraseDups others

end

end Glob

/-- A pattern for paths. -/
structure Glob where
  /-- The tokens, which cover a matching path from its beginning to its end. -/
  tokens : List Glob.Token

/-- Read a glob. When the reading is lenient, a bracket that is not closed stands for
itself. -/
def Glob.ofText (lenient : Bool) (text : String) : Except GlobError Glob := do
  let lexemes ← lexemes (if lenient then .lenient else .closed) text.toList
  let draft ← Draft.read ⟨[], []⟩ none lexemes
  if draft.inBraces then .error .unclosedAlternatives else .ok ⟨draft.current.reverse⟩

/-- Whether a glob matches a whole path, where wildcards may stand for slashes or not. Two
stars alone match every path. -/
def Glob.isMatch (glob : Glob) (slashes : Bool) (path : String) : Bool :=
  match glob.tokens with
  | [.leadingFolders] => true
  | tokens => (afterAll slashes [Text.bytes path] tokens).any List.isEmpty

end CodeClones
