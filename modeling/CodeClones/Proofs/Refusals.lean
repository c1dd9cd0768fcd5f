import CodeClones.Parsing
import CodeClones.Proofs.Concrete.Ranges

/-!
# Where a text is refused

A grammar marks every node that has something wrong at or below it. The search for the node to
blame follows these marks: it goes down into the first marked child and never turns back. If the
marks are right, it ends at the first node in the order of the text that is an error or missing,
and the text is refused at the point where that node starts. Of the points of a grammar it is known
how each one follows from the one before it. Lines and columns are said here by the line feeds
between the start of the text and the node.
-/

namespace CodeClones

open Syntax Concrete

namespace Concrete.Tree

/-- Whether the root stands for text that fits no rule, or was put in because the text lacks it. -/
def isWrong (tree : Tree) : Bool :=
  tree.header.isError || tree.header.isMissing

/-- A node is marked exactly if it is wrong itself or one of its children is marked. -/
def RightlyMarked (tree : Tree) : Prop :=
  ∀ part ∈ tree.subtrees, part.header.hasError = true ↔
    part.isWrong = true ∨ ∃ child ∈ part.children, child.header.hasError = true

instance (tree : Tree) : Decidable tree.RightlyMarked :=
  inferInstanceAs (Decidable (∀ part ∈ tree.subtrees, _ ↔ _))

/-- The root is marked if it is wrong itself or one of its children is marked. -/
theorem RightlyMarked.root {tree : Tree} (marked : tree.RightlyMarked) :
    tree.header.hasError = true ↔
      tree.isWrong = true ∨ ∃ child ∈ tree.children, child.header.hasError = true :=
  marked tree (mem_subtrees.mpr (.inl rfl))

/-- The children of a rightly marked tree are rightly marked. -/
theorem RightlyMarked.of_mem_children {tree child : Tree} (marked : tree.RightlyMarked)
    (member : child ∈ tree.children) : child.RightlyMarked :=
  fun part below => marked part (mem_subtrees.mpr (.inr ⟨child, member, below⟩))

/-- Among trees there is a node to blame exactly if one of them is marked. -/
theorem isSome_culpritAmong?_iff {trees : List Tree} :
    (culpritAmong? trees).isSome = true ↔ ∃ tree ∈ trees, tree.header.hasError = true := by
  induction trees with
  | nil => simp [culpritAmong?]
  | cons tree others ih =>
    rw [culpritAmong?]
    cases mark : tree.header.hasError with
    | true => simp [mark]
    | false => simp [mark, ih]

mutual

/-- In a tree that is rightly marked, the node to blame is the first one that is wrong; if the
tree is not marked, then none is. -/
theorem find?_isWrong_subtrees : (tree : Tree) → tree.RightlyMarked →
    tree.subtrees.find? isWrong = if tree.header.hasError then some tree.culprit else none
  | .node header children, marked => by
    have among := find?_isWrong_subtreesAmong children fun child member =>
      marked.of_mem_children member
    have root : header.hasError = true ↔ (header.isError || header.isMissing) = true ∨
        ∃ child ∈ children, child.header.hasError = true := marked.root
    have first : (Tree.node header children).subtrees.find? isWrong =
        if header.isError || header.isMissing then some (.node header children)
        else culpritAmong? children := by
      rw [subtrees, List.find?_cons, among]
      change (match header.isError || header.isMissing with
        | true => some (Tree.node header children)
        | false => culpritAmong? children) = _
      cases header.isError || header.isMissing <;> rfl
    change _ = if header.hasError then some (Tree.node header children).culprit else none
    rw [first, culprit]
    cases wrong : header.isError || header.isMissing with
    | true => simp [root.mpr (.inl wrong)]
    | false =>
      -- Then the mark of the node is that of a child, and the search goes on there.
      have below : (culpritAmong? children).isSome = header.hasError := by
        rw [Bool.eq_iff_iff, isSome_culpritAmong?_iff, root]
        simp [wrong]
      cases found : culpritAmong? children with
      | none => simp [← below, found]
      | some blamed => simp [← below, found]

/-- In trees that are rightly marked, the node to blame in the first marked one is the first node
that is wrong. -/
theorem find?_isWrong_subtreesAmong : (trees : List Tree) →
    (∀ tree ∈ trees, tree.RightlyMarked) →
    (subtreesAmong trees).find? isWrong = culpritAmong? trees
  | [], _ => rfl
  | tree :: others, marked => by
    have first := find?_isWrong_subtrees tree (marked tree List.mem_cons_self)
    have rest := find?_isWrong_subtreesAmong others fun other member =>
      marked other (List.mem_cons_of_mem _ member)
    rw [subtreesAmong, culpritAmong?, List.find?_append, first, rest]
    cases tree.header.hasError <;> simp

end

/-- A rightly marked tree is marked exactly if some node in it is wrong. -/
theorem hasError_iff_exists_isWrong {tree : Tree} (marked : tree.RightlyMarked) :
    tree.header.hasError = true ↔ ∃ part ∈ tree.subtrees, part.isWrong = true := by
  rw [← List.find?_isSome, find?_isWrong_subtrees tree marked]
  cases tree.header.hasError <;> simp

/-- If some node is wrong, the first one that is has the blame. -/
theorem eq_culprit_of_find? {tree first : Tree} (marked : tree.RightlyMarked)
    (found : tree.subtrees.find? isWrong = some first) :
    tree.header.hasError = true ∧ tree.culprit = first := by
  rw [find?_isWrong_subtrees tree marked] at found
  cases mark : tree.header.hasError with
  | true => simpa [mark] using found
  | false => simp [mark] at found

end Concrete.Tree

/-! ## Lines and columns -/

/-- The bytes before a place fall into whole lines, each with the line feed that ends it, and the
front of the line of the place. -/
structure Lead (source : String) (offset : Nat) (above front : List UInt8) : Prop where
  /-- Together these are the bytes before the place. -/
  bytes_eq : (Text.bytes source).take offset = above ++ front
  /-- There is no line feed in the front of the line. -/
  no_feed : 10 ∉ front
  /-- The lines above it end in a line feed, unless there are none. -/
  ends_in_feed : above = [] ∨ above.getLast? = some 10

/-- The front of the line ends at the place, if the text reaches that far. -/
theorem Lead.length_eq {source : String} {offset : Nat} {above front : List UInt8}
    (lead : Lead source offset above front) (reaches : offset ≤ Text.size source) :
    above.length + front.length = offset := by
  have whole : (Text.bytes source).length = Text.size source := rfl
  rw [← List.length_append, ← lead.bytes_eq, List.length_take, whole]
  omega

/-- The bytes before any place fall into lines in this way. -/
theorem exists_lead (source : String) (offset : Nat) :
    ∃ above front, Lead source offset above front := by
  let before := (Text.bytes source).take offset
  let inLine := fun byte : UInt8 => byte != 10
  have cut : before = (before.reverse.dropWhile inLine).reverse ++
      (before.reverse.takeWhile inLine).reverse := by
    rw [← List.reverse_append, List.takeWhile_append_dropWhile, List.reverse_reverse]
  refine ⟨_, _, cut, ?_, ?_⟩
  · intro member
    have kept := List.all_eq_true.mp List.all_takeWhile 10 (List.mem_reverse.mp member)
    simp [inLine] at kept
  · have stopped := List.head?_dropWhile_not inLine before.reverse
    rw [List.getLast?_reverse, List.reverse_eq_nil_iff]
    cases rest : before.reverse.dropWhile inLine with
    | nil => exact .inl rfl
    | cons byte others => simpa [rest, inLine] using stopped

/-! ## Points -/

namespace Concrete

/-- Over bytes without a line feed a reader stays in the row. -/
theorem foldl_after_of_no_feed {front : List UInt8} (noFeed : 10 ∉ front) (point : Point) :
    front.foldl Point.after point = ⟨point.row, point.column + front.length⟩ := by
  induction front generalizing point with
  | nil => rfl
  | cons byte others ih =>
    rw [List.mem_cons, not_or] at noFeed
    rw [List.foldl_cons, Point.after, if_neg (Ne.symm noFeed.1), ih noFeed.2, List.length_cons,
      Nat.add_assoc, Nat.add_comm 1]

/-- A reader counts rows by the line feeds. -/
theorem row_foldl_after (bytes : List UInt8) (point : Point) :
    (bytes.foldl Point.after point).row = point.row + bytes.count 10 := by
  induction bytes generalizing point with
  | nil => rfl
  | cons byte others ih =>
    rw [List.foldl_cons, ih, Point.after, List.count_cons]
    by_cases feed : byte = 10
    · rw [if_pos feed, if_pos (beq_iff_eq.mpr feed), Nat.add_assoc, Nat.add_comm 1]
    · rw [if_neg feed, if_neg (by simpa using feed)]
      rfl

/-- Behind a line feed a reader is at the start of a row. -/
theorem column_foldl_after {bytes : List UInt8} {point : Point} (start : point.column = 0)
    (ended : bytes = [] ∨ bytes.getLast? = some 10) :
    (bytes.foldl Point.after point).column = 0 := by
  rcases ended with rfl | ended
  · exact start
  · obtain ⟨others, rfl⟩ := List.getLast?_eq_some_iff.mp ended
    rw [List.foldl_append, List.foldl_cons, List.foldl_nil, Point.after, if_pos rfl]

/-- The point of a place has as many rows above it as there are line feeds before it, and its
column is the length of the front of its line. -/
theorem pointAt_eq {source : String} {offset : Nat} {above front : List UInt8}
    (lead : Lead source offset above front) :
    pointAt source offset = ⟨above.count 10, front.length⟩ := by
  have row : (above.foldl Point.after .first).row = above.count 10 :=
    (row_foldl_after above .first).trans (Nat.zero_add _)
  have column : (above.foldl Point.after .first).column = 0 :=
    column_foldl_after rfl lead.ends_in_feed
  rw [pointAt, lead.bytes_eq, List.foldl_append, foldl_after_of_no_feed lead.no_feed, row, column,
    Nat.zero_add]

/-- What is relied on in the points of a grammar: the text starts at the first point, and every
byte of it leads from the point in front of it to the point behind it. -/
structure Tracks (source : String) (points : Nat → Point) : Prop where
  /-- The text starts at the first point. -/
  starts : points 0 = .first
  /-- A byte leads from one point to the next. -/
  advances : ∀ offset byte, (Text.bytes source)[offset]? = some byte →
    points (offset + 1) = (points offset).after byte

/-- A reader finds such points. -/
theorem tracks_pointAt (source : String) : Tracks source (pointAt source) where
  starts := rfl
  advances offset byte found := by
    have taken : (Text.bytes source).take (offset + 1) =
        (Text.bytes source).take offset ++ [byte] := by
      rw [List.take_add_one, found, Option.toList_some]
    rw [pointAt, taken, List.foldl_append, List.foldl_cons, List.foldl_nil, pointAt]

/-- There are no other such points within the text. -/
theorem Tracks.eq_pointAt {source : String} {points : Nat → Point}
    (tracks : Tracks source points) {offset : Nat} (inText : offset ≤ Text.size source) :
    points offset = pointAt source offset := by
  induction offset with
  | zero => exact tracks.starts
  | succ offset ih =>
    have found := List.getElem?_eq_getElem (show offset < (Text.bytes source).length from inText)
    rw [tracks.advances offset _ found, (tracks_pointAt source).advances offset _ found,
      ih (Nat.le_of_succ_le inText)]

end Concrete

/-! ## Refusals -/

/-- Whether something in the text is to blame, and not its nesting. -/
def ParseError.isSyntactic : ParseError → Bool
  | .unexpected _ _ _ => true
  | .missing _ _ _ => true
  | .tooDeep _ => false

/-- A node to blame is something in the text. -/
theorem ParseError.isSyntactic_ofCulprit (point : Point) (culprit : Tree) :
    (ofCulprit point culprit).isSyntactic = true := by
  unfold ofCulprit
  split <;> rfl

/-- A text is refused for what it says exactly if its tree is marked. -/
theorem ofTree_isSyntactic_iff (levels : Nat) (source : String) (points : Nat → Point)
    (root : Tree) :
    (∃ error, Program.ofTree levels source points root = .error error ∧
      error.isSyntactic = true) ↔ root.header.hasError = true := by
  unfold Program.ofTree
  cases root.header.hasError with
  | true => simp [ParseError.isSyntactic_ofCulprit]
  | false =>
    simp only [Bool.false_eq_true, if_false, iff_false]
    rintro ⟨error, refused, syntactic⟩
    split at refused
    · cases refused
      cases syntactic
    · cases refused

/-- A text whose tree is rightly marked is refused for what it says exactly if some node is an
error or missing. The search for the node to blame then finds the first such node, each node
coming before those below it, and the refusal names its kind and its place: the line is one more
than the number of line feeds before the node, and the column one more than the number of bytes
between the last of them, or the start of the text, and the node. -/
theorem ofTree_refuses_first (levels : Nat) (source : String) (points : Nat → Point) (root : Tree)
    (marked : root.RightlyMarked) :
    ((∃ error, Program.ofTree levels source points root = .error error ∧
        error.isSyntactic = true) ↔ ∃ part ∈ root.subtrees, part.isWrong = true) ∧
    ∀ first, root.subtrees.find? Tree.isWrong = some first → root.culprit = first ∧
      (Tracks source points → first.start ≤ Text.size source →
        ∃ above front, Lead source first.start above front ∧
          above.length + front.length = first.start ∧
          Program.ofTree levels source points root = .error
            (if first.header.isMissing then
              .missing (above.count 10 + 1) (front.length + 1) first.kind
            else .unexpected (above.count 10 + 1) (front.length + 1) first.kind)) := by
  constructor
  · rw [ofTree_isSyntactic_iff, Tree.hasError_iff_exists_isWrong marked]
  · intro first found
    obtain ⟨mark, blamed⟩ := Tree.eq_culprit_of_find? marked found
    refine ⟨blamed, fun tracks inText => ?_⟩
    obtain ⟨above, front, lead⟩ := exists_lead source first.start
    refine ⟨above, front, lead, lead.length_eq inText, ?_⟩
    have point : points first.start = ⟨above.count 10, front.length⟩ :=
      (tracks.eq_pointAt inText).trans (pointAt_eq lead)
    rw [Program.ofTree, if_pos mark, blamed]
    dsimp only
    rw [point, ParseError.ofCulprit]

/-- The tree of `a;`, then `b` in a line of its own without the semicolon it needs, then a
character that fits nowhere. -/
def twoFaults : Tree :=
  .node ⟨0, "program", ⟨0, 6⟩, true, none, false, false, true, []⟩
    [.node ⟨1, "expression_statement", ⟨0, 2⟩, true, none, false, false, false, []⟩
      [.node ⟨2, "identifier", ⟨0, 1⟩, true, none, false, false, false, []⟩ [],
        .node ⟨3, ";", ⟨1, 2⟩, false, none, false, false, false, []⟩ []],
      .node ⟨4, "expression_statement", ⟨3, 4⟩, true, none, false, false, true, []⟩
        [.node ⟨5, "identifier", ⟨3, 4⟩, true, none, false, false, false, []⟩ [],
          .node ⟨6, ";", ⟨4, 4⟩, false, none, false, true, true, []⟩ []],
      .node ⟨7, "ERROR", ⟨5, 6⟩, true, none, true, false, true, []⟩ []]

/-- Of the two faults the first one is reported: in the second line, behind one byte, a semicolon
is missing. -/
theorem ofTree_refuses_first_of_two :
    twoFaults.RightlyMarked ∧ Tracks "a;\nb\n@" (pointAt "a;\nb\n@") ∧
      4 ≤ Text.size "a;\nb\n@" ∧
      ∃ above front, Lead "a;\nb\n@" 4 above front ∧ above.length + front.length = 4 ∧
        Program.ofTree maxNesting "a;\nb\n@" (pointAt "a;\nb\n@") twoFaults =
          .error (.missing (above.count 10 + 1) (front.length + 1) ";") := by
  have marked : twoFaults.RightlyMarked := by decide
  have tracks := tracks_pointAt "a;\nb\n@"
  have inText : 4 ≤ Text.size "a;\nb\n@" := by decide
  obtain ⟨_, refused⟩ :=
    (ofTree_refuses_first maxNesting "a;\nb\n@" (pointAt _) twoFaults marked).2 _ rfl
  exact ⟨marked, tracks, inText, refused tracks inText⟩

example : Program.ofTree maxNesting "a;\nb\n@" (pointAt "a;\nb\n@") twoFaults =
    .error (.missing 2 2 ";") :=
  rfl

end CodeClones
