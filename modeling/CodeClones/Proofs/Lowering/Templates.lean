import CodeClones.Proofs.Concrete.Arrangement
import CodeClones.Proofs.Lowering.StandIns
import CodeClones.Proofs.Text.Slices
import Mathlib.Data.List.Forall2

/-!
# Templates without gap or overlap

A template with its substitutions in order is cut into segments and substitutions that take turns,
begin and end with a segment, and follow one another from the opening delimiter to the closing one.
Segments may be empty, so a segment and what the substitution behind it holds may begin at one
offset. The children of the node take turns all the same: the sort that puts them in order is
stable, and the segments are stored first.
-/

namespace CodeClones.Lowering

open Syntax Concrete Text

/-! ## Turns and tiles -/

/-- The items of two lists in turn, the first list first. -/
def alternate {α : Type} : (firsts seconds : List α) → List α
  | first :: firsts, second :: seconds => first :: second :: alternate firsts seconds
  | firsts, [] => firsts
  | [], seconds => seconds

/-- Each span begins where the one before it ends, from the first offset to the last. -/
def Tiles : (start stop : Nat) → List Span → Prop
  | start, stop, [] => start = stop
  | start, stop, span :: others =>
    span.start = start ∧ span.start ≤ span.stop ∧ Tiles span.stop stop others

/-- The trees stand in order between two offsets, and none of them is empty. -/
structure Spaced (start stop : Nat) (trees : List Tree) : Prop where
  /-- The offsets are in order. -/
  ordered : start ≤ stop
  /-- Each tree ends before the later ones begin. -/
  inOrder : Tree.InOrder trees
  /-- Each tree lies between the offsets and is not empty. -/
  between : ∀ tree ∈ trees, start ≤ tree.start ∧ tree.start < tree.stop ∧ tree.stop ≤ stop

/-- Behind its first tree the others are spaced as before. -/
theorem Spaced.others {start stop : Nat} {tree : Tree} {trees : List Tree}
    (spaced : Spaced start stop (tree :: trees)) : Spaced tree.stop stop trees := by
  obtain ⟨before, inOrder⟩ := List.pairwise_cons.mp spaced.inOrder
  refine ⟨(spaced.between tree List.mem_cons_self).2.2, inOrder, fun later member => ?_⟩
  have between := spaced.between later (List.mem_cons_of_mem _ member)
  exact ⟨before later member, between.2⟩

/-! ## Segments -/

/-- Whether a segment is marked as the last one; other nodes have no such mark. -/
def isTail? : Node → Option Bool
  | .mk _ .templateSegment (.attribute tail _) => some tail
  | _ => none

section

variable {source : String} {cursor stop : Nat} {trees : List Tree}

/-- A segment covers what is between its offsets. -/
theorem span_segment (ordered : cursor ≤ stop) (tail : Bool) :
    (segment source cursor stop tail).span = ⟨cursor, stop⟩ := by
  change Span.mk cursor (max stop cursor) = _
  rw [Nat.max_eq_left ordered]

/-- There is one segment more than there are substitutions. -/
theorem length_segments :
    (segments source cursor stop trees).length = trees.length + 1 := by
  induction trees generalizing cursor with
  | nil => rfl
  | cons tree others ih => rw [segments, List.length_cons, ih, List.length_cons]

/-- The last segment is marked as the last one, and no other is. -/
theorem isTail?_segments :
    (segments source cursor stop trees).map isTail? =
      List.replicate trees.length (some false) ++ [some true] := by
  induction trees generalizing cursor with
  | nil => rfl
  | cons tree others ih =>
    rw [segments, List.map_cons, ih, List.length_cons, List.replicate_succ, List.cons_append]
    rfl

/-- The spans of the segments and of the trees between them, in turn. -/
def pieceSpans (source : String) (cursor stop : Nat) (trees : List Tree) : List Span :=
  alternate ((segments source cursor stop trees).map Node.span) (trees.map Tree.span)

/-- Without substitutions the only piece is one segment. -/
theorem pieceSpans_nil (ordered : cursor ≤ stop) :
    pieceSpans source cursor stop [] = [⟨cursor, stop⟩] := by
  simp only [pieceSpans, segments, List.map_cons, List.map_nil, span_segment ordered, alternate]

/-- The first pieces are the segment before the first substitution and the substitution. -/
theorem pieceSpans_cons {tree : Tree} (spaced : Spaced cursor stop (tree :: trees)) :
    pieceSpans source cursor stop (tree :: trees) =
      ⟨cursor, tree.start⟩ :: tree.span :: pieceSpans source tree.stop stop trees := by
  have ordered := (spaced.between tree List.mem_cons_self).1
  simp only [pieceSpans, segments, List.map_cons, span_segment ordered, alternate]

/-- The segments and the trees between them leave no gap and do not overlap. -/
theorem tiles_pieceSpans (spaced : Spaced cursor stop trees) :
    Tiles cursor stop (pieceSpans source cursor stop trees) := by
  induction trees generalizing cursor with
  | nil =>
    rw [pieceSpans_nil spaced.ordered]
    exact ⟨rfl, spaced.ordered, rfl⟩
  | cons tree others ih =>
    obtain ⟨before, nonempty, -⟩ := spaced.between tree List.mem_cons_self
    rw [pieceSpans_cons spaced]
    exact ⟨rfl, before, rfl, Nat.le_of_lt nonempty, ih spaced.others⟩

/-- The text of a span. -/
def spanText? (source : String) (span : Span) : Option String :=
  slice? source span.start span.stop

/-- The texts of the segments and of the trees between them make up the text around them. -/
theorem exists_texts_pieceSpans (spaced : Spaced cursor stop trees)
    (first : isBoundary source cursor = true) (last : isBoundary source stop = true)
    (covered : ∀ tree ∈ trees, (spanText? source tree.span).isSome = true) :
    ∃ texts, (pieceSpans source cursor stop trees).map (spanText? source) = texts.map some ∧
      slice? source cursor stop = some (String.join texts) := by
  induction trees generalizing cursor with
  | nil =>
    obtain ⟨text, sliced⟩ := exists_slice? spaced.ordered first last
    refine ⟨[text], ?_, ?_⟩
    · rw [pieceSpans_nil spaced.ordered, List.map_singleton, List.map_singleton, spanText?, sliced]
    · rw [sliced, String.join_cons, String.join_nil, String.append_empty]
  | cons tree others ih =>
    obtain ⟨before, -, -⟩ := spaced.between tree List.mem_cons_self
    obtain ⟨inner, sliced⟩ := Option.isSome_iff_exists.mp (covered tree List.mem_cons_self)
    obtain ⟨opens, closes⟩ := isBoundary_of_slice? sliced
    obtain ⟨text, leading⟩ := exists_slice? before first opens
    obtain ⟨texts, pieces, rest⟩ := ih spaced.others closes
      fun later member => covered later (List.mem_cons_of_mem _ member)
    refine ⟨text :: inner :: texts, ?_, ?_⟩
    · rw [pieceSpans_cons spaced, List.map_cons, List.map_cons, pieces, sliced, spanText?, leading]
      rfl
    · rw [String.join_cons, String.join_cons]
      exact slice?_append leading (slice?_append sliced rest)

end

/-! ## Children in turn -/

/-- A sort puts a first item behind those that it is not to precede and before all others. -/
theorem mergeSort_cons_eq {α : Type} {precedes : α → α → Bool}
    (trans : ∀ first second third, precedes first second = true → precedes second third = true →
      precedes first third = true)
    (total : ∀ first second, (precedes first second || precedes second first) = true)
    {item : α} {items front back : List α} (sorted : items.mergeSort precedes = front ++ back)
    (before : ∀ other ∈ front, precedes item other = false)
    (behind : ∀ other ∈ back, precedes item other = true) :
    (item :: items).mergeSort precedes = front ++ item :: back := by
  have fronts : ∀ front back : List α, (∀ other ∈ front, precedes item other = false) →
      (∀ other ∈ back, precedes item other = true) →
      (front ++ back).takeWhile (fun other => !precedes item other) = front := by
    intro front back before behind
    have stops : back.takeWhile (fun other => !precedes item other) = [] := by
      cases back with
      | nil => rfl
      | cons other others => simp [behind other List.mem_cons_self]
    rw [List.takeWhile_append_of_pos (by simpa using before), stops, List.append_nil]
  obtain ⟨first, last, whole, rest, strict⟩ := List.mergeSort_cons trans total item items
  have ascending := List.pairwise_mergeSort trans total (item :: items)
  rw [whole, List.pairwise_append, List.pairwise_cons] at ascending
  rw [sorted] at rest
  have same : front = first := by
    rw [← fronts front back before behind, rest]
    exact fronts first last (by simpa using strict) ascending.2.1.1
  rw [whole, ← same]
  rw [← same, List.append_cancel_left_eq] at rest
  rw [rest]

section

variable {source : String} {cursor stop : Nat} {trees : List Tree} {holes earlier : List Node}

/-- A node begins inside a tree, before its end. -/
def BeginsIn (tree : Tree) (node : Node) : Prop :=
  tree.start ≤ node.span.start ∧ node.span.start < tree.stop

/-- Sorted by where they begin, segments and what the trees between them hold take turns behind
nodes that begin before all of them. -/
theorem mergeSort_segments (spaced : Spaced cursor stop trees)
    (held : List.Forall₂ BeginsIn trees holes)
    (ascending : earlier.Pairwise fun left right => left.span.start ≤ right.span.start)
    (before : ∀ node ∈ earlier, node.span.start < cursor) :
    (segments source cursor stop trees ++ (earlier ++ holes)).mergeSort
        (fun left right => left.span.start ≤ right.span.start) =
      earlier ++ alternate (segments source cursor stop trees) holes := by
  let precedes : Node → Node → Bool := fun left right => left.span.start ≤ right.span.start
  have later : ∀ {cursor stop : Nat} {tail : Bool} {earlier : List Node},
      (∀ node ∈ earlier, node.span.start < cursor) →
        ∀ node ∈ earlier, precedes (segment source cursor stop tail) node = false := by
    intro cursor stop tail earlier before node member
    exact decide_eq_false (Nat.not_le.mpr (before node member))
  -- The induction puts one segment after another in front of what is sorted already; the nodes
  -- that are passed over are those of the substitutions before the segment.
  induction held generalizing cursor earlier with
  | nil =>
    have sorted : earlier.mergeSort precedes = earlier ++ [] := by
      rw [List.append_nil]
      exact List.mergeSort_of_pairwise (ascending.imp decide_eq_true)
    rw [List.append_nil]
    exact mergeSort_cons_eq Node.starts_trans Node.starts_total sorted (later before) nofun
  | @cons tree hole others rest begins _ ih =>
    obtain ⟨after, -, -⟩ := spaced.between tree List.mem_cons_self
    have before' : ∀ node ∈ earlier, node.span.start < hole.span.start := fun node member =>
      calc node.span.start < cursor := before node member
        _ ≤ tree.start := after
        _ ≤ hole.span.start := begins.1
    have ascending' : (earlier ++ [hole]).Pairwise
        fun left right => left.span.start ≤ right.span.start := by
      refine List.pairwise_append.mpr ⟨ascending, List.pairwise_singleton _ _, ?_⟩
      intro node member other same
      rw [List.mem_singleton.mp same]
      exact Nat.le_of_lt (before' node member)
    have ended : ∀ node ∈ earlier ++ [hole], node.span.start < tree.stop := by
      intro node member
      rcases List.mem_append.mp member with member | same
      · exact Nat.lt_trans (before' node member) begins.2
      · rw [List.mem_singleton.mp same]
        exact begins.2
    have sorted := ih spaced.others ascending' ended
    have all := List.pairwise_mergeSort Node.starts_trans Node.starts_total
      (segments source tree.stop stop others ++ (earlier ++ [hole] ++ rest))
    rw [sorted] at all
    simp only [List.append_assoc, List.singleton_append] at sorted all
    have behind : ∀ node ∈ hole :: alternate (segments source tree.stop stop others) rest,
        precedes (segment source cursor tree.start false) node = true := by
      have first : precedes (segment source cursor tree.start false) hole = true :=
        decide_eq_true (Nat.le_trans after begins.1)
      obtain ⟨least, -⟩ := List.pairwise_cons.mp (List.pairwise_append.mp all).2.1
      exact List.forall_mem_cons.mpr ⟨first, fun node member =>
        Node.starts_trans _ _ _ first (least node member)⟩
    exact mergeSort_cons_eq Node.starts_trans Node.starts_total sorted (later before) behind

end

/-! ## Templates -/

/-- The two forms of templates. -/
inductive TemplateForm where
  /-- A template that gives a text. -/
  | ofText
  /-- A template that gives a type. -/
  | ofTypes

namespace TemplateForm

/-- The grammar's name for a template. -/
def treeKind : TemplateForm → String
  | ofText => "template_string"
  | ofTypes => "template_literal_type"

/-- The grammar's name for a substitution of a template. -/
def holder : TemplateForm → String
  | ofText => "template_substitution"
  | ofTypes => "template_type"

/-- What the node of a template is. -/
def nodeKind : TemplateForm → Kind
  | ofText => .templateLiteral
  | ofTypes => .templateLiteralType

end TemplateForm

/-- The tree is a template whose substitutions stand in order between its delimiters, are not
empty, and hold something that is not empty, through whatever wrappers it is reached. -/
structure IsTemplate (form : TemplateForm) (tree : Tree) : Prop where
  /-- The grammar names it so. -/
  kind : tree.kind = form.treeKind
  /-- There is room for two delimiters. -/
  delimited : tree.start + 2 ≤ tree.stop
  /-- Each substitution ends before the later ones begin. -/
  inOrder : Tree.InOrder (substitutions form.holder tree)
  /-- The substitutions are not empty and lie strictly between the delimiters. -/
  between : ∀ part ∈ substitutions form.holder tree,
    tree.start < part.start ∧ part.start < part.stop ∧ part.stop < tree.stop
  /-- What a substitution holds is not empty and lies in it. -/
  filled : ∀ part ∈ substitutions form.holder tree, ∃ inner, part.firstPart? = some inner ∧
    ∀ place, StandsIn inner place →
      part.start ≤ place.start ∧ place.start < place.stop ∧ place.stop ≤ part.stop

/-- The nodes are the segments of a template and what its substitutions hold: in turn, without gap
or overlap, from one delimiter to the other. -/
structure SplitInto (source : String) (lowering : Tree → Node) (tree : Tree) (parts : List Tree)
    (segments holes : List Node) : Prop where
  /-- There is one more segment than substitutions. -/
  length : segments.length = parts.length + 1
  /-- The last segment, and no other, is marked as such. -/
  tails : segments.map isTail? = List.replicate parts.length (some false) ++ [some true]
  /-- Each substitution gives the node of what it holds. -/
  holds : List.Forall₂ (fun part hole => ∃ inner, part.firstPart? = some inner ∧
    hole = lowering inner) parts holes
  /-- Segments and substitutions in turn cover what is between the delimiters. -/
  tiles : Tiles (tree.start + 1) (tree.stop - 1)
    (alternate (segments.map Node.span) (parts.map Tree.span))
  /-- Their texts in turn make up the text between the delimiters. -/
  texts : ∀ interior, slice? source (tree.start + 1) (tree.stop - 1) = some interior →
    (∀ part ∈ parts, (spanText? source part.span).isSome = true) →
    ∃ pieces, (alternate (segments.map Node.span) (parts.map Tree.span)).map (spanText? source) =
        pieces.map some ∧ String.join pieces = interior

variable {form : TemplateForm} {tree : Tree}

namespace IsTemplate

/-- The substitutions of a template are spaced between its delimiters. -/
theorem spaced (template : IsTemplate form tree) :
    Spaced (tree.start + 1) (tree.stop - 1) (substitutions form.holder tree) := by
  have delimited := template.delimited
  refine ⟨by omega, template.inOrder, fun part member => ?_⟩
  have between := template.between part member
  omega

/-- The segments lie between the delimiters, which are one byte each. -/
theorem segments_eq (template : IsTemplate form tree) (source : String) :
    templateSegments source form.holder tree =
      segments source (tree.start + 1) (tree.stop - 1) (substitutions form.holder tree) := by
  have room : tree.start + 1 ≤ tree.stop - 1 := template.spaced.ordered
  rw [templateSegments, Nat.max_eq_left room]

/-- Each substitution gives the node of what it holds, which begins in it. -/
theorem forall₂_templateHoles (template : IsTemplate form tree) (source : String)
    (levels : Nat) :
    List.Forall₂ (fun part hole =>
        (∃ inner, part.firstPart? = some inner ∧ hole = (lower source levels inner).value) ∧
          BeginsIn part hole)
      (substitutions form.holder tree)
      (Context.templateHoles ⟨source, lower source levels⟩ form.holder tree).value := by
  rw [Context.templateHoles, Lowered.all, List.map_map, List.forall₂_map_right_iff,
    List.forall₂_same]
  intro part member
  obtain ⟨inner, found, inside⟩ := template.filled part member
  have held : (Context.firstRequired ⟨source, lower source levels⟩ part).value =
      (lower source levels inner).value := by
    simp only [Context.firstRequired, found]
  obtain ⟨place, stands, span⟩ := exists_standsIn_span source levels inner
  obtain ⟨starts, nonempty, ends⟩ := inside place stands
  have begins : BeginsIn part (lower source levels inner).value := by
    rw [BeginsIn, span]
    exact ⟨starts, Nat.lt_of_lt_of_le nonempty ends⟩
  rw [Function.comp_apply, held]
  exact ⟨⟨inner, found, rfl⟩, begins⟩

/-- A template is lowered to a node of its segments and of what its substitutions hold. -/
theorem kind_and_stored (template : IsTemplate form tree) (source : String) (levels : Nat) :
    (lower source (levels + 1) tree).value.kind = form.nodeKind ∧
      (lower source (levels + 1) tree).value.stored =
        templateSegments source form.holder tree ++
          (Context.templateHoles ⟨source, lower source levels⟩ form.holder tree).value := by
  have kind := template.kind
  cases form with
  | ofText | ofTypes =>
    rw [lower, applyRule, kind]
    refine ⟨rfl, ?_⟩
    rw [← List.append_nil (Lowered.value _)]
    rfl

end IsTemplate

/-- A template is split into segments and substitutions that take turns and cover what is between
its delimiters, and the children of its node are the segments and what the substitutions hold,
again in turn. -/
theorem lower_template (source : String) (levels : Nat) (template : IsTemplate form tree) :
    SplitInto source (fun inner => (lower source levels inner).value) tree
      (substitutions form.holder tree) (templateSegments source form.holder tree)
      (Context.templateHoles ⟨source, lower source levels⟩ form.holder tree).value ∧
    (lower source (levels + 1) tree).value.kind = form.nodeKind ∧
    (lower source (levels + 1) tree).value.children =
      alternate (templateSegments source form.holder tree)
        (Context.templateHoles ⟨source, lower source levels⟩ form.holder tree).value := by
  have spaced := template.spaced
  obtain ⟨kind, stored⟩ := template.kind_and_stored source levels
  have holes := template.forall₂_templateHoles source levels
  rw [template.segments_eq source] at *
  refine ⟨⟨length_segments, isTail?_segments, ?_, tiles_pieceSpans spaced, ?_⟩, kind, ?_⟩
  · exact holes.imp fun _ _ both => both.1
  · intro interior sliced covered
    obtain ⟨first, last⟩ := isBoundary_of_slice? sliced
    obtain ⟨pieces, texts, joined⟩ := exists_texts_pieceSpans spaced first last covered
    refine ⟨pieces, texts, ?_⟩
    rw [sliced] at joined
    exact (Option.some.inj joined).symm
  · have interleaves : (lower source (levels + 1) tree).value.kind.interleaves = true := by
      rw [kind]
      cases form <;> rfl
    rw [Node.children_eq_mergeSort interleaves, stored]
    exact mergeSort_segments spaced (holes.imp fun _ _ both => both.2) .nil nofun

/-- A substitution that holds a name of one letter, by where it begins. -/
def letterAt (id start : Nat) : Tree :=
  .node ⟨id, "template_substitution", ⟨start, start + 4⟩, true, none, false, false, false, []⟩
    [.node ⟨id + 1, "$\x7b", ⟨start, start + 2⟩, false, none, false, false, false, []⟩ [],
      .node ⟨id + 2, "identifier", ⟨start + 2, start + 3⟩, true, none, false, false, false, []⟩ [],
      .node ⟨id + 3, "\x7d", ⟨start + 3, start + 4⟩, false, none, false, false, false, []⟩ []]

/-- A template of two substitutions, with no text before or between them. -/
def letterTemplate : Tree :=
  .node ⟨0, "template_string", ⟨0, 11⟩, true, none, false, false, false, []⟩
    [.node ⟨1, "\x60", ⟨0, 1⟩, false, none, false, false, false, []⟩ [], letterAt 2 1, letterAt 6 5,
      .node ⟨10, "string_fragment", ⟨9, 10⟩, true, none, false, false, false, []⟩ [],
      .node ⟨11, "\x60", ⟨10, 11⟩, false, none, false, false, false, []⟩ []]

/-- The text of this template. -/
def letterSource : String := "\x60$\x7ba\x7d$\x7bb\x7dc\x60"

/-- The empty segments of a template are listed before what the substitutions behind them hold. -/
theorem lower_template_letterTemplate :
    IsTemplate .ofText letterTemplate ∧
    (lower letterSource 2 letterTemplate).value.children.map
        (fun child => (child.kind, child.span.start, child.span.stop)) =
      [(.templateSegment, 1, 1), (.identifier, 3, 4), (.templateSegment, 5, 5),
        (.identifier, 7, 8), (.templateSegment, 9, 10)] ∧
    ∃ pieces, (pieceSpans letterSource 1 10 [letterAt 2 1, letterAt 6 5]).map
        (spanText? letterSource) = pieces.map some ∧
      String.join pieces = "$\x7ba\x7d$\x7bb\x7dc" := by
  have holds : ∀ id start, ∃ inner, (letterAt id start).firstPart? = some inner ∧
      ∀ place, StandsIn inner place → (letterAt id start).start ≤ place.start ∧
        place.start < place.stop ∧ place.stop ≤ (letterAt id start).stop := by
    intro id start
    refine ⟨_, rfl, fun place stands => ?_⟩
    rw [stands.eq_of_wrapped? rfl]
    change start ≤ start + 2 ∧ start + 2 < start + 3 ∧ start + 3 ≤ start + 4
    omega
  have listed : substitutions TemplateForm.ofText.holder letterTemplate =
      [letterAt 2 1, letterAt 6 5] := rfl
  have template : IsTemplate .ofText letterTemplate := by
    refine ⟨rfl, by decide, by decide, by decide, ?_⟩
    rw [listed]
    exact List.forall_mem_cons.mpr ⟨holds 2 1, List.forall_mem_singleton.mpr (holds 6 5)⟩
  obtain ⟨split, -, children⟩ := lower_template letterSource 1 template
  refine ⟨template, ?_, split.texts _ (by decide +kernel) ?_⟩
  · rw [children]
    decide +kernel
  · rw [listed]
    decide +kernel

end CodeClones.Lowering
