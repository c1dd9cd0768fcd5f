import CodeClones.Lowering.Rules
import Mathlib.Data.List.Forall2

/-!
# Trees that lowering cannot tell apart

Lowering looks at a tree through few functions: its kind and range, its named children, the nodes
that answer for its fields, some tokens among its children, and whether two of these nodes are
the same. A relation between trees that all of these respect is a resemblance. What lowering
reads off a tree without lowering anything below is then the same for related trees, or made up
of related trees.
-/

namespace CodeClones.Lowering

open Syntax Concrete

/-! ## Related lists and options -/

section Related

variable {α : Type} {related : α → α → Prop} {left right : List α}

/-- The first entries of related lists are related. -/
theorem optionRel_head? (lists : List.Forall₂ related left right) :
    Option.Rel related left.head? right.head? := by
  cases lists with
  | nil => exact .none
  | cons same _ => exact .some same

/-- The last entries of related lists are related. -/
theorem optionRel_getLast? (lists : List.Forall₂ related left right) :
    Option.Rel related left.getLast? right.getLast? := by
  have reversed := optionRel_head? (List.forall₂_reverse_iff.mpr lists)
  rwa [List.head?_reverse, List.head?_reverse] at reversed

/-- A test that holds of related entries alike finds related ones. -/
theorem optionRel_find? {test other : α → Bool} (lists : List.Forall₂ related left right)
    (equal : ∀ first second, related first second → (test first = true ↔ other second = true)) :
    Option.Rel related (left.find? test) (right.find? other) := by
  rw [← List.head?_filter, ← List.head?_filter]
  exact optionRel_head? (List.rel_filter equal lists)

/-- Related options are related lists of one entry at most. -/
theorem forall₂_toList {found other : Option α} (options : Option.Rel related found other) :
    List.Forall₂ related found.toList other.toList := by
  cases options with
  | none => exact .nil
  | some same => exact .cons same .nil

/-- The first of two options that is there is related to the first of two others. -/
theorem optionRel_or {found other found' other' : Option α}
    (options : Option.Rel related found other) (options' : Option.Rel related found' other') :
    Option.Rel related (found.or found') (other.or other') := by
  cases options with
  | none => simpa using options'
  | some same => exact .some same

/-- A test that holds of related entries alike keeps both or neither. -/
theorem optionRel_filter {test other : α → Bool} {found found' : Option α}
    (options : Option.Rel related found found')
    (equal : ∀ first second, related first second → test first = other second) :
    Option.Rel related (found.filter test) (found'.filter other) := by
  cases options with
  | none => exact .none
  | @some first second same =>
    have verdict := equal first second same
    cases kept : test first with
    | true =>
      rw [Option.filter_some_pos kept, Option.filter_some_pos (verdict.symm.trans kept)]
      exact .some same
    | false =>
      rw [Option.filter_some_neg kept, Option.filter_some_neg (verdict.symm.trans kept)]
      exact .none

/-- Two related options are both absent, or both present and related. -/
theorem optionRel_cases {found other : Option α} (options : Option.Rel related found other) :
    (found = none ∧ other = none) ∨
      ∃ first second, found = some first ∧ other = some second ∧ related first second := by
  cases options with
  | none => exact .inl ⟨rfl, rfl⟩
  | some same => exact .inr ⟨_, _, rfl, rfl, same⟩

end Related

/-! ## Equations without proofs in them -/

/-- A dotted name by its sides, without the proofs that these are smaller. -/
theorem Context.qualifiedName_eq (context : Context) (tree : Tree) :
    context.qualifiedName tree =
      if tree.kind = "nested_type_identifier" ∨ tree.kind = "nested_identifier" ∨
          tree.kind = "member_expression" then
        match sides? tree ["module", "object"] ["name", "property"] with
        | some (left, right) => do
          let left ← context.qualifiedName left
          let right ← context.name right
          pure (place tree .qualifiedName (.child left <| .child right .done))
        | none => pure (unmodelled tree)
      else context.name tree := by
  rw [Context.qualifiedName]
  split
  · split
    · rename_i found
      rw [found]
    · rename_i found
      rw [found]
  · rfl

/-- A name of markup by its sides, without the proofs that these are smaller. -/
theorem Context.markupName_eq (context : Context) (tree : Tree) :
    context.markupName tree =
      if tree.kind = "member_expression" ∨ tree.kind = "nested_identifier" then
        match sides? tree ["object"] ["property"] with
        | some (object, property) => do
          let object ← context.markupName object
          let property ← context.markupName property
          pure (place tree .jsxMemberName (.child object <| .child property .done))
        | none => pure (unmodelled tree)
      else if tree.kind = "jsx_namespace_name" then
        match tree.parts with
        | [space, name] => do
          let space ← context.name space
          let name ← context.name name
          pure (place tree .jsxNamespacedName (.child space <| .child name .done))
        | _ => pure (unmodelled tree)
      else context.name tree := by
  rw [Context.markupName]
  split
  · split
    · rename_i found
      rw [found]
    · rename_i found
      rw [found]
  · rfl

/-! ## Resemblances -/

/-- A relation between trees that everything that lowering looks at respects. -/
structure Resemblance (related : Tree → Tree → Prop) : Prop where
  /-- Related trees are of one kind. -/
  kind : ∀ {tree copy}, related tree copy → copy.kind = tree.kind
  /-- Related trees cover the same range. -/
  span : ∀ {tree copy}, related tree copy → copy.span = tree.span
  /-- The grammar names both or none of related trees. -/
  named : ∀ {tree copy}, related tree copy → copy.named = tree.named
  /-- Trees are the same node if the trees that they are related to are. -/
  id : ∀ {tree copy tree' copy'}, related tree copy → related tree' copy' →
    (copy.id = copy'.id ↔ tree.id = tree'.id)
  /-- The named children of related trees are related one by one. -/
  parts : ∀ {tree copy}, related tree copy → List.Forall₂ related tree.parts copy.parts
  /-- So are those that fill a field. -/
  partsOf : ∀ {tree copy}, related tree copy → ∀ field,
    List.Forall₂ related (tree.partsOf field) (copy.partsOf field)
  /-- Related trees answer for a field by related trees. -/
  child? : ∀ {tree copy}, related tree copy → ∀ field,
    Option.Rel related (tree.child? field) (copy.child? field)
  /-- Related trees have the same tokens. -/
  hasToken : ∀ {tree copy}, related tree copy → ∀ token, token ≠ "comment" →
    copy.hasToken token = tree.hasToken token
  /-- Related trees have the same tokens before a limit. -/
  hasTokenBefore : ∀ {tree copy}, related tree copy → ∀ token limit, token ≠ "comment" →
    copy.hasTokenBefore token limit = tree.hasTokenBefore token limit
  /-- Both or none of related trees stop at a missing value. -/
  isOptionalChain : ∀ {tree copy}, related tree copy → isOptionalChain copy = isOptionalChain tree

namespace Resemblance

variable {related : Tree → Tree → Prop} (law : Resemblance related) {tree copy : Tree}
  (same : related tree copy)

include law same

/-- Related trees begin at the same offset. -/
theorem start : copy.start = tree.start := by
  rw [Tree.start, law.span same, Tree.start]

/-- Related trees end at the same offset. -/
theorem stop : copy.stop = tree.stop := by
  rw [Tree.stop, law.span same, Tree.stop]

/-- Nodes with the same fields stand at the same place. -/
theorem place (kind : Kind) (slots : Slots kind.layout) :
    place copy kind slots = place tree kind slots := by
  rw [Lowering.place, Lowering.place, law.span same]

/-- Related trees become the same unmodelled node. -/
theorem unmodelled : unmodelled copy = unmodelled tree := by
  rw [Lowering.unmodelled, Lowering.unmodelled, unmodelledAs, unmodelledAs, law.place same,
    law.kind same]

/-- Related trees lack a field alike. -/
theorem lacking (field : String) : lacking copy field = lacking tree field := by
  rw [Lowering.lacking, Lowering.lacking, unmodelledAs, unmodelledAs, law.place same,
    law.kind same]

/-- Related trees become the same plain name. -/
theorem plainIdentifier (name : String) : plainIdentifier copy name = plainIdentifier tree name :=
  law.place same _ _

/-- An optional chain is marked in both trees or in neither. -/
theorem chained (node : Node) : chained copy node = chained tree node := by
  rw [Lowering.chained, Lowering.chained, law.isOptionalChain same, law.place same]

/-- Equal texts of numbers become the same node. -/
theorem numberNode (text : String) : numberNode copy text = numberNode tree text := by
  simp only [Lowering.numberNode, law.place same, law.unmodelled same]

/-- The first named children are related. -/
theorem firstPart? : Option.Rel related tree.firstPart? copy.firstPart? :=
  optionRel_head? (law.parts same)

/-- The first named children of a kind are related. -/
theorem partOfKind? (kind : String) :
    Option.Rel related (tree.partOfKind? kind) (copy.partOfKind? kind) := by
  refine optionRel_find? (law.parts same) fun first second equal => ?_
  rw [law.kind equal]

/-- The named children of a kind are related one by one. -/
theorem partsOfKind (kind : String) :
    List.Forall₂ related (tree.parts.filter fun child => child.kind == kind)
      (copy.parts.filter fun child => child.kind == kind) := by
  refine List.rel_filter (fun first second equal => ?_) (law.parts same)
  dsimp only
  rw [law.kind equal]

/-- The named answers for a field are related. -/
theorem namedChild? (field : String) :
    Option.Rel related ((tree.child? field).filter (·.named))
      ((copy.child? field).filter (·.named)) := by
  refine optionRel_filter (law.child? same field) fun first second equal => ?_
  exact (law.named equal).symm

/-! ### What is read off a tree -/

/-- Tokens of the head are looked for up to the same offset. -/
theorem bodyStart : bodyStart copy = bodyStart tree := by
  unfold Lowering.bodyStart
  rcases optionRel_cases (law.child? same "body") with
    ⟨none, none'⟩ | ⟨body, body', found, found', equal⟩
  · rw [none, none', law.stop same]
  · rw [found, found']
    exact law.start equal

/-- Both methods are getters, or setters, or neither. -/
theorem flavourOf : flavourOf copy = flavourOf tree := by
  simp only [Lowering.flavourOf, law.bodyStart same]
  rw [law.hasTokenBefore same "get" _ (by decide), law.hasTokenBefore same "set" _ (by decide)]

/-- The answers for the first field that has one are related. -/
theorem findSome?_child? (fields : List String) :
    Option.Rel related (fields.findSome? tree.child?) (fields.findSome? copy.child?) := by
  induction fields with
  | nil => exact .none
  | cons field others ih =>
    rcases optionRel_cases (law.child? same field) with ⟨none, none'⟩ | ⟨_, _, found, found', equal⟩
    · simp only [List.findSome?_cons, none, none']
      exact ih
    · simp only [List.findSome?_cons, found, found']
      exact .some equal

/-- The two sides of related dotted names are both missing, or related. -/
theorem sides?_cases (leftFields rightFields : List String) :
    (sides? tree leftFields rightFields = none ∧ sides? copy leftFields rightFields = none) ∨
      ∃ left right left' right', sides? tree leftFields rightFields = some (left, right) ∧
        sides? copy leftFields rightFields = some (left', right') ∧
        related left left' ∧ related right right' := by
  have lefts := optionRel_or (law.findSome?_child? same leftFields)
    (optionRel_head? (law.parts same))
  have rights := optionRel_or (law.findSome?_child? same rightFields)
    (optionRel_getLast? (law.parts same))
  simp only [sides?]
  rcases optionRel_cases lefts with ⟨none, none'⟩ | ⟨left, left', found, found', equal⟩
  · rw [none, none']
    exact .inl ⟨rfl, rfl⟩
  · rw [found, found']
    rcases optionRel_cases rights with ⟨none, none'⟩ | ⟨right, right', last, last', equal'⟩
    · rw [none, none']
      exact .inl ⟨rfl, rfl⟩
    · rw [last, last']
      by_cases one : left.id = right.id
      · have one' := (law.id equal equal').mpr one
        dsimp only
        rw [if_pos one, if_pos one']
        exact .inl ⟨rfl, rfl⟩
      · have two := fun one' => one ((law.id equal equal').mp one')
        dsimp only
        rw [if_neg one, if_neg two]
        exact .inr ⟨left, right, left', right', rfl, rfl, equal, equal'⟩

omit same in
/-- The operands of related chains are related. -/
theorem operands (kind : String) {tree copy : Tree} (same : related tree copy) :
    List.Forall₂ related (operands kind tree) (operands kind copy) := by
  induction size : sizeOf tree using Nat.strongRecOn generalizing tree copy with
  | ind size ih =>
    have below : ∀ part ∈ tree.parts, sizeOf part < sizeOf tree :=
      fun _ => Tree.sizeOf_lt_of_mem_parts
    have parts := (List.forall₂_and_left _ _).mpr ⟨below, law.parts same⟩
    rw [operands_eq, operands_eq]
    refine List.rel_flatMap parts fun part part' ⟨smaller, equal⟩ => ?_
    rw [spread, spread, law.kind equal]
    by_cases nested : part.kind = kind
    · rw [if_pos nested, if_pos nested]
      exact ih _ (size ▸ smaller) equal rfl
    · rw [if_neg nested, if_neg nested]
      exact .cons equal .nil

/-- What related chains are unrolled to is related. -/
theorem unroll (kind : String) :
    List.Forall₂ related (unroll kind [tree]) (unroll kind [copy]) := by
  rw [unroll_singleton, unroll_singleton, spread, spread, law.kind same]
  by_cases chain : tree.kind = kind
  · rw [if_pos chain, if_pos chain]
    exact law.operands kind same
  · rw [if_neg chain, if_neg chain]
    exact .cons same .nil

/-- The substitutions of two templates are related one by one. -/
theorem substitutions (kind : String) :
    List.Forall₂ related (substitutions kind tree) (substitutions kind copy) :=
  law.partsOfKind same kind

/-- The text between the substitutions is cut at the same offsets. -/
theorem templateSegments (source kind : String) :
    templateSegments source kind copy = templateSegments source kind tree := by
  have segments : ∀ {trees copies : List Tree}, List.Forall₂ related trees copies →
      ∀ cursor stop, segments source cursor stop copies = segments source cursor stop trees := by
    intro trees copies lists
    induction lists with
    | nil => exact fun _ _ => rfl
    | cons equal _ ih =>
      intro cursor stop
      rw [Lowering.segments, Lowering.segments, law.start equal, law.stop equal, ih]
  rw [Lowering.templateSegments, Lowering.templateSegments, law.start same, law.stop same]
  exact segments (law.substitutions same kind) _ _

/-- The names in two lists of imports or exports are related. -/
theorem listedNames : List.Forall₂ related (listedNames tree) (listedNames copy) := by
  refine List.rel_filterMap ?_ (law.parts same)
  intro entry entry' equal
  exact optionRel_or (law.child? equal "alias") (law.child? equal "name")

/-- The names of related imports are related. -/
theorem importedNames : List.Forall₂ related (importedNames tree) (importedNames copy) := by
  unfold Lowering.importedNames
  rcases optionRel_cases (law.partOfKind? same "import_clause") with
    ⟨none, none'⟩ | ⟨clause, clause', found, found', equal⟩
  · rw [none, none']
    exact .nil
  · rw [found, found']
    refine List.rel_flatMap (law.parts equal) fun part part' equal' => ?_
    rw [law.kind equal']
    split
    · exact .cons equal' .nil
    · exact forall₂_toList (law.firstPart? equal')
    · exact law.listedNames equal'
    · exact .nil

/-- The names of related exports are related. -/
theorem exportedNames : List.Forall₂ related (exportedNames tree) (exportedNames copy) := by
  refine List.rel_flatMap (law.parts same) fun part part' equal => ?_
  rw [law.kind equal]
  split
  · exact law.listedNames equal
  · exact forall₂_toList (law.firstPart? equal)
  · exact .nil

/-- The expressions that related exports hold are related. -/
theorem exportedExpression? :
    Option.Rel related (exportedExpression? tree) (exportedExpression? copy) := by
  refine optionRel_find? (law.parts same) fun first second equal => ?_
  rw [law.kind equal]

end Resemblance

end CodeClones.Lowering
