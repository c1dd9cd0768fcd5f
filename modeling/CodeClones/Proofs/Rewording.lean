import CodeClones.Proofs.Positions
import Mathlib.Logic.Relation

/-!
# Changes that a comparison does not see

A clone may stand elsewhere, be laid out differently and use other names. `Change` lists what may
be changed at one place of a tree: the span of a node, the keyword of a variable declaration, the
label of a statement, whitespace at the ends of a text, and the name of an identifier where names
are not checked. The change may be made at the node itself or at any depth below it; going down
through a position at which names are checked turns the checking of names on. No number of such
changes alters what a node is alike to.
-/

namespace CodeClones.Text

/-- Two texts differ at most in whitespace at their ends. -/
def SameWithin (left right : String) : Prop :=
  ∃ core front back front' back' : String,
    left = front ++ core ++ back ∧ right = front' ++ core ++ back' ∧
      ∀ blank ∈ [front, back, front', back'], ∀ character ∈ blank.toList, isSpace character = true

/-- Whitespace in front of characters goes when their front is trimmed. -/
theorem trimStart_append_of_blank {front : List Char}
    (blank : ∀ character ∈ front, isSpace character = true) (rest : List Char) :
    trimStart (front ++ rest) = trimStart rest :=
  List.dropWhile_append_of_pos blank

/-- Whitespace behind characters goes when their end is trimmed. -/
theorem trimEnd_append_of_blank {back : List Char}
    (blank : ∀ character ∈ back, isSpace character = true) (rest : List Char) :
    trimEnd (rest ++ back) = trimEnd rest := by
  unfold trimEnd
  rw [List.reverse_append, trimStart_append_of_blank]
  intro character member
  exact blank character (List.mem_reverse.mp member)

/-- Whitespace around characters goes when both ends are trimmed. -/
theorem trimChars_append_of_blank {front back : List Char} (core : List Char)
    (blank : ∀ character ∈ front, isSpace character = true)
    (blank' : ∀ character ∈ back, isSpace character = true) :
    trimChars (front ++ core ++ back) = trimChars core := by
  unfold trimChars
  rw [List.append_assoc, trimStart_append_of_blank blank]
  by_cases nothing : trimStart core = []
  · have gone : trimStart back = [] := by
      rw [← List.append_nil back, trimStart_append_of_blank blank']
      rfl
    rw [nothing, trimStart, List.dropWhile_append, ← trimStart, nothing, ← trimStart, gone]
    rfl
  · have kept : trimStart (core ++ back) = trimStart core ++ back := by
      rw [trimStart, List.dropWhile_append, ← trimStart, if_neg (by simpa using nothing)]
    rw [kept, trimEnd_append_of_blank blank']

/-- Texts that differ at most in whitespace at their ends are equal when trimmed. -/
theorem SameWithin.trim_eq {left right : String} (same : SameWithin left right) :
    trim left = trim right := by
  obtain ⟨core, front, back, front', back', rfl, rfl, blank⟩ := same
  simp only [List.forall_mem_cons] at blank
  obtain ⟨inFront, inBack, inFront', inBack', _⟩ := blank
  simp only [trim, String.toList_append]
  rw [trimChars_append_of_blank _ inFront inBack, trimChars_append_of_blank _ inFront' inBack']

end CodeClones.Text

namespace CodeClones.Syntax

mutual

/-- The second node is the first with one thing changed that a comparison does not see; `names`
says whether names are checked at the node. -/
inductive Change : (names : Bool) → Node → Node → Prop where
  /-- The node stands elsewhere. -/
  | span {names span span' kind slots} :
      Change names (.mk span kind slots) (.mk span' kind slots)
  /-- Variables are declared by another keyword. -/
  | keyword {names span word word' others} :
      Change names (.mk span .variableDeclaration (.attribute word others))
        (.mk span .variableDeclaration (.attribute word' others))
  /-- A `break` has another label, or has one where it had none, or has none where it had one. -/
  | breakLabel {names span label label'} :
      Change names (.mk span .breakStatement (.optionalChild label .done))
        (.mk span .breakStatement (.optionalChild label' .done))
  /-- The same for a `continue`. -/
  | continueLabel {names span label label'} :
      Change names (.mk span .continueStatement (.optionalChild label .done))
        (.mk span .continueStatement (.optionalChild label' .done))
  /-- A statement stands behind another label. -/
  | label {names span label label' others} :
      Change names (.mk span .labeledStatement (.child label others))
        (.mk span .labeledStatement (.child label' others))
  /-- A string has other whitespace at its ends. -/
  | string {names span value value'} (same : Text.SameWithin value value') :
      Change names (.mk span .stringLiteral (.attribute value .done))
        (.mk span .stringLiteral (.attribute value' .done))
  /-- The pattern of a regular expression has other whitespace at its ends. -/
  | pattern {names span pattern pattern' others} (same : Text.SameWithin pattern pattern') :
      Change names (.mk span .regexLiteral (.attribute pattern others))
        (.mk span .regexLiteral (.attribute pattern' others))
  /-- The flags of a regular expression have other whitespace at their ends. -/
  | flags {names span pattern flags flags'} (same : Text.SameWithin flags flags') :
      Change names (.mk span .regexLiteral (.attribute pattern (.attribute flags .done)))
        (.mk span .regexLiteral (.attribute pattern (.attribute flags' .done)))
  /-- Text inside markup has other whitespace at its ends. -/
  | markupText {names span value value'} (same : Text.SameWithin value value') :
      Change names (.mk span .jsxText (.attribute value .done))
        (.mk span .jsxText (.attribute value' .done))
  /-- Where names are not checked, an identifier has another name. -/
  | name {span name name' others} :
      Change false (.mk span .identifier (.attribute name others))
        (.mk span .identifier (.attribute name' others))
  /-- Something in one of the stored nodes is changed. -/
  | inside {names span kind slots slots'} (change : SlotsChange names kind slots slots') :
      Change names (.mk span kind slots) (.mk span kind slots')

/-- The second contents of a node of a kind are the first with one thing changed in one of the
stored nodes. -/
inductive SlotsChange : (names : Bool) → (kind : Kind) → {fields : List Field} →
    Slots fields → Slots fields → Prop where
  /-- The change is made in a child. -/
  | child {names kind label rule node node' fields others}
      (change : Change (checksAt kind label names) node node') :
      SlotsChange names kind (.child node others : Slots (.child label rule :: fields))
        (.child node' others)
  /-- The change is made in an optional child that is there. -/
  | optionalChild {names kind label rule node node' fields others}
      (change : Change (checksAt kind label names) node node') :
      SlotsChange names kind
        (.optionalChild (some node) others : Slots (.optionalChild label rule :: fields))
        (.optionalChild (some node') others)
  /-- The change is made in a list of children, behind those in front. -/
  | children {names kind label rule node node' back fields others} (front : List Node)
      (change : Change (checksAt kind label names) node node') :
      SlotsChange names kind
        (.children (front ++ node :: back) others : Slots (.children label rule :: fields))
        (.children (front ++ node' :: back) others)
  /-- The change is made in an optional list of children that is there. -/
  | optionalChildren {names kind label rule node node' back fields others} (front : List Node)
      (change : Change (checksAt kind label names) node node') :
      SlotsChange names kind
        (.optionalChildren (some (front ++ node :: back)) others :
          Slots (.optionalChildren label rule :: fields))
        (.optionalChildren (some (front ++ node' :: back)) others)
  /-- The change is made behind a child. -/
  | afterChild {names kind label rule node fields others others'}
      (change : SlotsChange names kind others others') :
      SlotsChange names kind (.child node others : Slots (.child label rule :: fields))
        (.child node others')
  /-- The change is made behind an optional child. -/
  | afterOptionalChild {names kind label rule node fields others others'}
      (change : SlotsChange names kind others others') :
      SlotsChange names kind
        (.optionalChild node others : Slots (.optionalChild label rule :: fields))
        (.optionalChild node others')
  /-- The change is made behind a list of children. -/
  | afterChildren {names kind label rule nodes fields others others'}
      (change : SlotsChange names kind others others') :
      SlotsChange names kind (.children nodes others : Slots (.children label rule :: fields))
        (.children nodes others')
  /-- The change is made behind an optional list of children. -/
  | afterOptionalChildren {names kind label rule nodes fields others others'}
      (change : SlotsChange names kind others others') :
      SlotsChange names kind
        (.optionalChildren nodes others : Slots (.optionalChildren label rule :: fields))
        (.optionalChildren nodes others')
  /-- The change is made behind an attribute. -/
  | afterAttribute {names kind label type rule value fields others others'}
      (change : SlotsChange names kind others others') :
      SlotsChange names kind (.attribute value others : Slots (.attribute label type rule :: fields))
        (.attribute value others')

end

/-! ## What a change keeps -/

/-- Nodes of one kind are alike to the same nodes if their contents are related to the same. -/
theorem Node.alike_congr {names : Bool} {span span' : Span} {kind : Kind}
    {slots slots' : Slots kind.layout}
    (same : ∀ contents, slots.Related Alike names contents ↔ slots'.Related Alike names contents)
    (other : Node) :
    Alike names (.mk span kind slots) other ↔ Alike names (.mk span' kind slots') other := by
  obtain ⟨span'', kind', contents⟩ := other
  by_cases equal : kind' = kind
  · subst equal
    rw [Alike, Alike, Node.alike_mk_iff, Node.alike_mk_iff, same contents]
  · constructor
    · intro alike
      exact absurd (Node.kind_eq_of_alike alike) equal
    · intro alike
      exact absurd (Node.kind_eq_of_alike alike) equal

/-- Lists are related to the same lists if they differ only in a member that is related to the
same nodes. -/
theorem ChildRule.listsRelated_congr {rule : ChildRule} {related : Node → Node → Prop}
    {front back : List Node} {node node' : Node}
    (same : ∀ other, related node other ↔ related node' other) (others : List Node) :
    rule.ListsRelated related (front ++ node :: back) others ↔
      rule.ListsRelated related (front ++ node' :: back) others := by
  cases rule with
  | alike | named =>
    simp only [ListsRelated, GroupsRelated, List.length_append, List.length_cons, List.mem_append,
      List.mem_cons, or_imp, forall_and, forall_eq, or_and_right, exists_or, exists_eq_left, same]
  | ordered =>
    simp only [ListsRelated]
    induction front generalizing others with
    | nil => simp only [List.nil_append, List.forall₂_cons_left_iff, same]
    | cons first front ih => simp only [List.cons_append, List.forall₂_cons_left_iff, ih]
  | ignored => exact Iff.rfl

/-- Contents that begin with a text are related to the same contents if only whitespace at the
ends of the text is changed. -/
theorem Slots.related_trimmed_congr {names : Bool} {label : String} {fields : List Field}
    {value value' : String} {others : Slots fields} (same : Text.SameWithin value value')
    (contents : Slots (.attribute label .text .trimmed :: fields)) :
    (Slots.attribute value others).Related Alike names contents ↔
      (Slots.attribute value' others).Related Alike names contents := by
  match contents with
  | .attribute other others' =>
    change (Text.trim value == Text.trim other) = true ∧ _ ↔
      (Text.trim value' == Text.trim other) = true ∧ _
    rw [same.trim_eq]

mutual

/-- A changed node is alike to the same nodes. -/
theorem Change.alike_iff {names : Bool} {node node' : Node} :
    Change names node node' → ∀ other, Alike names node other ↔ Alike names node' other
  | .span => Node.alike_congr fun _ => Iff.rfl
  | .keyword => Node.alike_congr fun | .attribute _ _ => Iff.rfl
  | .breakLabel => Node.alike_congr fun | .optionalChild _ .done => by simp [Slots.Related]
  | .continueLabel => Node.alike_congr fun | .optionalChild _ .done => by simp [Slots.Related]
  | .label => Node.alike_congr fun | .child _ _ => by simp [Slots.Related]
  | .string same => Node.alike_congr (Slots.related_trimmed_congr same)
  | .pattern same => Node.alike_congr (Slots.related_trimmed_congr same)
  | .flags same => Node.alike_congr fun
    | .attribute _ others => and_congr_right fun _ => Slots.related_trimmed_congr same others
  | .markupText same => Node.alike_congr (Slots.related_trimmed_congr same)
  | .name => Node.alike_congr fun | .attribute _ _ => Iff.rfl
  | .inside change => Node.alike_congr (change.related_iff (layout_follows _))

/-- Contents with a changed node are related to the same contents. -/
theorem SlotsChange.related_iff {names : Bool} {kind : Kind} {fields : List Field}
    {slots slots' : Slots fields} :
    SlotsChange names kind slots slots' → (∀ field ∈ fields, field.Follows kind) →
      ∀ contents, slots.Related Alike names contents ↔ slots'.Related Alike names contents
  | .child change, follows, .child _ _ => by
    have here : ChildRule.Follows _ kind _ := follows _ List.mem_cons_self
    simp only [Slots.Related, here.checksNames, change.alike_iff]
  | .optionalChild change, follows, .optionalChild other _ => by
    have here : ChildRule.Follows _ kind _ := follows _ List.mem_cons_self
    cases other <;> simp [Slots.Related, here.checksNames, change.alike_iff]
  | .children _ change, follows, .children _ _ => by
    have here : ChildRule.Follows _ kind _ := follows _ List.mem_cons_self
    simp only [Slots.Related, here.checksNames, ChildRule.listsRelated_congr change.alike_iff]
  | .optionalChildren _ change, follows, .optionalChildren other _ => by
    have here : ChildRule.Follows _ kind _ := follows _ List.mem_cons_self
    cases other <;>
      simp [Slots.Related, here.checksNames, ChildRule.listsRelated_congr change.alike_iff]
  | .afterChild change, follows, .child _ others =>
    and_congr_right fun _ => change.related_iff (List.forall_mem_cons.mp follows).2 others
  | .afterOptionalChild change, follows, .optionalChild _ others =>
    and_congr_right fun _ => change.related_iff (List.forall_mem_cons.mp follows).2 others
  | .afterChildren change, follows, .children _ others =>
    and_congr_right fun _ => change.related_iff (List.forall_mem_cons.mp follows).2 others
  | .afterOptionalChildren change, follows, .optionalChildren _ others =>
    and_congr_right fun _ => change.related_iff (List.forall_mem_cons.mp follows).2 others
  | .afterAttribute change, follows, .attribute _ others =>
    and_congr_right fun _ => change.related_iff (List.forall_mem_cons.mp follows).2 others

end

/-- No number of changes that a comparison does not see, at whatever places of a tree, alters
what the node is alike to. -/
theorem alike_of_changes (names : Bool) (node node' : Node)
    (changes : Relation.ReflTransGen (Change names) node node') (other : Node) :
    node'.alike names other = node.alike names other := by
  induction changes with
  | refl => rfl
  | tail _ change ih =>
    rw [← ih, Bool.eq_iff_iff]
    exact (change.alike_iff other).symm

/-- A declaration of one variable that starts as a string. -/
def declaring (span : Span) (word : DeclarationKeyword) (name value : String) : Node :=
  .mk span .variableDeclaration (.attribute word <| .children
    [.mk ⟨4, 12⟩ .variableDeclarator
      (.child (.mk ⟨4, 5⟩ .identifier
          (.attribute name <| .optionalChild none <| .attribute false .done)) <|
        .optionalChild (some (.mk ⟨8, 12⟩ .stringLiteral (.attribute value .done))) .done)] .done)

/-- A declaration stays alike to the original when it stands elsewhere, uses another keyword and
another name, and pads its string. -/
theorem alike_of_changes_declaring :
    Relation.ReflTransGen (Change false) (declaring ⟨0, 12⟩ .letKeyword "a" "x")
      (declaring ⟨30, 42⟩ .constKeyword "b" " x ") ∧
    (declaring ⟨30, 42⟩ .constKeyword "b" " x ").alike false
      (declaring ⟨0, 12⟩ .letKeyword "a" "x") = true := by
  have unchecked : checksAt .variableDeclarator "name"
      (checksAt .variableDeclaration "decls" false) = false := by decide +kernel
  have blank : ∀ blank ∈ ["", "", " ", " "], ∀ character ∈ blank.toList,
      Text.isSpace character = true := by
    have space : Text.isSpace ' ' = true := by decide
    simp [space]
  have padded : Text.SameWithin "x" " x " := ⟨"x", "", "", " ", " ", rfl, rfl, blank⟩
  have changes : Relation.ReflTransGen (Change false) (declaring ⟨0, 12⟩ .letKeyword "a" "x")
      (declaring ⟨30, 42⟩ .constKeyword "b" " x ") :=
    calc
      Relation.ReflTransGen (Change false) (declaring ⟨0, 12⟩ .letKeyword "a" "x")
          (declaring ⟨30, 42⟩ .letKeyword "a" "x") := .single .span
      Relation.ReflTransGen (Change false) _ (declaring ⟨30, 42⟩ .constKeyword "a" "x") :=
        .single .keyword
      Relation.ReflTransGen (Change false) _ (declaring ⟨30, 42⟩ .constKeyword "b" "x") :=
        .single (.inside (.afterAttribute (.children []
          (.inside (.child (unchecked ▸ .name))))))
      Relation.ReflTransGen (Change false) _ (declaring ⟨30, 42⟩ .constKeyword "b" " x ") :=
        .single (.inside (.afterAttribute (.children []
          (.inside (.afterChild (.optionalChild (.string padded)))))))
  refine ⟨changes, ?_⟩
  rw [alike_of_changes false _ _ changes]
  decide +kernel

end CodeClones.Syntax
