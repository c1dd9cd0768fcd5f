import CodeClones.Proofs.Grouping.Classes

/-!
# Checking names only refines

Whatever is alike with names checked is alike without: the rules of all fields are weaker when
names need not agree, and some check them in any case. So the classes of likeness with names
checked lie within those without. The groups before merging are such classes, each of which
appears as soon as its first candidate has been compared; the class around it begins no later,
so it appears as well, unless time runs out earlier.
-/

namespace CodeClones.Syntax

/-! ## Likeness without names -/

/-- Attributes that agree by a rule still agree when names are not checked, if they were. -/
theorem AttributeRule.agrees_weaken (rule : AttributeRule) {names names' : Bool}
    (weaker : names' = true → names = true) (type : AttributeType) {left right : type.Value}
    (agree : rule.agrees names type left right = true) :
    rule.agrees names' type left right = true := by
  cases rule with
  | exact => exact agree
  | trimmed => exact agree
  | whenNamed =>
    cases names' with
    | false => rfl
    | true =>
      rw [weaker rfl] at agree
      exact agree
  | ignored => rfl

/-- A field passes on no more checking of names than it is given. -/
theorem ChildRule.checksNames_weaken (rule : ChildRule) {names names' : Bool}
    (weaker : names' = true → names = true) (checked : rule.checksNames names' = true) :
    rule.checksNames names = true := by
  unfold checksNames at checked ⊢
  rw [Bool.or_eq_true] at checked ⊢
  exact checked.imp_left weaker

/-- Lists stay related by a rule through a relation that the first one implies. -/
theorem ChildRule.ListsRelated.imp {rule : ChildRule} {related related' : Node → Node → Prop}
    {left right : List Node}
    (step : ∀ node ∈ left, ∀ other, related node other → related' node other)
    (lists : rule.ListsRelated related left right) : rule.ListsRelated related' left right := by
  have groups : GroupsRelated related left right → GroupsRelated related' left right := by
    rintro ⟨lengths, onto, back⟩
    refine ⟨lengths, fun node member => ?_, fun other member => ?_⟩
    · obtain ⟨other, inRight, pair⟩ := onto node member
      exact ⟨other, inRight, step node member other pair⟩
    · obtain ⟨node, inLeft, pair⟩ := back other member
      exact ⟨node, inLeft, step node inLeft other pair⟩
  cases rule with
  | alike => exact groups lists
  | named => exact groups lists
  | ordered =>
    refine ((List.forall₂_and_left left right).mpr ⟨fun _ => id, lists⟩).imp ?_
    exact fun node other ⟨member, pair⟩ => step node member other pair
  | ignored => trivial

/-- Optional values stay related through a relation that the first one implies. -/
theorem optionRel_imp {α : Type} {related related' : α → α → Prop} {left right : Option α}
    (step : ∀ value ∈ left, ∀ other, related value other → related' value other)
    (both : Option.Rel related left right) : Option.Rel related' left right := by
  cases both with
  | none => exact Option.Rel.none
  | some pair => exact Option.Rel.some (step _ rfl _ pair)

/-- Contents that are related with names checked are related without, if that holds of the stored
nodes. -/
theorem Slots.Related.weaken {related : Bool → Node → Node → Prop} {names names' : Bool}
    (weaker : names' = true → names = true) :
    {fields : List Field} → (left right : Slots fields) →
    (∀ child ∈ left.stored, ∀ names names' other, (names' = true → names = true) →
      related names child other → related names' child other) →
    left.Related related names right → left.Related related names' right
  | [], .done, .done, _, _ => trivial
  | .child _ rule :: _, .child left others, .child right others', step, both => by
    simp only [stored, List.forall_mem_cons] at step
    exact ⟨both.1.imp_right (step.1 _ _ right (rule.checksNames_weaken weaker)),
      weaken weaker others others' step.2 both.2⟩
  | .optionalChild _ rule :: _, .optionalChild left others, .optionalChild right others', step,
      both => by
    simp only [stored, List.forall_mem_append, Option.mem_toList] at step
    refine ⟨both.1.imp_right (optionRel_imp fun node held other => ?_),
      weaken weaker others others' step.2 both.2⟩
    exact step.1 node held _ _ other (rule.checksNames_weaken weaker)
  | .children _ rule :: _, .children left others, .children right others', step, both => by
    simp only [stored, List.forall_mem_append] at step
    refine ⟨both.1.imp fun node member other => ?_, weaken weaker others others' step.2 both.2⟩
    exact step.1 node member _ _ other (rule.checksNames_weaken weaker)
  | .optionalChildren _ rule :: _, .optionalChildren left others,
      .optionalChildren right others', step, both => by
    simp only [stored, List.forall_mem_append] at step
    refine ⟨both.1.imp_right (optionRel_imp fun nodes held other lists => lists.imp ?_),
      weaken weaker others others' step.2 both.2⟩
    obtain rfl : left = some nodes := held
    exact fun node member other => step.1 node member _ _ other (rule.checksNames_weaken weaker)
  | .attribute _ type rule :: _, .attribute left others, .attribute right others', step, both =>
    ⟨rule.agrees_weaken weaker type both.1, weaken weaker others others' step both.2⟩

/-- Nodes that are alike with names checked are alike without. -/
theorem Node.alike_weaken {names names' : Bool} {left right : Node}
    (weaker : names' = true → names = true) (alike : left.alike names right = true) :
    left.alike names' right = true := by
  induction left using Node.induction_on_stored generalizing names names' right with
  | step node ih =>
    cases node with
    | mk span kind slots =>
      obtain ⟨span', slots', rfl, included, related⟩ := Node.exists_of_alike alike
      refine (Node.alike_mk_iff names' span span' kind slots slots').mpr ⟨included, ?_⟩
      exact Slots.Related.weaken weaker slots slots'
        (fun child member names names' other weaker => ih child member weaker) related

end CodeClones.Syntax

namespace CodeClones.Grouping

open Syntax

variable {candidates : List Candidate} {candidate : Candidate}

/-! ## Classes within classes -/

/-- With names checked, the class of a candidate is a part of its class without. -/
theorem classOf_sublist (candidates : List Candidate) (candidate : Candidate) :
    (classOf true candidates candidate).Sublist (classOf false candidates candidate) := by
  refine List.Sublist.map _ (List.monotone_filter_right candidates fun other alike => ?_)
  exact Node.alike_weaken (fun impossible => absurd impossible Bool.false_ne_true) alike

/-- The classes led by some candidates are among those led by all. -/
theorem classesLedBy_sublist (names : Bool) {bases : List Candidate}
    (sublist : bases.Sublist candidates) :
    (classesLedBy names candidates bases).Sublist (classesLedBy names candidates candidates) :=
  ((sublist.filter _).map _).filter _

/-- A class with names checked lies in a class without, which is led by a candidate that comes no
later. -/
theorem exists_around {cut cut' : Nat} (further : cut ≤ cut') {group : Group}
    (listed : group ∈ classesLedBy true candidates (candidates.take cut)) :
    ∃ other ∈ classesLedBy false candidates (candidates.take cut'), within group other = true := by
  have parts := (List.take_append_drop cut candidates).symm
  have parts' := (List.take_append_drop cut' candidates).symm
  obtain ⟨candidate, early, rfl, large⟩ := (mem_classesLedBy_iff_of_parts parts).mp listed
  have early' : candidate ∈ candidates.take cut' :=
    List.take_subset_take_left candidates further early
  have part := classOf_sublist candidates candidate
  have large' : 1 < (classOf false candidates candidate).length :=
    Nat.lt_of_lt_of_le large part.length_le
  refine ⟨classOf false candidates candidate, ?_, within_iff.mpr fun _ => part.mem⟩
  exact (mem_classesLedBy_iff_of_parts parts').mpr ⟨candidate, early', rfl, large'⟩

/-- A group that is not empty lies in at most one class. -/
theorem countP_within_eq_one {names : Bool}
    (different : (candidates.map Location.ofCandidate).Nodup)
    {bases : List Candidate} (sublist : bases.Sublist candidates) {group other : Group}
    (nonempty : group ≠ []) (listed : other ∈ classesLedBy names candidates bases)
    (around : within group other = true) :
    (classesLedBy names candidates bases).countP (fun third => within group third) = 1 := by
  have among := classesLedBy_sublist names sublist
  obtain ⟨location, member⟩ := List.exists_mem_of_ne_nil group nonempty
  have only : ∀ third ∈ classesLedBy names candidates bases,
      within group third = true ↔ (third == other) = true := by
    intro third listed'
    rw [beq_iff_eq]
    constructor
    · intro around'
      obtain ⟨_, _, rfl, _⟩ := mem_classesLedBy_iff.mp (among.mem listed)
      obtain ⟨_, _, rfl, _⟩ := mem_classesLedBy_iff.mp (among.mem listed')
      exact classOf_eq_of_common different (within_iff.mp around' location member)
        (within_iff.mp around location member)
    · rintro rfl
      exact around
  rw [List.countP_congr only]
  exact List.count_eq_one_of_mem ((classesLedBy_nodup different).sublist among) listed

/-- Checking names only refines: nodes that are alike with names checked are alike without, and
for candidates at different locations, every group that a run with names checked has before
merging lies in exactly one group of a run without, if that run compares at least as many
candidates before time runs out; it does if both ask the same deadline, or none. -/
theorem checkingNames_refines :
    (∀ left right : Node, left.alike true right = true → left.alike false right = true) ∧
    ∀ (candidates : List Candidate) (threshold threshold' : Nat)
      (deadline deadline' : Option Deadline), (candidates.map Location.ofCandidate).Nodup →
      compared deadline candidates.length ≤ compared deadline' candidates.length →
      ∀ group ∈ cloneGroups candidates ⟨threshold, true, deadline⟩,
        (cloneGroups candidates ⟨threshold', false, deadline'⟩).countP
          (fun other => within group other) = 1 := by
  refine ⟨fun left right => Node.alike_weaken (by simp), ?_⟩
  intro candidates threshold threshold' deadline deadline' different further group inside
  rw [cloneGroups_eq_classesLedBy_take different] at inside ⊢
  have nonempty : group ≠ [] := by
    rintro rfl
    simp [classesLedBy] at inside
  obtain ⟨other, listed, around⟩ := exists_around further inside
  exact countP_within_eq_one different (List.take_sublist _ candidates) nonempty listed around

/-- A statement that names a variable. -/
def naming (span : Span) (name : String) : Candidate :=
  ⟨"f", span, .mk span .expressionStatement (.child (.mk span .identifier
    (.attribute name <| .optionalChild none <| .attribute false .done)) .done)⟩

/-- Of three statements that name variables, the two that name the same one form a group if names
are checked, which lies in the one group of a run without. -/
theorem checkingNames_refines_naming :
    ([naming ⟨0, 2⟩ "a", naming ⟨3, 5⟩ "b", naming ⟨6, 8⟩ "a"].map Location.ofCandidate).Nodup ∧
    [⟨"f", 0, 2⟩, ⟨"f", 6, 8⟩] ∈ cloneGroups
      [naming ⟨0, 2⟩ "a", naming ⟨3, 5⟩ "b", naming ⟨6, 8⟩ "a"] ⟨0, true, none⟩ ∧
    (cloneGroups [naming ⟨0, 2⟩ "a", naming ⟨3, 5⟩ "b", naming ⟨6, 8⟩ "a"]
      ⟨0, false, none⟩).countP (fun other => within [⟨"f", 0, 2⟩, ⟨"f", 6, 8⟩] other) = 1 := by
  have different : ([naming ⟨0, 2⟩ "a", naming ⟨3, 5⟩ "b", naming ⟨6, 8⟩ "a"].map
      Location.ofCandidate).Nodup := by
    decide +kernel
  have listed : [⟨"f", 0, 2⟩, ⟨"f", 6, 8⟩] ∈ cloneGroups
      [naming ⟨0, 2⟩ "a", naming ⟨3, 5⟩ "b", naming ⟨6, 8⟩ "a"] ⟨0, true, none⟩ := by
    rw [cloneGroups_eq_classesLedBy different]
    decide +kernel
  exact ⟨different, listed,
    checkingNames_refines.2 _ 0 0 none none different (Nat.le_refl _) _ listed⟩

end CodeClones.Grouping
