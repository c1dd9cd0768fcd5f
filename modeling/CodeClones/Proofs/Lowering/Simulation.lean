import CodeClones.Proofs.Lowering.Resemblance

/-!
# Lowering two trees side by side

Two contexts simulate each other if lowering related trees gives results that agree. What it
means to agree is left open: a comparison need only hold of equal results and be kept when
results are put in sequence. Then everything that a context makes of a tree agrees with what the
other makes of a related one, function by function.
-/

namespace CodeClones.Lowering

open Syntax Concrete

/-! ## Comparisons -/

instance : LawfulMonad Lowered :=
  have id_map : ∀ {α : Type} (result : Lowered α), id <$> result = result := by
    intro α result
    change (⟨result.value, result.tooDeep || false⟩ : Lowered α) = result
    rw [Bool.or_false]
  have bind_assoc : ∀ {α β γ : Type} (first : Lowered α) (second : α → Lowered β)
      (third : β → Lowered γ),
      first >>= second >>= third = first >>= fun value => second value >>= third := by
    intro α β γ first second third
    change (⟨_, _⟩ : Lowered γ) = ⟨_, _⟩
    rw [Lowered.mk.injEq]
    exact ⟨rfl, Bool.or_assoc _ _ _⟩
  LawfulMonad.mk' Lowered id_map (fun _ _ => rfl) bind_assoc

/-- Gathering results is lowering the first one and then the others. -/
theorem Lowered.all_cons {α : Type} (first : Lowered α) (others : List (Lowered α)) :
    all (first :: others) =
      first >>= fun value => all others >>= fun values => pure (value :: values) := by
  change (⟨_, _⟩ : Lowered (List α)) = ⟨_, _⟩
  rw [Lowered.mk.injEq]
  refine ⟨rfl, ?_⟩
  change (first.tooDeep || _) = (first.tooDeep || (_ || false))
  rw [Bool.or_false]
  rfl

/-- What it means that two results of lowering agree. -/
structure Comparison where
  /-- The two results agree. -/
  agree : {α : Type} → Lowered α → Lowered α → Prop
  /-- A value by itself agrees with itself. -/
  agree_pure : ∀ {α : Type} (value : α), agree (pure value) (pure value)
  /-- Results agree whose first steps do, and whose next steps do whatever the first gave. -/
  agree_bind : ∀ {α β : Type} {first other : Lowered α} {next otherNext : α → Lowered β},
    agree first other → (∀ value, agree (next value) (otherNext value)) →
      agree (first >>= next) (other >>= otherNext)

namespace Comparison

variable (comparison : Comparison) {related : Tree → Tree → Prop} {α β : Type}

/-- Results that agree still do when a function is applied to what they give. -/
theorem agree_map {first other : Lowered α} (function : α → β)
    (agree : comparison.agree first other) :
    comparison.agree (function <$> first) (function <$> other) := by
  rw [map_eq_pure_bind, map_eq_pure_bind]
  exact comparison.agree_bind agree fun _ => comparison.agree_pure _

/-- Gathered results agree if they do one by one. -/
theorem agree_all {trees copies : List Tree} {lowering other : Tree → Lowered α}
    (lists : List.Forall₂ related trees copies)
    (each : ∀ tree copy, related tree copy → comparison.agree (lowering tree) (other copy)) :
    comparison.agree (.all (trees.map lowering)) (.all (copies.map other)) := by
  induction lists with
  | nil => exact comparison.agree_pure []
  | cons same _ ih =>
    rw [List.map_cons, List.map_cons, Lowered.all_cons, Lowered.all_cons]
    refine comparison.agree_bind (each _ _ same) fun value => ?_
    exact comparison.agree_bind ih fun values => comparison.agree_pure _

/-- Optional results agree if they do where they are there. -/
theorem agree_optional {found foundCopy : Option Tree} {lowering other : Tree → Lowered α}
    (options : Option.Rel related found foundCopy)
    (each : ∀ tree copy, related tree copy → comparison.agree (lowering tree) (other copy)) :
    comparison.agree (.optional (found.map lowering)) (.optional (foundCopy.map other)) := by
  cases options with
  | none => exact comparison.agree_pure none
  | some same => exact comparison.agree_map some (each _ _ same)

end Comparison

/-- Lowering related trees in two contexts gives results that agree. -/
structure Simulates (comparison : Comparison) (related : Tree → Tree → Prop)
    (context other : Context) : Prop extends Resemblance related where
  /-- Both contexts have the same text. -/
  source : other.source = context.source
  /-- Trees below are lowered to results that agree. -/
  lower : ∀ {tree copy}, related tree copy →
    comparison.agree (context.lower tree) (other.lower copy)

namespace Simulates

variable {comparison : Comparison} {related : Tree → Tree → Prop} {context other : Context}
  (simulates : Simulates comparison related context other) {tree copy : Tree}
  (same : related tree copy)

include simulates same

/-! ## What is read off the text -/

/-- Related trees cover the same text. -/
theorem textOf : other.textOf copy = context.textOf tree := by
  rw [Context.textOf, Context.textOf, simulates.source, simulates.start same, simulates.stop same]

/-- The answers for a field cover the same text, if there are any. -/
theorem fieldText? (field : String) :
    other.fieldText? copy field = context.fieldText? tree field := by
  rw [Context.fieldText?, Context.fieldText?, simulates.source]
  rcases optionRel_cases (simulates.child? same field) with
    ⟨none, none'⟩ | ⟨child, child', found, found', equal⟩
  · rw [none, none', Option.bind_none]
  · rw [found, found', Option.bind_some, Option.bind_some, simulates.start equal,
      simulates.stop equal]

/-- So do they when a missing answer counts as no text. -/
theorem fieldText (field : String) : other.fieldText copy field = context.fieldText tree field := by
  rw [Context.fieldText, Context.fieldText, simulates.fieldText? same]

/-- Related members state the same access. -/
theorem access : other.access copy = context.access tree := by
  rw [Context.access, Context.access]
  rcases optionRel_cases (simulates.partOfKind? same "accessibility_modifier") with
    ⟨none, none'⟩ | ⟨modifier, modifier', found, found', equal⟩
  · rw [none, none', Option.bind_none, Option.bind_none]
  · rw [found, found', Option.bind_some, Option.bind_some, simulates.textOf equal]

/-! ## Fields and named children -/

omit same in
/-- Related lists of trees are lowered to lists that agree. -/
theorem lowerAll {trees copies : List Tree} (lists : List.Forall₂ related trees copies) :
    comparison.agree (context.lowerAll trees) (other.lowerAll copies) :=
  comparison.agree_all lists fun _ _ => simulates.lower

omit same in
/-- Related trees that may be absent are lowered to results that agree. -/
theorem lowerOptional {found foundCopy : Option Tree}
    (options : Option.Rel related found foundCopy) :
    comparison.agree (context.lowerOptional found) (other.lowerOptional foundCopy) :=
  comparison.agree_optional options fun _ _ => simulates.lower

/-- A required field is lowered in both trees or lacking in both. -/
theorem required (field : String) :
    comparison.agree (context.required tree field) (other.required copy field) := by
  unfold Context.required
  rcases optionRel_cases (simulates.child? same field) with
    ⟨none, none'⟩ | ⟨child, child', found, found', equal⟩
  · rw [none, none', simulates.lacking same]
    exact comparison.agree_pure _
  · rw [found, found']
    exact simulates.lower equal

/-- An optional field is lowered in both trees or absent in both. -/
theorem optional (field : String) :
    comparison.agree (context.optional tree field) (other.optional copy field) :=
  simulates.lowerOptional (simulates.namedChild? same field)

/-- The entries of a field with many of them agree. -/
theorem many (field : String) :
    comparison.agree (context.many tree field) (other.many copy field) :=
  simulates.lowerAll (simulates.partsOf same field)

/-- The named children agree. -/
theorem loweredParts : comparison.agree (context.parts tree) (other.parts copy) :=
  simulates.lowerAll (simulates.parts same)

/-- The named children of the answers for a field agree. -/
theorem partsWithin (field : String) :
    comparison.agree (context.partsWithin tree field) (other.partsWithin copy field) := by
  unfold Context.partsWithin
  rcases optionRel_cases (simulates.child? same field) with
    ⟨none, none'⟩ | ⟨child, child', found, found', equal⟩
  · rw [none, none']
    exact comparison.agree_pure _
  · rw [found, found']
    exact simulates.loweredParts equal

/-- The first named children agree. -/
theorem first : comparison.agree (context.first tree) (other.first copy) :=
  simulates.lowerOptional (simulates.firstPart? same)

/-- The first named children of the answers for a field agree. -/
theorem firstWithin (field : String) :
    comparison.agree (context.firstWithin tree field) (other.firstWithin copy field) := by
  unfold Context.firstWithin
  rcases optionRel_cases (simulates.child? same field) with
    ⟨none, none'⟩ | ⟨child, child', found, found', equal⟩
  · rw [none, none']
    exact comparison.agree_pure _
  · rw [found, found']
    exact simulates.first equal

/-- Required first children agree, or both trees lack one. -/
theorem firstRequired :
    comparison.agree (context.firstRequired tree) (other.firstRequired copy) := by
  unfold Context.firstRequired
  rcases optionRel_cases (simulates.firstPart? same) with
    ⟨none, none'⟩ | ⟨child, child', found, found', equal⟩
  · rw [none, none', simulates.unmodelled same]
    exact comparison.agree_pure _
  · rw [found, found']
    exact simulates.lower equal

/-- Conditions agree, with the same parentheses taken off. -/
theorem condition (field : String) :
    comparison.agree (context.condition tree field) (other.condition copy field) := by
  unfold Context.condition
  rcases optionRel_cases (simulates.child? same field) with
    ⟨none, none'⟩ | ⟨child, child', found, found', equal⟩
  · rw [none, none', simulates.lacking same]
    exact comparison.agree_pure _
  · rw [found, found']
    dsimp only
    rw [simulates.kind equal]
    split
    · exact simulates.firstRequired equal
    · exact simulates.lower equal

/-- Names agree, as they cover the same text or are lowered. -/
theorem name : comparison.agree (context.name tree) (other.name copy) := by
  unfold Context.name
  rw [simulates.kind same, simulates.plainIdentifier same, simulates.textOf same]
  split
  · exact comparison.agree_pure _
  · exact simulates.lower same

/-- Required names agree. -/
theorem nameField (field : String) :
    comparison.agree (context.nameField tree field) (other.nameField copy field) := by
  unfold Context.nameField
  rcases optionRel_cases (simulates.child? same field) with
    ⟨none, none'⟩ | ⟨child, child', found, found', equal⟩
  · rw [none, none', simulates.lacking same]
    exact comparison.agree_pure _
  · rw [found, found']
    exact simulates.name equal

/-- Names that may be absent agree. -/
theorem optionalName (field : String) :
    comparison.agree (context.optionalName tree field) (other.optionalName copy field) :=
  comparison.agree_optional (simulates.child? same field) fun _ _ => simulates.name

/-- The decorators agree. -/
theorem decorators : comparison.agree (context.decorators tree) (other.decorators copy) :=
  simulates.lowerAll (simulates.partsOfKind same "decorator")

/-- Targets agree with the annotation and the mark written into them. -/
theorem binding {type typeCopy : Option Tree} (types : Option.Rel related type typeCopy)
    (isOptional : Bool) :
    comparison.agree (context.binding tree type isOptional)
      (other.binding copy typeCopy isOptional) := by
  refine comparison.agree_bind (simulates.lower same) fun target => ?_
  exact comparison.agree_bind (simulates.lowerOptional types) fun type => comparison.agree_pure _

/-! ## Dotted names and lists of ancestors -/

omit same in
/-- Dotted names agree, by recursion on the name. -/
theorem qualifiedName {tree copy : Tree} (same : related tree copy) :
    comparison.agree (context.qualifiedName tree) (other.qualifiedName copy) := by
  induction size : sizeOf tree using Nat.strongRecOn generalizing tree copy with
  | ind size ih =>
    rw [Context.qualifiedName_eq, Context.qualifiedName_eq, simulates.kind same]
    split
    · rcases simulates.sides?_cases same ["module", "object"] ["name", "property"] with
        ⟨none, none'⟩ | ⟨left, right, left', right', found, found', lefts, rights⟩
      · rw [none, none', simulates.unmodelled same]
        exact comparison.agree_pure _
      · have smaller := (sizeOf_lt_of_sides? found).1
        rw [found, found']
        refine comparison.agree_bind (ih _ (size ▸ smaller) lefts rfl) fun _ => ?_
        refine comparison.agree_bind (simulates.name rights) fun _ => ?_
        rw [simulates.place same]
        exact comparison.agree_pure _
    · exact simulates.name same

omit same in
/-- Names of markup agree, by recursion on the name. -/
theorem markupName {tree copy : Tree} (same : related tree copy) :
    comparison.agree (context.markupName tree) (other.markupName copy) := by
  induction size : sizeOf tree using Nat.strongRecOn generalizing tree copy with
  | ind size ih =>
    rw [Context.markupName_eq, Context.markupName_eq, simulates.kind same]
    split
    · rcases simulates.sides?_cases same ["object"] ["property"] with
        ⟨none, none'⟩ | ⟨object, property, object', property', found, found', objects, properties⟩
      · rw [none, none', simulates.unmodelled same]
        exact comparison.agree_pure _
      · obtain ⟨smaller, smaller'⟩ := sizeOf_lt_of_sides? found
        rw [found, found']
        refine comparison.agree_bind (ih _ (size ▸ smaller) objects rfl) fun _ => ?_
        refine comparison.agree_bind (ih _ (size ▸ smaller') properties rfl) fun _ => ?_
        rw [simulates.place same]
        exact comparison.agree_pure _
    · split
      · have parts := simulates.parts same
        rw [simulates.unmodelled same]
        generalize tree.parts = trees, copy.parts = copies at parts
        cases parts with
        | nil => exact comparison.agree_pure _
        | cons spaces parts =>
          cases parts with
          | nil => exact comparison.agree_pure _
          | cons names parts =>
            cases parts with
            | nil =>
              refine comparison.agree_bind (simulates.name spaces) fun _ => ?_
              refine comparison.agree_bind (simulates.name names) fun _ => ?_
              rw [simulates.place same]
              exact comparison.agree_pure _
            | cons _ _ => exact comparison.agree_pure _
      · exact simulates.name same

/-- Names that may carry type arguments agree. -/
theorem genericName : comparison.agree (context.genericName tree) (other.genericName copy) := by
  unfold Context.genericName
  rcases optionRel_cases (simulates.child? same "name") with
    ⟨none, none'⟩ | ⟨name, name', found, found', equal⟩
  · rw [none, none', simulates.unmodelled same]
    exact comparison.agree_pure _
  · rw [found, found']
    exact simulates.qualifiedName equal

/-- Ancestors with their type arguments agree. -/
theorem heritageEntry :
    comparison.agree (context.heritageEntry tree) (other.heritageEntry copy) := by
  unfold Context.heritageEntry
  rw [simulates.kind same]
  split
  · refine comparison.agree_bind (simulates.genericName same) fun _ => ?_
    refine comparison.agree_bind (simulates.optional same _) fun _ => ?_
    rw [simulates.place same]
    exact comparison.agree_pure _
  · refine comparison.agree_bind (simulates.qualifiedName same) fun _ => ?_
    rw [simulates.place same]
    exact comparison.agree_pure _

/-- Lists of ancestors agree. -/
theorem heritage : comparison.agree (context.heritage tree) (other.heritage copy) :=
  comparison.agree_all (simulates.parts same) fun _ _ => simulates.heritageEntry

/-! ## Templates, functions and classes -/

/-- What stands in the holes of two templates agrees. -/
theorem templateHoles (kind : String) :
    comparison.agree (context.templateHoles kind tree) (other.templateHoles kind copy) :=
  comparison.agree_all (simulates.substitutions same kind) fun _ _ => simulates.firstRequired

/-- Targets without a default agree. -/
theorem barePattern : comparison.agree (context.barePattern tree) (other.barePattern copy) := by
  refine comparison.agree_bind (simulates.lower same) fun _ => ?_
  rw [simulates.place same]
  exact comparison.agree_pure _

/-- Targets of parameters agree, with what annotates them. -/
theorem parameterTarget :
    comparison.agree (context.parameterTarget tree) (other.parameterTarget copy) := by
  unfold Context.parameterTarget
  rcases optionRel_cases (simulates.child? same "pattern") with
    ⟨none, none'⟩ | ⟨pattern, pattern', found, found', equal⟩
  · rw [none, none', simulates.unmodelled same]
    exact comparison.agree_pure _
  · rw [found, found']
    dsimp only
    rw [simulates.kind same]
    exact simulates.binding equal (simulates.child? same "type") _

/-- The default of a parameter is handed on together with its tree, of which only the end is
used. -/
theorem parameterPattern :
    comparison.agree (context.parameterPattern tree) (other.parameterPattern copy) := by
  refine comparison.agree_bind (simulates.parameterTarget same) fun target => ?_
  rcases optionRel_cases (simulates.child? same "value") with
    ⟨none, none'⟩ | ⟨value, value', found, found', equal⟩
  · rw [none, none']
    exact comparison.agree_pure _
  · rw [found, found']
    simp only [Option.map_some, Lowered.optional, map_eq_pure_bind, bind_assoc, pure_bind]
    refine comparison.agree_bind (simulates.lower equal) fun _ => ?_
    rw [withDefault, withDefault, simulates.stop equal]
    exact comparison.agree_pure _

/-- Parameters agree with their modifiers and defaults. -/
theorem fullParameter :
    comparison.agree (context.fullParameter tree) (other.fullParameter copy) := by
  unfold Context.fullParameter
  refine comparison.agree_bind (simulates.decorators same) fun _ => ?_
  refine comparison.agree_bind (simulates.parameterPattern same) fun _ => ?_
  rw [simulates.access same, simulates.hasToken same _ (by decide)]
  simp only [simulates.place same]
  split
  · exact comparison.agree_pure _
  · exact comparison.agree_pure _

/-- Parameters agree, also those that are a target only. -/
theorem parameter : comparison.agree (context.parameter tree) (other.parameter copy) := by
  unfold Context.parameter
  rw [simulates.kind same]
  split
  · exact simulates.fullParameter same
  · exact simulates.barePattern same

/-- All parameters agree. -/
theorem parameters : comparison.agree (context.parameters tree) (other.parameters copy) :=
  comparison.agree_all (simulates.parts same) fun _ _ => simulates.parameter

/-- The parameters of signatures agree. -/
theorem signatureParameters :
    comparison.agree (context.signatureParameters tree) (other.signatureParameters copy) := by
  unfold Context.signatureParameters
  rcases optionRel_cases (simulates.child? same "parameters") with
    ⟨none, none'⟩ | ⟨list, list', found, found', equal⟩
  · rw [none, none']
    exact comparison.agree_pure _
  · rw [found, found']
    exact simulates.parameters equal

/-- The parameters of functions agree, also a single one without parentheses. -/
theorem functionParameters :
    comparison.agree (context.functionParameters tree) (other.functionParameters copy) := by
  unfold Context.functionParameters
  rcases optionRel_cases (simulates.child? same "parameters") with
    ⟨none, none'⟩ | ⟨list, list', found, found', equal⟩
  · rw [none, none']
    rcases optionRel_cases (simulates.child? same "parameter") with
      ⟨none, none'⟩ | ⟨single, single', found, found', equal⟩
    · rw [none, none']
      exact comparison.agree_pure _
    · rw [found, found']
      exact comparison.agree_bind (simulates.barePattern equal) fun _ => comparison.agree_pure _
  · rw [found, found']
    exact simulates.parameters equal

/-- The parts of functions agree. -/
theorem functionParts :
    comparison.agree (context.functionParts tree) (other.functionParts copy) := by
  unfold Context.functionParts
  refine comparison.agree_bind (simulates.functionParameters same) fun _ => ?_
  refine comparison.agree_bind (simulates.decorators same) fun _ => ?_
  refine comparison.agree_bind (simulates.optional same _) fun _ => ?_
  refine comparison.agree_bind (simulates.optional same _) fun _ => ?_
  refine comparison.agree_bind (simulates.optional same _) fun _ => ?_
  rw [simulates.bodyStart same, simulates.hasTokenBefore same "async" _ (by decide),
    simulates.hasTokenBefore same "*" _ (by decide)]
  exact comparison.agree_pure _

/-- Methods agree when the same decorators stand before them. -/
theorem method (leading : List Node) :
    comparison.agree (context.method leading tree) (other.method leading copy) := by
  unfold Context.method
  refine comparison.agree_bind (simulates.nameField same _) fun key => ?_
  refine comparison.agree_bind (simulates.functionParts same) fun _ => ?_
  simp only [simulates.place same, simulates.access same, simulates.flavourOf same,
    simulates.hasToken same "static" (by decide)]
  split
  · exact comparison.agree_pure _
  · exact comparison.agree_pure _

/-- Fields of classes agree when the same decorators stand before them. -/
theorem property (leading : List Node) :
    comparison.agree (context.property leading tree) (other.property leading copy) := by
  have keys := optionRel_or (simulates.child? same "name") (simulates.child? same "property")
  have tokens : ∀ token ∈ ["static", "readonly", "?"],
      copy.hasToken token = tree.hasToken token := by
    intro token member
    refine simulates.hasToken same token ?_
    rintro rfl
    revert member
    decide
  unfold Context.property
  -- The key is a name or unmodelled; everything behind it is the same in both cases.
  rcases optionRel_cases keys with ⟨none, none'⟩ | ⟨key, key', found, found', equal⟩
  on_goal 1 =>
    rw [none, none', simulates.unmodelled same]
    refine comparison.agree_bind (comparison.agree_pure _) fun _ => ?_
  on_goal 2 =>
    rw [found, found']
    refine comparison.agree_bind (simulates.name equal) fun _ => ?_
  all_goals
    refine comparison.agree_bind (simulates.optional same _) fun _ => ?_
    refine comparison.agree_bind (simulates.optional same _) fun _ => ?_
    refine comparison.agree_bind (simulates.decorators same) fun _ => ?_
    rw [simulates.place same, simulates.access same, tokens _ (by decide), tokens _ (by decide),
      tokens _ (by decide)]
    exact comparison.agree_pure _

/-- Members agree when the same decorators stand before them. -/
theorem member (leading : List Node) :
    comparison.agree (context.member leading tree) (other.member leading copy) := by
  unfold Context.member
  rw [simulates.kind same]
  split
  · exact simulates.method same leading
  · exact simulates.method same leading
  · exact simulates.method same leading
  · exact simulates.property same leading
  · exact simulates.property same leading
  · rw [simulates.hasToken same "static" (by decide)]
    exact comparison.agree_map _ (simulates.lower same)
  · exact simulates.lower same

omit same in
/-- The members of two bodies agree, with the same decorators at hand. -/
theorem members {trees copies : List Tree} (lists : List.Forall₂ related trees copies)
    (pending : List Node) :
    comparison.agree (context.members pending trees) (other.members pending copies) := by
  induction lists generalizing pending with
  | nil => exact comparison.agree_pure _
  | cons equal _ ih =>
    unfold Context.members
    rw [simulates.kind equal]
    split
    · exact comparison.agree_bind (simulates.lower equal) fun _ => ih _
    · refine comparison.agree_bind (simulates.member equal pending) fun _ => ?_
      exact comparison.agree_bind (ih _) fun _ => comparison.agree_pure _

/-- Clauses about ancestors agree when they add to the same ones. -/
theorem clause (ancestry : Ancestry) :
    comparison.agree (context.clause ancestry tree) (other.clause ancestry copy) := by
  unfold Context.clause
  rw [simulates.kind same]
  split
  · rcases optionRel_cases (simulates.child? same "value") with
      ⟨none, none'⟩ | ⟨value, value', found, found', equal⟩
    on_goal 1 =>
      rw [none, none']
      refine comparison.agree_bind (simulates.first same) fun _ => ?_
    on_goal 2 =>
      rw [found, found']
      refine comparison.agree_bind (comparison.agree_map _ (simulates.lower equal)) fun _ => ?_
    all_goals
      exact comparison.agree_bind (simulates.optional same _) fun _ => comparison.agree_pure _
  · exact comparison.agree_bind (simulates.heritage same) fun _ => comparison.agree_pure _
  · split
    · exact comparison.agree_pure _
    · exact comparison.agree_bind (simulates.lower same) fun _ => comparison.agree_pure _

omit same in
/-- All clauses agree when they add to the same ancestors. -/
theorem clauses {trees copies : List Tree} (lists : List.Forall₂ related trees copies)
    (ancestry : Ancestry) :
    comparison.agree (context.clauses ancestry trees) (other.clauses ancestry copies) := by
  induction lists generalizing ancestry with
  | nil => exact comparison.agree_pure _
  | cons equal _ ih => exact comparison.agree_bind (simulates.clause equal ancestry) fun _ => ih _

/-- The ancestors of two classes agree. -/
theorem ancestry : comparison.agree (context.ancestry tree) (other.ancestry copy) := by
  unfold Context.ancestry
  rcases optionRel_cases (simulates.partOfKind? same "class_heritage") with
    ⟨none, none'⟩ | ⟨heritage, heritage', found, found', equal⟩
  · rw [none, none']
    exact comparison.agree_pure _
  · rw [found, found']
    exact simulates.clauses (simulates.parts equal) _

/-- The bodies of two classes agree. -/
theorem classBody : comparison.agree (context.classBody tree) (other.classBody copy) := by
  unfold Context.classBody
  rcases optionRel_cases (simulates.child? same "body") with
    ⟨none, none'⟩ | ⟨body, body', found, found', equal⟩
  · rw [none, none']
    exact comparison.agree_pure _
  · rw [found, found']
    exact simulates.members (simulates.parts equal) _

/-- The parts of two classes agree. -/
theorem classParts : comparison.agree (context.classParts tree) (other.classParts copy) := by
  unfold Context.classParts
  refine comparison.agree_bind (simulates.decorators same) fun _ => ?_
  refine comparison.agree_bind (simulates.optional same _) fun _ => ?_
  refine comparison.agree_bind (simulates.ancestry same) fun _ => ?_
  refine comparison.agree_bind (simulates.classBody same) fun _ => ?_
  rw [simulates.kind same, simulates.hasToken same "abstract" (by decide)]
  exact comparison.agree_pure _

/-! ## Statements -/

/-- The other branches of two conditions agree. -/
theorem elseBranch : comparison.agree (context.elseBranch tree) (other.elseBranch copy) := by
  unfold Context.elseBranch
  rw [simulates.kind same]
  split
  · exact simulates.firstRequired same
  · exact simulates.lower same

/-- Parts of two loops' heads agree. -/
theorem loopPart (field : String) :
    comparison.agree (context.loopPart tree field) (other.loopPart copy field) := by
  unfold Context.loopPart
  rcases optionRel_cases (optionRel_head? (simulates.partsOf same field)) with
    ⟨none, none'⟩ | ⟨part, part', found, found', equal⟩
  · rw [none, none']
    exact comparison.agree_pure _
  · rw [found, found']
    dsimp only
    rw [simulates.kind equal]
    split
    · exact comparison.agree_pure _
    · exact simulates.first equal
    · exact comparison.agree_map _ (simulates.lower equal)

/-- Related declarations have the same keyword. -/
theorem declarationKeyword : other.declarationKeyword copy = context.declarationKeyword tree := by
  rw [Context.declarationKeyword, Context.declarationKeyword, simulates.kind same,
    simulates.fieldText? same]

/-- The targets of two loops agree. -/
theorem loopTarget : comparison.agree (context.loopTarget tree) (other.loopTarget copy) := by
  unfold Context.loopTarget
  rcases optionRel_cases (simulates.child? same "kind") with
    ⟨none, none'⟩ | ⟨keyword, keyword', found, found', keywords⟩
  · rw [none, none']
    rcases optionRel_cases (simulates.child? same "left") with
      ⟨none, none'⟩ | ⟨target, target', found, found', targets⟩
    · rw [none, none', simulates.unmodelled same]
      exact comparison.agree_pure _
    · rw [found, found']
      exact simulates.lower targets
  · rw [found, found']
    rcases optionRel_cases (simulates.child? same "left") with
      ⟨none, none'⟩ | ⟨target, target', found, found', targets⟩
    · rw [none, none', simulates.unmodelled same]
      exact comparison.agree_pure _
    · rw [found, found']
      refine comparison.agree_bind (simulates.binding targets .none false) fun _ => ?_
      rw [simulates.place targets, simulates.textOf keywords, simulates.start keywords,
        simulates.stop targets]
      exact comparison.agree_pure _

/-- Loops over keys or values agree. -/
theorem loopOver : comparison.agree (context.loopOver tree) (other.loopOver copy) := by
  unfold Context.loopOver
  refine comparison.agree_bind (simulates.loopTarget same) fun _ => ?_
  refine comparison.agree_bind (simulates.required same _) fun _ => ?_
  refine comparison.agree_bind (simulates.required same _) fun _ => ?_
  simp only [simulates.place same, simulates.fieldText? same,
    simulates.hasToken same "of" (by decide), simulates.hasToken same "await" (by decide)]
  split
  · split
    · exact comparison.agree_pure _
    · exact comparison.agree_pure _
  · split
    · exact comparison.agree_pure _
    · exact comparison.agree_pure _

/-- Members of enumerations agree. -/
theorem enumMember : comparison.agree (context.enumMember tree) (other.enumMember copy) := by
  unfold Context.enumMember
  rw [simulates.kind same]
  split
  · refine comparison.agree_bind (simulates.nameField same _) fun _ => ?_
    refine comparison.agree_bind (simulates.optional same _) fun _ => ?_
    rw [simulates.place same]
    exact comparison.agree_pure _
  · refine comparison.agree_bind (simulates.name same) fun _ => ?_
    rw [simulates.place same]
    exact comparison.agree_pure _

/-- Blocks of modules agree. -/
theorem moduleBlock : comparison.agree (context.moduleBlock tree) (other.moduleBlock copy) := by
  refine comparison.agree_bind (simulates.loweredParts same) fun _ => ?_
  rw [simulates.place same]
  exact comparison.agree_pure _

/-- Ambient declarations agree. -/
theorem ambient : comparison.agree (context.ambient tree) (other.ambient copy) := by
  unfold Context.ambient
  rcases optionRel_cases (simulates.firstPart? same) with
    ⟨none, none'⟩ | ⟨part, part', found, found', equal⟩
  · rw [none, none', simulates.unmodelled same]
    exact comparison.agree_pure _
  · rw [found, found']
    dsimp only
    rw [simulates.kind equal]
    split
    · refine comparison.agree_bind (simulates.moduleBlock equal) fun _ => ?_
      rw [simulates.place same, simulates.plainIdentifier same]
      exact comparison.agree_pure _
    · exact simulates.lower equal

/-- What an export consists of if it names nothing and has no source. -/
theorem exportedChoice (specifiers : List Node) :
    Option.Rel related
      (if specifiers.isEmpty && (tree.child? "source").isNone then exportedExpression? tree
        else none)
      (if specifiers.isEmpty && (copy.child? "source").isNone then exportedExpression? copy
        else none) := by
  have source : (copy.child? "source").isNone = (tree.child? "source").isNone := by
    rcases optionRel_cases (simulates.child? same "source") with
      ⟨none, none'⟩ | ⟨_, _, found, found', _⟩
    · rw [none, none']
    · rw [found, found']
      rfl
  rw [source]
  split
  · exact simulates.exportedExpression? same
  · exact .none

/-- Exported items agree. -/
theorem exportItem : comparison.agree (context.exportItem tree) (other.exportItem copy) := by
  unfold Context.exportItem
  rw [simulates.hasToken same "default" (by decide)]
  simp only [simulates.place same]
  rcases optionRel_cases (simulates.child? same "declaration") with
    ⟨none, none'⟩ | ⟨declaration, declaration', found, found', equal⟩
  · rw [none, none']
    rcases optionRel_cases (simulates.child? same "value") with
      ⟨none, none'⟩ | ⟨value, value', found, found', equal⟩
    · rw [none, none']
      refine comparison.agree_bind ?_ fun specifiers => ?_
      · exact comparison.agree_all (simulates.exportedNames same) fun _ _ => simulates.name
      · rcases optionRel_cases (simulates.exportedChoice same specifiers) with
          ⟨none, none'⟩ | ⟨expression, expression', found, found', equal⟩
        · rw [none, none']
          exact comparison.agree_bind (simulates.optional same _) fun _ => comparison.agree_pure _
        · rw [found, found']
          exact comparison.agree_bind (simulates.lower equal) fun _ => comparison.agree_pure _
    · rw [found, found']
      exact comparison.agree_bind (simulates.lower equal) fun _ => comparison.agree_pure _
  · rw [found, found']
    exact comparison.agree_bind (simulates.lower equal) fun _ => comparison.agree_pure _

/-! ## Types, expressions and markup -/

/-- A node around the first named child agrees with another one around its counterpart. -/
theorem wrapping {wrap wrapCopy : Node → Node} (wraps : ∀ node, wrapCopy node = wrap node) :
    comparison.agree (context.wrapping tree wrap) (other.wrapping copy wrapCopy) := by
  rw [funext wraps]
  exact comparison.agree_map _ (simulates.firstRequired same)

/-- Related mapped types are marked as read-only alike. -/
theorem readonlyMark? : other.readonlyMark? copy = context.readonlyMark? tree := by
  rw [Context.readonlyMark?, Context.readonlyMark?, simulates.fieldText? same,
    simulates.hasToken same "readonly" (by decide)]

/-- Mapped types agree. -/
theorem mappedType {clause clauseCopy : Tree} (clauses : related clause clauseCopy) :
    comparison.agree (context.mappedType clause tree) (other.mappedType clauseCopy copy) := by
  have mark : ((copy.child? "type").bind fun ascription => optionalMark? ascription.kind) =
      (tree.child? "type").bind fun ascription => optionalMark? ascription.kind := by
    rcases optionRel_cases (simulates.child? same "type") with
      ⟨none, none'⟩ | ⟨type, type', found, found', equal⟩
    · rw [none, none']
    · rw [found, found', Option.bind_some, Option.bind_some, simulates.kind equal]
  unfold Context.mappedType
  refine comparison.agree_bind (simulates.nameField clauses _) fun _ => ?_
  refine comparison.agree_bind (simulates.optional clauses _) fun _ => ?_
  refine comparison.agree_bind (simulates.optional clauses _) fun _ => ?_
  refine comparison.agree_bind (simulates.firstWithin same _) fun _ => ?_
  rw [simulates.place same, simulates.place clauses, mark, simulates.readonlyMark? same]
  exact comparison.agree_pure _

/-- The types of keys agree. -/
theorem keyType : comparison.agree (context.keyType tree) (other.keyType copy) := by
  refine comparison.agree_optional (simulates.child? same "index_type") ?_
  intro type typeCopy equal
  refine comparison.agree_bind (simulates.lower equal) fun _ => ?_
  rw [simulates.place equal]
  exact comparison.agree_pure _

/-- The keys of two index signatures agree, with their types. -/
theorem signatureKey {name nameCopy : Tree} (names : related name nameCopy) :
    comparison.agree (context.signatureKey tree name) (other.signatureKey copy nameCopy) := by
  unfold Context.signatureKey
  refine comparison.agree_bind (simulates.name names) fun key => ?_
  split
  · exact comparison.agree_bind (simulates.keyType same) fun _ => comparison.agree_pure _
  · exact comparison.agree_pure _

/-- Index signatures agree, also those that are mapped types. -/
theorem keySignature : comparison.agree (context.keySignature tree) (other.keySignature copy) := by
  unfold Context.keySignature
  rcases optionRel_cases (simulates.partOfKind? same "mapped_type_clause") with
    ⟨none, none'⟩ | ⟨clause, clause', found, found', equal⟩
  · rw [none, none']
    refine comparison.agree_bind ?_ fun _ => ?_
    · exact comparison.agree_optional (simulates.child? same "name") fun _ _ names =>
        simulates.signatureKey same names
    · have types := simulates.lowerOptional (simulates.child? same "type")
      refine comparison.agree_bind types fun _ => ?_
      rw [simulates.place same, simulates.hasToken same "readonly" (by decide)]
      exact comparison.agree_pure _
  · rw [found, found']
    exact simulates.mappedType same equal

/-- Assertions agree. -/
theorem assertion : comparison.agree (context.assertion tree) (other.assertion copy) := by
  unfold Context.assertion
  rcases optionRel_cases (simulates.firstPart? same) with
    ⟨none, none'⟩ | ⟨inner, inner', found, found', equal⟩
  · rw [none, none', simulates.unmodelled same]
    exact comparison.agree_pure _
  · rw [found, found']
    dsimp only
    rw [simulates.kind equal, simulates.span same]
    split
    · exact comparison.agree_bind (simulates.lower equal) fun _ => comparison.agree_pure _
    · refine comparison.agree_bind (simulates.name equal) fun _ => ?_
      rw [simulates.place same]
      exact comparison.agree_pure _

/-- Related operations have the same operator. -/
theorem operator : other.operator copy = context.operator tree :=
  simulates.fieldText same "operator"

/-- Calls agree, and so do templates with a tag. -/
theorem callOrTag : comparison.agree (context.callOrTag tree) (other.callOrTag copy) := by
  unfold Context.callOrTag
  refine comparison.agree_bind (simulates.required same _) fun _ => ?_
  refine comparison.agree_bind (simulates.optional same _) fun _ => ?_
  simp only [simulates.chained same, simulates.place same]
  rcases optionRel_cases (simulates.child? same "arguments") with
    ⟨none, none'⟩ | ⟨arguments, arguments', found, found', equal⟩
  · rw [none, none']
    exact comparison.agree_pure _
  · rw [found, found']
    dsimp only
    rw [simulates.kind equal]
    split
    · exact comparison.agree_bind (simulates.lower equal) fun _ => comparison.agree_pure _
    · exact comparison.agree_bind (simulates.loweredParts equal) fun _ => comparison.agree_pure _

/-- Methods, getters and setters of objects agree. -/
theorem objectMethod : comparison.agree (context.objectMethod tree) (other.objectMethod copy) := by
  unfold Context.objectMethod
  refine comparison.agree_bind (simulates.nameField same _) fun _ => ?_
  simp only [simulates.flavourOf same, simulates.place same]
  split
  · refine comparison.agree_bind (simulates.optional same _) fun _ => ?_
    exact comparison.agree_bind (simulates.optional same _) fun _ => comparison.agree_pure _
  · refine comparison.agree_bind (simulates.signatureParameters same) fun _ => ?_
    exact comparison.agree_bind (simulates.optional same _) fun _ => comparison.agree_pure _
  · exact comparison.agree_bind (simulates.functionParts same) fun _ => comparison.agree_pure _

/-- Members of objects agree. -/
theorem objectMember : comparison.agree (context.objectMember tree) (other.objectMember copy) := by
  unfold Context.objectMember
  rw [simulates.kind same]
  split
  · exact simulates.objectMethod same
  · exact simulates.lower same

/-- Members of object patterns agree. -/
theorem patternMember :
    comparison.agree (context.patternMember tree) (other.patternMember copy) := by
  unfold Context.patternMember
  rw [simulates.kind same]
  split
  · refine comparison.agree_bind (simulates.name same) fun _ => ?_
    rw [simulates.place same]
    exact comparison.agree_pure _
  · exact simulates.lower same

/-- The children of a tag that are neither its name nor its type arguments are related. -/
theorem attributes :
    List.Forall₂ related
      (tree.parts.filter fun child =>
        some child.id != (tree.child? "name").map (·.id) && child.kind != "type_arguments")
      (copy.parts.filter fun child =>
        some child.id != (copy.child? "name").map (·.id) && child.kind != "type_arguments") := by
  refine List.rel_filter (fun first second equal => ?_) (simulates.parts same)
  dsimp only
  rw [simulates.kind equal]
  rcases optionRel_cases (simulates.child? same "name") with
    ⟨none, none'⟩ | ⟨name, name', found, found', names⟩
  · rw [none, none']
    simp
  · have ids := simulates.id equal names
    rw [found, found']
    simp [ids]

/-- Opening tags agree. -/
theorem openingTag (selfClosing : Bool) :
    comparison.agree (context.openingTag selfClosing tree)
      (other.openingTag selfClosing copy) := by
  unfold Context.openingTag
  refine comparison.agree_bind (simulates.lowerAll (simulates.attributes same)) fun _ => ?_
  rcases optionRel_cases (simulates.child? same "name") with
    ⟨none, none'⟩ | ⟨name, name', found, found', equal⟩
  on_goal 1 =>
    rw [none, none', simulates.unmodelled same]
    refine comparison.agree_bind (comparison.agree_pure _) fun _ => ?_
  on_goal 2 =>
    rw [found, found']
    refine comparison.agree_bind (simulates.markupName equal) fun _ => ?_
  all_goals
    refine comparison.agree_bind (simulates.optional same _) fun _ => ?_
    rw [simulates.place same]
    exact comparison.agree_pure _

/-- The children of an element between its tags are related. -/
theorem between {opening openingCopy closing closingCopy : Tree}
    (openings : related opening openingCopy) (closings : related closing closingCopy) :
    List.Forall₂ related
      (tree.parts.filter fun child => child.id != opening.id && child.id != closing.id)
      (copy.parts.filter fun child =>
        child.id != openingCopy.id && child.id != closingCopy.id) := by
  refine List.rel_filter (fun first second equal => ?_) (simulates.parts same)
  have notOpening := simulates.id equal openings
  have notClosing := simulates.id equal closings
  simp [notOpening, notClosing]

/-- Elements and fragments agree. -/
theorem element : comparison.agree (context.element tree) (other.element copy) := by
  have openings := optionRel_or (simulates.child? same "open_tag")
    (simulates.partOfKind? same "jsx_opening_element")
  have closings := optionRel_or (simulates.child? same "close_tag")
    (simulates.partOfKind? same "jsx_closing_element")
  unfold Context.element
  simp only [simulates.place same, simulates.unmodelled same]
  rcases optionRel_cases openings with ⟨none, none'⟩ | ⟨opening, opening', found, found', openings⟩
  · rw [none, none']
    exact comparison.agree_pure _
  · rw [found, found']
    rcases optionRel_cases closings with
      ⟨none, none'⟩ | ⟨closing, closing', found, found', closings⟩
    · rw [none, none']
      exact comparison.agree_pure _
    · rw [found, found']
      refine comparison.agree_bind ?_ fun _ => ?_
      · exact simulates.lowerAll (simulates.between same openings closings)
      · rw [simulates.place openings, simulates.place closings]
        rcases optionRel_cases (simulates.child? openings "name") with
          ⟨none, none'⟩ | ⟨name, name', found, found', _⟩
        · rw [none, none']
          exact comparison.agree_pure _
        · rw [found, found']
          refine comparison.agree_bind (simulates.openingTag openings false) fun _ => ?_
          exact comparison.agree_bind (simulates.lower closings) fun _ => comparison.agree_pure _

end Simulates

end CodeClones.Lowering
