import CodeClones.Grouping.Reduction
import Mathlib.Data.List.Nodup

/-!
# What reduction keeps

`distinct` keeps every location of a group, in the order of the first occurrences. `eliminate`
looks for an earlier group only under the locations of the group at hand; since a group that
lies within another has its own first member there, it finds every non-empty one, and so does
what `eliminatePlain` says.
-/

namespace CodeClones.Grouping

/-! ## First occurrences -/

/-- Dropping what has been seen keeps the order. -/
theorem distinctFrom_sublist (seen : Std.HashSet Location) (group : Group) :
    (distinctFrom seen group).Sublist group := by
  induction group generalizing seen with
  | nil => exact List.Sublist.refl _
  | cons location others ih =>
    unfold distinctFrom
    split
    · exact (ih seen).cons location
    · exact (ih (seen.insert location)).cons_cons location

/-- What is kept is what occurs and has not been seen. -/
theorem mem_distinctFrom {seen : Std.HashSet Location} {group : Group} {location : Location} :
    location ∈ distinctFrom seen group ↔ location ∈ group ∧ location ∉ seen := by
  induction group generalizing seen with
  | nil => simp [distinctFrom]
  | cons first others ih =>
    unfold distinctFrom
    split
    · rename_i repeated
      rw [ih, List.mem_cons]
      constructor
      · exact fun kept => ⟨Or.inr kept.1, kept.2⟩
      · rintro ⟨rfl | member, unseen⟩
        · exact absurd repeated unseen
        · exact ⟨member, unseen⟩
    · rename_i fresh
      rw [List.mem_cons, ih, List.mem_cons, Std.HashSet.mem_insert]
      by_cases same : location = first
      · subst same
        simpa using fresh
      · simp [same, Ne.symm same]

/-- Keeping first occurrences keeps the order. -/
theorem distinct_sublist (group : Group) : (distinct group).Sublist group :=
  distinctFrom_sublist ∅ group

/-- Keeping first occurrences keeps every location. -/
theorem mem_distinct {group : Group} {location : Location} :
    location ∈ distinct group ↔ location ∈ group := by
  simp [distinct, mem_distinctFrom]

/-- A group without repetitions is kept as it is. -/
theorem distinctFrom_eq_self {seen : Std.HashSet Location} {group : Group} (nodup : group.Nodup)
    (fresh : ∀ location ∈ group, location ∉ seen) : distinctFrom seen group = group := by
  induction group generalizing seen with
  | nil => rfl
  | cons first others ih =>
    obtain ⟨new, nodup'⟩ := List.nodup_cons.mp nodup
    have unseen : first ∉ seen := fresh first List.mem_cons_self
    have fresh' : ∀ location ∈ others, location ∉ seen.insert first := by
      intro location member
      rw [Std.HashSet.mem_insert, not_or]
      refine ⟨?_, fresh location (List.mem_cons_of_mem first member)⟩
      rw [beq_iff_eq]
      rintro rfl
      exact new member
    unfold distinctFrom
    rw [if_neg (by simpa using unseen), ih nodup' fresh']

/-- A group without repetitions is kept as it is. -/
theorem distinct_eq_self {group : Group} (nodup : group.Nodup) : distinct group = group :=
  distinctFrom_eq_self nodup (by simp)

/-! ## Groups within groups -/

/-- One group lies within another when all its members are members there. -/
theorem within_iff {part whole : Group} :
    within part whole = true ↔ ∀ location ∈ part, location ∈ whole := by
  simp [within, List.all_eq_true]

/-- A table of first members represents a list of kept groups: under each location stand the
kept groups that begin with it. -/
def Represents (table : FirstMembers) (kept : List Group) : Prop :=
  ∀ first group, group ∈ table.getD first [] ↔ group ∈ kept ∧ group.head? = some first

/-- Nothing is kept at first. -/
theorem represents_empty : Represents ∅ [] := by
  intro first group
  simp

/-- Noting a non-empty group represents one more kept group. -/
theorem Represents.note {table : FirstMembers} {kept : List Group} {group : Group}
    (represents : Represents table kept) (nonempty : group ≠ []) :
    Represents (note table group) (kept ++ [group]) := by
  cases group with
  | nil => exact absurd rfl nonempty
  | cons head tail =>
    intro first other
    simp only [Grouping.note, Std.HashMap.getD_insert, List.mem_append, List.mem_singleton]
    by_cases same : head = first
    · subst same
      simp only [beq_self_eq_true, if_true, List.mem_cons, represents head other]
      constructor
      · rintro (rfl | old)
        · exact ⟨Or.inr rfl, rfl⟩
        · exact ⟨Or.inl old.1, old.2⟩
      · rintro ⟨old | rfl, begins⟩
        · exact Or.inr ⟨old, begins⟩
        · exact Or.inl rfl
    · have different : (head == first) = false := by simpa using same
      simp only [different, Bool.false_eq_true, if_false, represents first other]
      constructor
      · exact fun old => ⟨Or.inl old.1, old.2⟩
      · rintro ⟨old | rfl, begins⟩
        · exact ⟨old, begins⟩
        · exact absurd (Option.some.inj begins) same

/-- The search through first members finds a kept group that lies within the group exactly when
there is one, if no kept group is empty. -/
theorem covered_eq_any {table : FirstMembers} {kept : List Group}
    (represents : Represents table kept) (nonempty : ∀ earlier ∈ kept, earlier ≠ [])
    (group : Group) : covered table group = kept.any fun earlier => within earlier group := by
  rw [Bool.eq_iff_iff]
  simp only [covered, List.any_eq_true, List.all_eq_true, Std.HashSet.contains_ofList,
    List.contains_iff_mem, within_iff]
  constructor
  · rintro ⟨location, _, earlier, listed, inside⟩
    exact ⟨earlier, ((represents location earlier).mp listed).1, inside⟩
  · rintro ⟨earlier, old, inside⟩
    cases earlier with
    | nil => exact absurd rfl (nonempty [] old)
    | cons head tail =>
      exact ⟨head, inside head List.mem_cons_self, head :: tail,
        (represents head (head :: tail)).mpr ⟨old, rfl⟩, inside⟩

/-- Elimination through first members continues a list of kept groups as the plain rule does. -/
theorem eliminatePlainOnto_eq {table : FirstMembers} {kept groups : List Group}
    (represents : Represents table kept) (nonempty : ∀ earlier ∈ kept, earlier ≠ [])
    (nonempty' : ∀ group ∈ groups, group ≠ []) :
    eliminatePlainOnto kept groups = kept ++ eliminateFrom table groups := by
  induction groups generalizing table kept with
  | nil => simp [eliminatePlainOnto, eliminateFrom]
  | cons group others ih =>
    obtain ⟨here, rest⟩ := List.forall_mem_cons.mp nonempty'
    unfold eliminatePlainOnto eliminateFrom
    rw [← covered_eq_any represents nonempty group]
    by_cases found : covered table group = true
    · rw [if_pos found, if_pos found]
      exact ih represents nonempty rest
    · have nonempty'' : ∀ earlier ∈ kept ++ [group], earlier ≠ [] := by
        intro earlier member
        rcases List.mem_append.mp member with old | new
        · exact nonempty earlier old
        · rw [List.mem_singleton.mp new]
          exact here
      rw [if_neg found, if_neg found, ih (represents.note here) nonempty'' rest]
      simp

/-- On non-empty groups, elimination through first members is the plain rule. -/
theorem eliminate_eq_plain {groups : List Group} (nonempty : ∀ group ∈ groups, group ≠ []) :
    eliminate groups = eliminatePlain groups := by
  have continued := eliminatePlainOnto_eq represents_empty (by simp) nonempty
  rw [eliminate, eliminatePlain, continued, List.nil_append]

/-- Elimination only leaves groups out. -/
theorem eliminateFrom_sublist (table : FirstMembers) (groups : List Group) :
    (eliminateFrom table groups).Sublist groups := by
  induction groups generalizing table with
  | nil => exact List.Sublist.refl _
  | cons group others ih =>
    unfold eliminateFrom
    split
    · exact (ih table).cons group
    · exact (ih (note table group)).cons_cons group

end CodeClones.Grouping
