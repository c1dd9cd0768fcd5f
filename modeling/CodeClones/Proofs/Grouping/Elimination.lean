import CodeClones.Proofs.Grouping.Reduction

/-!
# What elimination leaves

Elimination goes through the groups once and keeps each of them unless a group kept before lies
within it. Groups that are kept stay kept: going further only adds groups behind them, so what is
kept of the first groups of a list is the first part of what is kept of all. At the end no kept
group lies within a later one, every group of the list has a kept group within it, and going
through the kept groups again keeps them all.
-/

namespace CodeClones.Grouping

/-- Going on with more groups starts from what was kept of the groups before. -/
theorem eliminatePlainOnto_append (kept front back : List Group) :
    eliminatePlainOnto kept (front ++ back) =
      eliminatePlainOnto (eliminatePlainOnto kept front) back := by
  induction front generalizing kept with
  | nil => rfl
  | cons group others ih =>
    rw [List.cons_append, eliminatePlainOnto, eliminatePlainOnto]
    split
    · exact ih kept
    · exact ih (kept ++ [group])

/-- Groups that are kept stay in front of those that are kept later. -/
theorem prefix_eliminatePlainOnto (kept groups : List Group) :
    kept <+: eliminatePlainOnto kept groups := by
  induction groups generalizing kept with
  | nil => exact List.prefix_refl kept
  | cons group others ih =>
    rw [eliminatePlainOnto]
    split
    · exact ih kept
    · exact (List.prefix_append kept [group]).trans (ih (kept ++ [group]))

/-- What is kept of the first groups is the first part of what is kept of all. -/
theorem eliminatePlain_isPrefix {front groups : List Group} (first : front <+: groups) :
    eliminatePlain front <+: eliminatePlain groups := by
  obtain ⟨back, rfl⟩ := first
  rw [eliminatePlain, eliminatePlain, eliminatePlainOnto_append]
  exact prefix_eliminatePlainOnto _ back

/-- No group of the list lies within a later one. -/
def Irredundant (groups : List Group) : Prop :=
  groups.Pairwise fun earlier later => within earlier later = false

/-- If no kept group lies within a later one, the same holds of all that are kept in the end. -/
theorem Irredundant.eliminatePlainOnto {kept : List Group} (apart : Irredundant kept)
    (groups : List Group) : Irredundant (eliminatePlainOnto kept groups) := by
  induction groups generalizing kept with
  | nil => exact apart
  | cons group others ih =>
    rw [Grouping.eliminatePlainOnto]
    split
    · exact ih apart
    · rename_i free
      apply ih
      have new : ∀ earlier ∈ kept, within earlier group = false := by
        simpa only [List.any_eq_true, not_exists, not_and, Bool.not_eq_true] using free
      refine List.pairwise_append.mpr ⟨apart, List.pairwise_singleton _ group, ?_⟩
      intro earlier old later last
      rw [List.mem_singleton.mp last]
      exact new earlier old

/-- Every group that is gone through has a kept group within it. -/
theorem exists_within_eliminatePlainOnto {groups : List Group} (kept : List Group) {group : Group}
    (member : group ∈ groups) :
    ∃ earlier ∈ eliminatePlainOnto kept groups, within earlier group = true := by
  obtain ⟨front, back, rfl⟩ := List.append_of_mem member
  rw [eliminatePlainOnto_append, eliminatePlainOnto]
  split
  · rename_i found
    obtain ⟨earlier, old, inside⟩ := List.any_eq_true.mp found
    exact ⟨earlier, (prefix_eliminatePlainOnto _ back).mem old, inside⟩
  · have last : group ∈ eliminatePlainOnto kept front ++ [group] :=
      List.mem_append_right _ (List.mem_singleton_self group)
    exact ⟨group, (prefix_eliminatePlainOnto _ back).mem last, within_iff.mpr fun _ => id⟩

/-- If no group lies within a later one, all are kept. -/
theorem Irredundant.eliminatePlainOnto_eq {kept groups : List Group}
    (apart : Irredundant (kept ++ groups)) :
    Grouping.eliminatePlainOnto kept groups = kept ++ groups := by
  induction groups generalizing kept with
  | nil => exact (List.append_nil kept).symm
  | cons group others ih =>
    have free : (kept.any fun earlier => within earlier group) = false := by
      rw [List.any_eq_false]
      intro earlier old
      have outside := (List.pairwise_append.mp apart).2.2 earlier old group List.mem_cons_self
      exact Bool.eq_false_iff.mp outside
    rw [List.append_cons] at apart
    rw [Grouping.eliminatePlainOnto, free, if_neg Bool.false_ne_true, ih apart, ← List.append_cons]

/-- For groups that are not empty, whatever they have in common, elimination through first members
keeps exactly the groups that the plain rule keeps. They are some of the groups, in order; no kept
group has all its members in a later one, every group has all members of some kept group, and
eliminating again changes nothing. -/
theorem eliminate_survivors (groups : List Group) (nonempty : ∀ group ∈ groups, group ≠ []) :
    eliminate groups = eliminatePlain groups ∧
    (eliminate groups).Sublist groups ∧
    (eliminate groups).Pairwise (fun earlier later => ¬ ∀ location ∈ earlier, location ∈ later) ∧
    (∀ group ∈ groups, ∃ kept ∈ eliminate groups, ∀ location ∈ kept, location ∈ group) ∧
    eliminate (eliminate groups) = eliminate groups := by
  have plain := eliminate_eq_plain nonempty
  have part : (eliminate groups).Sublist groups := eliminateFrom_sublist ∅ groups
  have apart : Irredundant (eliminate groups) := by
    rw [plain]
    exact Irredundant.eliminatePlainOnto List.Pairwise.nil groups
  have again : eliminate (eliminate groups) = eliminate groups := by
    rw [eliminate_eq_plain fun group kept => nonempty group (part.mem kept)]
    exact Irredundant.eliminatePlainOnto_eq apart
  refine ⟨plain, part, ?_, ?_, again⟩
  · refine apart.imp fun outside inside => ?_
    exact Bool.eq_false_iff.mp outside (within_iff.mpr inside)
  · intro group member
    obtain ⟨kept, stays, inside⟩ := exists_within_eliminatePlainOnto [] member
    rw [plain]
    exact ⟨kept, stays, within_iff.mp inside⟩

/-- Of overlapping groups, the one that repeats the first with another member is left out, and the
one that shares only a member with it is kept. -/
theorem eliminate_survivors_overlapping :
    (∀ group ∈ [[⟨"f", 0, 1⟩, ⟨"f", 2, 3⟩], [⟨"f", 4, 5⟩, ⟨"f", 2, 3⟩, ⟨"f", 0, 1⟩],
      [⟨"f", 2, 3⟩, ⟨"f", 6, 7⟩, ⟨"f", 6, 7⟩]], group ≠ ([] : Group)) ∧
    eliminate [[⟨"f", 0, 1⟩, ⟨"f", 2, 3⟩], [⟨"f", 4, 5⟩, ⟨"f", 2, 3⟩, ⟨"f", 0, 1⟩],
        [⟨"f", 2, 3⟩, ⟨"f", 6, 7⟩, ⟨"f", 6, 7⟩]] =
      [[⟨"f", 0, 1⟩, ⟨"f", 2, 3⟩], [⟨"f", 2, 3⟩, ⟨"f", 6, 7⟩, ⟨"f", 6, 7⟩]] := by
  have nonempty : ∀ group ∈ [[⟨"f", 0, 1⟩, ⟨"f", 2, 3⟩],
      [⟨"f", 4, 5⟩, ⟨"f", 2, 3⟩, ⟨"f", 0, 1⟩], [⟨"f", 2, 3⟩, ⟨"f", 6, 7⟩, ⟨"f", 6, 7⟩]],
      group ≠ ([] : Group) := by
    decide
  refine ⟨nonempty, (eliminate_survivors _ nonempty).1.trans ?_⟩
  decide

end CodeClones.Grouping
