import CodeClones.Files.Path
import CodeClones.Proofs.Text.Lines

/-!
# Components of paths

How the components of a path follow from its text: the text is cut at its slashes, and what is
cut off at the front or put together again keeps its components. Backslashes that are read as
slashes cut names further, and nothing but the components of a path decides into what.
-/

namespace CodeClones.Path

open CodeClones.Text

/-! ## Texts and their parts -/

/-- The parts of a path are what lies between its slashes. -/
theorem parts_eq_splitOn (path : String) :
    parts path = (path.toList.splitOn '/').map String.ofList := by
  rw [parts, pieces_eq_splitOn]

/-- Every path has a part, if only an empty one. -/
theorem parts_ne_nil (path : String) : parts path ≠ [] := by
  rw [parts_eq_splitOn]
  intro empty
  exact List.splitOn_ne_nil _ _ (List.map_eq_nil_iff.mp empty)

/-- Paths joined by a slash have the parts of both. -/
theorem parts_append (front back : String) :
    parts (front ++ "/" ++ back) = parts front ++ parts back := by
  have flat : (front ++ "/" ++ back).toList = front.toList ++ '/' :: back.toList := by
    simp
  rw [parts_eq_splitOn, flat, List.splitOn_append_cons_self, List.map_append, ← parts_eq_splitOn,
    ← parts_eq_splitOn]

/-- A text without a slash is its only part. -/
theorem parts_eq_singleton {text : String} (whole : '/' ∉ text.toList) : parts text = [text] := by
  rw [parts_eq_splitOn, List.splitOn_eq_singleton whole, List.map_singleton, String.ofList_toList]

/-- The first part stands before a slash and the other parts. -/
theorem ofParts_cons {part : String} {others : List String} (nonempty : others ≠ []) :
    ofParts (part :: others) = part ++ "/" ++ ofParts others :=
  String.intercalate_cons_of_ne_nil nonempty

/-- One part alone is the path. -/
@[simp]
theorem ofParts_singleton (part : String) : ofParts [part] = part :=
  String.intercalate_singleton

/-- The path of two lists of parts is their two paths with a slash in between. -/
theorem ofParts_append {front back : List String} (nonempty : front ≠ []) (more : back ≠ []) :
    ofParts (front ++ back) = ofParts front ++ "/" ++ ofParts back :=
  String.intercalate_append_of_ne_nil nonempty more

/-- The characters of a path are those of its parts, with slashes in between. -/
theorem toList_ofParts (pieces : List String) :
    (ofParts pieces).toList = ['/'].intercalate (pieces.map String.toList) := by
  rw [ofParts, String.toList_intercalate]
  rfl

/-- A path is put together from its parts. -/
theorem ofParts_parts (path : String) : ofParts (parts path) = path := by
  apply String.toList_injective
  rw [toList_ofParts, parts_eq_splitOn, List.map_map]
  simp [Function.comp_def]

/-- No part of a path holds a slash. -/
theorem slash_not_mem_of_mem_parts {path part : String} (member : part ∈ parts path) :
    '/' ∉ part.toList := by
  obtain ⟨piece, inside, rfl⟩ := List.mem_map.mp member
  rw [String.toList_ofList]
  exact notMem_of_mem_pieces inside

/-- Parts without slashes are the parts of the path that they are put together to. -/
theorem parts_ofParts {pieces : List String} (nonempty : pieces ≠ [])
    (whole : ∀ piece ∈ pieces, '/' ∉ piece.toList) : parts (ofParts pieces) = pieces := by
  have split : (['/'].intercalate (pieces.map String.toList)).splitOn '/' =
      pieces.map String.toList := by
    refine List.splitOn_intercalate '/' ?_ ?_
    · intro characters member
      obtain ⟨piece, inside, rfl⟩ := List.mem_map.mp member
      exact whole piece inside
    · rwa [ne_eq, List.map_eq_nil_iff]
  rw [parts_eq_splitOn, toList_ofParts, split, List.map_map]
  simp [Function.comp_def]

/-! ## Backslashes read as slashes -/

/-- Backslashes are replaced character by character. -/
theorem withSlashes_append (front back : String) :
    withSlashes (front ++ back) = withSlashes front ++ withSlashes back := by
  simp only [withSlashes, String.toList_append, List.map_append, String.ofList_append]

/-- Reading backslashes as slashes cuts each part of a path further. -/
theorem parts_withSlashes_ofParts {pieces : List String} (nonempty : pieces ≠ []) :
    parts (withSlashes (ofParts pieces)) =
      pieces.flatMap fun piece => parts (withSlashes piece) := by
  induction pieces with
  | nil => exact absurd rfl nonempty
  | cons piece others ih =>
    cases others with
    | nil => simp
    | cons next rest =>
      have slash : withSlashes "/" = "/" := by decide
      rw [ofParts_cons (List.cons_ne_nil _ _), withSlashes_append, withSlashes_append, slash,
        parts_append, ih (List.cons_ne_nil _ _)]
      rfl

/-- The components that parts behind the first one make. -/
def steps (parts : List String) : List Component :=
  parts.filterMap step?

/-- The steps of two lists of parts are the steps of one and then those of the other. -/
theorem steps_append (front back : List String) :
    steps (front ++ back) = steps front ++ steps back :=
  List.filterMap_append

/-- What becomes of a component behind the first when its backslashes are read as slashes. -/
def Component.slashed : Component → List Component
  | .named name => steps (parts (withSlashes name))
  | other => [other]

/-- What becomes of the first component of a path when its backslashes are read as slashes. -/
def Component.slashedFirst : Component → List Component
  | .named name => components (withSlashes name)
  | other => [other]

/-- What becomes of the components of a path when its backslashes are read as slashes. -/
def slashedComponents : List Component → List Component
  | [] => []
  | first :: others => first.slashedFirst ++ others.flatMap Component.slashed

/-- Behind its first component a path is rewritten component by component. -/
theorem slashedComponents_append {front : List Component} (nonempty : front ≠ [])
    (back : List Component) :
    slashedComponents (front ++ back) =
      slashedComponents front ++ back.flatMap Component.slashed := by
  cases front with
  | nil => exact absurd rfl nonempty
  | cons first others =>
    simp only [slashedComponents, List.cons_append, List.flatMap_append, List.append_assoc]

/-- A part whose backslashes became slashes makes the steps that its own step is cut into. -/
theorem steps_parts_withSlashes (part : String) :
    steps (parts (withSlashes part)) = (step? part).toList.flatMap Component.slashed := by
  by_cases idle : isIdle part = true
  · have none : step? part = none := by rw [step?, if_pos idle]
    rw [none]
    rw [isIdle, Bool.or_eq_true, beq_iff_eq, beq_iff_eq] at idle
    rcases idle with rfl | rfl <;> decide
  · by_cases up : part = ".."
    · rw [up]
      decide
    · have named : step? part = some (.named part) := by rw [step?, if_neg idle, if_neg up]
      rw [named]
      simp [Component.slashed]

/-- Behind the first part, the components alone decide what becomes of a path. -/
theorem steps_withSlashes_ofParts {pieces : List String} (nonempty : pieces ≠ []) :
    steps (parts (withSlashes (ofParts pieces))) = (steps pieces).flatMap Component.slashed := by
  have each : ∀ pieces : List String,
      steps (pieces.flatMap fun piece => parts (withSlashes piece)) =
        (steps pieces).flatMap Component.slashed := by
    intro pieces
    induction pieces with
    | nil => rfl
    | cons piece others ih =>
      rw [List.flatMap_cons, steps_append, ih, steps_parts_withSlashes, ← List.flatMap_append]
      congr 1
      cases made : step? piece <;> simp [steps, made]
  rw [parts_withSlashes_ofParts nonempty, each]

/-! ## Components of a text -/

/-- Behind the root of an absolute path stand the steps of its parts. -/
theorem components_slash (back : String) :
    components ("/" ++ back) = .root :: steps (parts back) := by
  have split : parts ("/" ++ back) = "" :: parts back := by
    have empty : parts "" = [""] := by decide
    have cut := parts_append "" back
    rw [empty] at cut
    simpa using cut
  have absolute : isAbsolute ("/" ++ back) = true := by
    simp [isAbsolute]
  simp only [components, segments, split, absolute, if_true, steps, List.filterMap_cons,
    List.filterMap_map]
  rfl

/-- What is put behind a path adds its steps to the components. -/
theorem components_append {front : String} (nonempty : front ≠ "") (back : String) :
    components (front ++ "/" ++ back) = components front ++ steps (parts back) := by
  have absolute : isAbsolute (front ++ "/" ++ back) = isAbsolute front := by
    cases found : front.toList with
    | nil => exact absurd (String.toList_eq_nil_iff.mp found) nonempty
    | cons character others => simp [isAbsolute, found]
  cases found : parts front with
  | nil => exact absurd found (parts_ne_nil front)
  | cons first others =>
    simp only [components, segments, parts_append, found, absolute, List.cons_append, steps,
      List.map_append, List.filterMap_cons, List.filterMap_append, List.filterMap_map]
    split <;> rfl

/-- A part that is not empty makes one component at the front of a path. -/
theorem exists_components_eq_singleton {part : String} (whole : '/' ∉ part.toList)
    (nonempty : part ≠ "") :
    ∃ component, components part = [component] ∧
      components (withSlashes part) = component.slashedFirst := by
  have relative : isAbsolute part = false := by
    cases found : part.toList with
    | nil => simp [isAbsolute, found]
    | cons character others =>
      rw [found, List.mem_cons, not_or] at whole
      simp [isAbsolute, found, Ne.symm whole.1]
  by_cases here : part = "."
  · exact ⟨.current, by rw [here]; decide, by rw [here]; decide⟩
  · by_cases up : part = ".."
    · exact ⟨.parent, by rw [up]; decide, by rw [up]; decide⟩
    · refine ⟨.named part, ?_, rfl⟩
      simp [components, segments, parts_eq_singleton whole, relative, here, step?, isIdle, nonempty,
        up]

/-- Reading backslashes as slashes turns paths of the same components into such. -/
theorem components_withSlashes (path : String) :
    components (withSlashes path) = slashedComponents (components path) := by
  have whole : ∀ part ∈ parts path, '/' ∉ part.toList := fun _ => slash_not_mem_of_mem_parts
  have joined := ofParts_parts path
  have slash : withSlashes "/" = "/" := by decide
  cases found : parts path with
  | nil => exact absurd found (parts_ne_nil path)
  | cons first others =>
    rw [found] at whole joined
    have single := whole first List.mem_cons_self
    cases others with
    | nil =>
      rw [ofParts_singleton] at joined
      subst joined
      by_cases empty : first = ""
      · rw [empty]
        decide
      · obtain ⟨component, alone, slashed⟩ := exists_components_eq_singleton single empty
        rw [slashed, alone, slashedComponents, List.flatMap_nil, List.append_nil]
    | cons next rest =>
      have more : next :: rest ≠ [] := List.cons_ne_nil _ _
      have behind := parts_ofParts more fun part member =>
        whole part (List.mem_cons_of_mem _ member)
      have slashedBehind := steps_withSlashes_ofParts more
      rw [ofParts_cons more] at joined
      rw [← joined, withSlashes_append, withSlashes_append, slash]
      by_cases empty : first = ""
      · have front : withSlashes "" = "" := by decide
        rw [empty, front, String.empty_append, components_slash, components_slash, behind,
          slashedBehind]
        rfl
      · obtain ⟨component, alone, slashed⟩ := exists_components_eq_singleton single empty
        have filled : withSlashes first ≠ "" := by
          intro none
          rw [withSlashes, ← String.toList_eq_nil_iff, String.toList_ofList, List.map_eq_nil_iff,
            String.toList_eq_nil_iff] at none
          exact empty none
        rw [components_append filled, components_append empty, slashed, alone, behind,
          slashedBehind, slashedComponents_append (List.cons_ne_nil _ _), slashedComponents,
          List.flatMap_nil, List.append_nil]

end CodeClones.Path
