import CodeClones.Text.Bytes

/-!
# Slices as parts of a text

A byte offset is a boundary exactly when the text falls into two parts there, and a slice
between two offsets is the middle one of three parts. These readings say what slicing means
without positions, so that facts about neighbouring ranges become facts about concatenation.
-/

namespace CodeClones.Text

/-- The size of a joined text is the sum of the sizes of its parts. -/
@[simp]
theorem size_append (front back : String) : size (front ++ back) = size front + size back :=
  String.utf8ByteSize_append

/-- One more character in front of a text adds its own size. -/
theorem size_ofList_cons (character : Char) (others : List Char) :
    size (String.ofList (character :: others)) =
      character.utf8Size + size (String.ofList others) := by
  rw [← List.singleton_append, String.ofList_append, size_append]
  simp [size]

/-- The position found for an offset is the one that has this offset. -/
theorem pos?_eq_some_iff {text : String} {offset : Nat} {position : text.Pos} :
    text.pos? ⟨offset⟩ = some position ↔ position.offset = ⟨offset⟩ := by
  constructor
  · intro found
    simp only [String.pos?, String.Slice.pos?, Option.map_eq_some_iff,
      Option.dite_none_right_eq_some, Option.some.injEq] at found
    obtain ⟨inner, ⟨valid, rfl⟩, rfl⟩ := found
    rfl
  · intro same
    have valid : (⟨offset⟩ : String.Pos.Raw).IsValid text := same ▸ position.isValid
    simp only [String.pos?, String.Slice.pos?, String.Pos.Raw.isValidForSlice_eq_true_iff,
      String.Pos.Raw.isValidForSlice_toSlice_iff, dif_pos valid, Option.map_some, Option.some.injEq]
    exact String.Pos.ext same.symm

/-- The part in front of a position is as long as the offset for which the position was found. -/
theorem size_eq_of_splits {text front back : String} {offset : Nat} {position : text.Pos}
    (found : text.pos? ⟨offset⟩ = some position) (cut : position.Splits front back) :
    size front = offset :=
  congrArg String.Pos.Raw.byteIdx
    (cut.offset_eq_rawEndPos.symm.trans (pos?_eq_some_iff.mp found))

/-- Where a text falls into two parts, a position is found that cuts it into them. -/
theorem exists_pos?_splits {text front back : String} (parts : text = front ++ back) :
    ∃ position : text.Pos, text.pos? ⟨size front⟩ = some position ∧
      position.Splits front back := by
  have valid : (⟨size front⟩ : String.Pos.Raw).IsValid text :=
    String.Pos.Raw.isValid_iff_exists_append.mpr ⟨front, back, parts, rfl⟩
  exact ⟨text.pos _ valid, pos?_eq_some_iff.mpr rfl, parts, rfl⟩

/-- Positions are ordered as the offsets for which they were found. -/
theorem pos?_le_iff {text : String} {start stop : Nat} {first last : text.Pos}
    (foundFirst : text.pos? ⟨start⟩ = some first) (foundLast : text.pos? ⟨stop⟩ = some last) :
    first ≤ last ↔ start ≤ stop := by
  change first.offset.byteIdx ≤ last.offset.byteIdx ↔ start ≤ stop
  rw [pos?_eq_some_iff.mp foundFirst, pos?_eq_some_iff.mp foundLast]

/-- An offset is a boundary exactly when the text falls into two parts there. -/
theorem isBoundary_iff {text : String} {offset : Nat} :
    isBoundary text offset = true ↔ ∃ front back, text = front ++ back ∧ size front = offset := by
  rw [isBoundary, Option.isSome_iff_exists]
  constructor
  · rintro ⟨position, found⟩
    exact ⟨_, _, position.splits.eq_append, size_eq_of_splits found position.splits⟩
  · rintro ⟨front, back, parts, rfl⟩
    obtain ⟨position, found, _⟩ := exists_pos?_splits parts
    exact ⟨position, found⟩

/-- Of two ways to cut a text in two, the one that cuts later takes a middle part over. -/
theorem exists_middle {front back front' back' : String} (same : front ++ back = front' ++ back')
    (ordered : size front ≤ size front') :
    ∃ middle, front' = front ++ middle ∧ back = middle ++ back' := by
  obtain ⟨first, foundFirst, cut⟩ := exists_pos?_splits (rfl : front ++ back = front ++ back)
  obtain ⟨last, foundLast, cut'⟩ := exists_pos?_splits same
  exact (cut.le_iff_exists_eq_append cut').mp ((pos?_le_iff foundFirst foundLast).mpr ordered)

/-- Two ways to cut a text in two at one place are the same. -/
theorem append_inj_of_size {front back front' back' : String}
    (same : front ++ back = front' ++ back') (sizes : size front = size front') :
    front = front' ∧ back = back' := by
  obtain ⟨middle, rfl, rfl⟩ := exists_middle same (Nat.le_of_eq sizes)
  obtain rfl : middle = "" := by
    rw [size_append] at sizes
    have nothing : middle.utf8ByteSize = 0 := by
      change size middle = 0
      omega
    exact String.utf8ByteSize_eq_zero_iff.mp nothing
  exact ⟨String.append_empty.symm, String.empty_append⟩

/-- The slice between two offsets is the middle one of three parts of the text. -/
theorem slice?_eq_some_iff {text piece : String} {start stop : Nat} :
    slice? text start stop = some piece ↔
      ∃ front back, text = front ++ piece ++ back ∧ size front = start ∧
        start + size piece = stop := by
  constructor
  · intro sliced
    unfold slice? at sliced
    split at sliced
    · rename_i ordered
      split at sliced
      · rename_i first last foundFirst foundLast
        have below : first ≤ last := (pos?_le_iff foundFirst foundLast).mpr ordered
        rw [String.extract_eq_copy_slice first last below, Option.some.injEq] at sliced
        obtain ⟨front, back, cut, cut'⟩ := String.copy_slice_eq_iff_splits.mp ⟨below, sliced⟩
        have atStart := size_eq_of_splits foundFirst cut
        have atStop := size_eq_of_splits foundLast cut'
        rw [size_append, atStart] at atStop
        exact ⟨front, back, cut'.eq_append, atStart, atStop⟩
      · contradiction
    · contradiction
  · rintro ⟨front, back, parts, rfl, rfl⟩
    have parts' : text = front ++ (piece ++ back) := parts.trans String.append_assoc
    obtain ⟨first, foundFirst, cut⟩ := exists_pos?_splits parts'
    obtain ⟨last, foundLast, cut'⟩ := exists_pos?_splits parts
    obtain ⟨below, copied⟩ := String.copy_slice_eq_iff_splits.mpr ⟨front, back, cut, cut'⟩
    rw [size_append] at foundLast
    simp only [slice?, Nat.le_add_right, if_true, foundFirst, foundLast]
    rw [String.extract_eq_copy_slice first last below, copied]

/-- Between two boundaries in order there is a slice. -/
theorem exists_slice? {text : String} {start stop : Nat} (ordered : start ≤ stop)
    (first : isBoundary text start = true) (last : isBoundary text stop = true) :
    ∃ piece, slice? text start stop = some piece := by
  obtain ⟨front, back, parts, rfl⟩ := isBoundary_iff.mp first
  obtain ⟨front', back', parts', rfl⟩ := isBoundary_iff.mp last
  obtain ⟨piece, rfl, rfl⟩ := exists_middle (parts.symm.trans parts') ordered
  exact ⟨piece, slice?_eq_some_iff.mpr ⟨front, back', parts', rfl, (size_append _ _).symm⟩⟩

/-- The two ends of a slice are boundaries. -/
theorem isBoundary_of_slice? {text piece : String} {start stop : Nat}
    (sliced : slice? text start stop = some piece) :
    isBoundary text start = true ∧ isBoundary text stop = true := by
  obtain ⟨front, back, parts, rfl, rfl⟩ := slice?_eq_some_iff.mp sliced
  refine ⟨isBoundary_iff.mpr ⟨front, piece ++ back, ?_, rfl⟩,
    isBoundary_iff.mpr ⟨front ++ piece, back, parts, size_append front piece⟩⟩
  rw [parts, String.append_assoc]

/-- Two slices that meet make up one slice. -/
theorem slice?_append {text first second : String} {start middle stop : Nat}
    (front : slice? text start middle = some first)
    (back : slice? text middle stop = some second) :
    slice? text start stop = some (first ++ second) := by
  obtain ⟨before, behind, parts, rfl, rfl⟩ := slice?_eq_some_iff.mp front
  obtain ⟨before', behind', parts', sizes, rfl⟩ := slice?_eq_some_iff.mp back
  have same : (before ++ first) ++ behind = before' ++ (second ++ behind') := by
    rw [← parts, parts', String.append_assoc]
  obtain ⟨rfl, -⟩ := append_inj_of_size same ((size_append before first).trans sizes.symm)
  refine slice?_eq_some_iff.mpr ⟨before, behind', ?_, rfl, ?_⟩
  · rw [parts', ← String.append_assoc]
  · rw [size_append, ← Nat.add_assoc]

/-- A slice that begins with the second part of a text is at the front of that part. -/
theorem slice?_append_iff {front rest piece : String} {stop : Nat} :
    slice? (front ++ rest) (size front) stop = some piece ↔
      ∃ back, rest = piece ++ back ∧ size front + size piece = stop := by
  rw [slice?_eq_some_iff]
  constructor
  · rintro ⟨front', back, same, sizes, total⟩
    rw [String.append_assoc] at same
    exact ⟨back, (append_inj_of_size same sizes.symm).2, total⟩
  · rintro ⟨back, rfl, total⟩
    exact ⟨front, back, String.append_assoc.symm, rfl, total⟩

/-- The text from an offset on is its last part. -/
theorem suffix?_eq_some_iff {text rest : String} {start : Nat} :
    suffix? text start = some rest ↔ ∃ front, text = front ++ rest ∧ size front = start := by
  rw [suffix?, slice?_eq_some_iff]
  constructor
  · rintro ⟨front, back, rfl, rfl, whole⟩
    have cut : (front ++ rest) ++ back = (front ++ rest ++ back) ++ "" := String.append_empty.symm
    have sizes : size (front ++ rest) = size (front ++ rest ++ back) := by
      rw [← whole, size_append]
    exact ⟨front, (append_inj_of_size cut sizes).1.symm, rfl⟩
  · rintro ⟨front, rfl, rfl⟩
    exact ⟨front, "", String.append_empty.symm, rfl, (size_append front rest).symm⟩

/-- A part at the front of a text holds only characters of a class exactly when it is no longer
than the run of such characters at the front. -/
theorem all_iff_size_le_takeWhile (belongs : Char → Bool) (piece back : List Char) :
    (∀ character ∈ piece, belongs character = true) ↔
      size (String.ofList piece) ≤ size (String.ofList ((piece ++ back).takeWhile belongs)) := by
  induction piece with
  | nil => simp [size]
  | cons character others ih =>
    have positive := character.utf8Size_pos
    by_cases inClass : belongs character = true
    · simp only [List.forall_mem_cons, inClass, true_and, ih, List.cons_append,
        List.takeWhile_cons_of_pos, size_ofList_cons]
      omega
    · have nothing : size (String.ofList []) = 0 := by simp [size]
      simp only [List.forall_mem_cons, inClass, false_and, List.cons_append, size_ofList_cons,
        List.takeWhile_cons, if_false, Bool.false_eq_true, false_iff, nothing]
      omega

end CodeClones.Text
