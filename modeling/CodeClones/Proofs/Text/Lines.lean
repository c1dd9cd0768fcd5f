import CodeClones.Proofs.Text.Slices
import CodeClones.Text.Indentation

/-!
# Line feeds

Lines are counted in two ways that do not know of each other. A line index looks for the byte of a
line feed among the bytes of a text. Removing the common indentation cuts the characters of a text
into lines and joins them again. Both come down to the number of line feeds: no other character has
the byte of a line feed in its encoding, and a text that does not end in a line feed keeps all of
them when its lines are joined again.
-/

namespace CodeClones.Text

/-! ## Bytes -/

/-- The bytes of a text are those of its characters in turn. -/
theorem bytes_ofList (characters : List Char) :
    bytes (String.ofList characters) = characters.flatMap String.utf8EncodeChar := by
  simp [bytes, List.utf8Encode]

/-- The bytes of a text follow those of the text before it. -/
theorem bytes_append (front back : String) : bytes (front ++ back) = bytes front ++ bytes back := by
  simp [bytes]

/-- The size of a text is the number of its bytes. -/
theorem length_bytes (text : String) : (bytes text).length = size text := by
  simp [bytes, size]

/-- Of all characters only the line feed has its byte in its encoding. -/
theorem count_utf8EncodeChar (character : Char) :
    (String.utf8EncodeChar character).count 10 = if character = '\n' then 1 else 0 := by
  have coded : character = '\n' ↔ character.val.toNat = 10 := by
    rw [Char.ext_iff, ← UInt32.toNat_inj]
    rfl
  have byte : ∀ code, (UInt8.ofNat code == 10) = decide (code % 256 = 10) := by
    intro code
    rw [Bool.eq_iff_iff, beq_iff_eq, decide_eq_true_iff, ← UInt8.toNat_inj, UInt8.toNat_ofNat']
    rfl
  fun_cases String.utf8EncodeChar character
  all_goals
    simp only [List.count_cons, List.count_nil, byte, decide_eq_true_iff, coded]
    grind

/-- The line feeds of a text are those of its bytes. -/
theorem count_bytes (text : String) : (bytes text).count 10 = text.toList.count '\n' := by
  rw [← String.ofList_toList (s := text), bytes_ofList, String.toList_ofList]
  induction text.toList with
  | nil => rfl
  | cons character others ih =>
    rw [List.flatMap_cons, List.count_append, count_utf8EncodeChar, ih, List.count_cons]
    simp only [beq_iff_eq]
    omega

/-- Number of line feeds among the first bytes of a text. -/
def feedsBefore (text : String) (offset : Nat) : Nat :=
  ((bytes text).take offset).count 10

/-- Before the end of the first of two parts stand the line feeds of this part. -/
theorem feedsBefore_append (front back : String) :
    feedsBefore (front ++ back) (size front) = front.toList.count '\n' := by
  rw [feedsBefore, bytes_append, ← length_bytes, List.take_left, count_bytes]

/-- The last byte of a text is no line feed if its last character is none. -/
theorem feedsBefore_pred_size {text : String} (unended : text.toList.getLast? ≠ some '\n')
    (back : String) :
    feedsBefore (text ++ back) (size text - 1) = text.toList.count '\n' := by
  have shorter : size text - 1 ≤ (bytes text).length := by
    rw [length_bytes]
    omega
  rw [feedsBefore, bytes_append, List.take_append_of_le_length shorter, ← length_bytes,
    ← List.dropLast_eq_take, ← count_bytes]
  rw [← String.ofList_toList (s := text), bytes_ofList]
  rcases List.eq_nil_or_concat text.toList with nothing | ⟨others, last, split⟩
  · rw [nothing]
    rfl
  · have other : last ≠ '\n' := by
      rintro rfl
      exact unended (by rw [split]; simp)
    -- Dropping the last byte drops one of the last character, none of which is a line feed.
    have silent : ∀ kept : List UInt8, kept.Sublist (String.utf8EncodeChar last) → kept.count 10 = 0 := by
      intro kept among
      have fewer := among.count_le 10
      rw [count_utf8EncodeChar, if_neg other] at fewer
      omega
    rw [split, List.concat_eq_append, List.flatMap_append, List.flatMap_singleton,
      List.dropLast_append_of_ne_nil String.utf8EncodeChar_ne_nil, List.count_append,
      List.count_append, silent _ (List.dropLast_sublist _), silent _ (List.Sublist.refl _)]

/-! ## The line index -/

/-- If of any two numbers in a row the second one passes a test only if the first one does, the
partition point is how many of them pass. -/
theorem partitionPoint_eq_countP {test : Nat → Bool} {numbers : List Nat}
    (partitioned : numbers.Pairwise fun first second => test second = true → test first = true) :
    partitionPoint test numbers = numbers.countP test := by
  induction numbers with
  | nil => rfl
  | cons number others ih =>
    obtain ⟨behind, later⟩ := List.pairwise_cons.mp partitioned
    unfold partitionPoint at ih ⊢
    by_cases passes : test number = true
    · rw [List.takeWhile_cons_of_pos passes, List.length_cons, ih later,
        List.countP_cons_of_pos passes]
    · have none : others.countP test = 0 :=
        List.countP_eq_zero.mpr fun other member also => passes (behind other member also)
      rw [List.takeWhile_cons_of_neg passes, List.length_nil, List.countP_cons_of_neg passes, none]

/-- The recorded line feeds before an offset, with the bytes numbered from any number on. -/
theorem countP_feeds (data : List UInt8) (first offset : Nat) :
    (((data.zipIdx first).filter fun entry => entry.1 == 10).map (·.2)).countP
        (· < first + offset) = (data.take offset).count 10 := by
  induction data generalizing first offset with
  | nil => simp
  | cons byte others ih =>
    cases offset with
    | zero =>
      have none : ∀ entry ∈ (byte :: others).zipIdx first, ¬ entry.2 < first + 0 := by
        intro entry member
        have := List.le_snd_of_mem_zipIdx member
        omega
      simp only [List.take_zero, List.count_nil, List.countP_eq_zero, List.mem_map, List.mem_filter,
        decide_eq_true_iff]
      rintro number ⟨entry, ⟨member, -⟩, rfl⟩
      exact none entry member
    | succ offset =>
      have later := ih (first + 1) offset
      rw [Nat.add_assoc, Nat.add_comm 1 offset] at later
      rw [List.zipIdx_cons, List.filter_cons, List.take_succ_cons, List.count_cons, ← later]
      split
      · simp [*]
      · simp [*]

namespace LineIndex

/-- The line feeds of a text are recorded in ascending order. -/
theorem feeds_ascending (text : String) : (ofText text).feeds.Pairwise (· < ·) := by
  have numbered : (((bytes text).zipIdx).map (·.2)).Pairwise (· < ·) := by
    rw [List.zipIdx_map_snd]
    exact List.pairwise_lt_range'
  exact numbered.sublist (List.filter_sublist.map _)

/-- Among the recorded line feeds, those before an offset stand first. -/
theorem feeds_partitioned (text : String) (offset : Nat) :
    (ofText text).feeds.Pairwise fun first second =>
      decide (second < offset) = true → decide (first < offset) = true := by
  refine (feeds_ascending text).imp fun {first second} ordered below => ?_
  rw [decide_eq_true_iff] at below ⊢
  omega

/-- In a text that is not empty, an offset lies behind the line feeds before it. -/
theorem lineOf_ofText {text : String} (filled : Text.size text ≠ 0) (offset : Nat) :
    (ofText text).lineOf offset = feedsBefore text offset + 1 := by
  have counted := countP_feeds (bytes text) 0 offset
  rw [Nat.zero_add] at counted
  rw [lineOf, if_neg (show (ofText text).size ≠ 0 from filled),
    partitionPoint_eq_countP (feeds_partitioned text offset), feedsBefore, ← counted]
  rfl

/-- No offset lies behind the last line. -/
theorem feedsBefore_lt_lineCount {text : String} (filled : Text.size text ≠ 0) (offset : Nat) :
    feedsBefore text offset < (ofText text).lineCount := by
  have length : (ofText text).feeds.length = (bytes text).count 10 := by
    have counted := countP_feeds (bytes text) 0 (bytes text).length
    rw [List.take_length] at counted
    rw [← counted, List.countP_eq_length_filter, List.filter_eq_self.mpr]
    · rfl
    · intro number member
      obtain ⟨entry, inside, rfl⟩ := List.mem_map.mp member
      have := List.snd_lt_of_mem_zipIdx (List.mem_filter.mp inside).1
      simpa using this
  have fewer : feedsBefore text offset ≤ (bytes text).count 10 :=
    (List.take_sublist offset (bytes text)).count_le 10
  rw [lineCount, if_neg (show (ofText text).size ≠ 0 from filled), length]
  omega

end LineIndex

/-! ## Lines of characters -/

variable {separator : Char} {characters : List Char} {found : List (List Char)}

/-- The pieces between separators are those of the library's split. -/
theorem pieces_eq_splitOn (separator : Char) (characters : List Char) :
    pieces separator characters = characters.splitOn separator := by
  induction characters with
  | nil => rfl
  | cons character others ih =>
    rw [pieces, List.foldr_cons, ← pieces, ih, List.splitOn_cons_eq_if_modifyHead]
    by_cases same : character = separator
    · rw [if_pos same, if_pos (beq_iff_eq.mpr same)]
    · rw [if_neg same, if_neg (by rwa [beq_iff_eq])]
      cases found : others.splitOn separator with
      | nil => exact absurd found (List.splitOn_ne_nil _ _)
      | cons piece rest => rfl

/-- There is a piece, if only an empty one. -/
theorem pieces_ne_nil (separator : Char) (characters : List Char) :
    pieces separator characters ≠ [] := by
  rw [pieces_eq_splitOn]
  exact List.splitOn_ne_nil _ _

/-- No piece holds a separator. -/
theorem notMem_of_mem_pieces {piece : List Char} (member : piece ∈ pieces separator characters) :
    separator ∉ piece := by
  rw [pieces_eq_splitOn] at member
  induction characters generalizing piece with
  | nil => simp_all
  | cons character others ih =>
    rw [List.splitOn_cons_eq_if_modifyHead] at member
    by_cases same : (character == separator) = true
    · rw [if_pos same, List.mem_cons] at member
      rcases member with rfl | member
      · exact List.not_mem_nil
      · exact ih member
    · rw [if_neg same] at member
      obtain ⟨first, rest, found⟩ :=
        List.exists_cons_of_ne_nil (List.splitOn_ne_nil separator others)
      rw [found] at ih
      rw [found, List.modifyHead_cons, List.mem_cons] at member
      rcases member with rfl | member
      · rw [beq_iff_eq] at same
        rw [List.mem_cons, not_or]
        exact ⟨Ne.symm same, ih List.mem_cons_self⟩
      · exact ih (List.mem_cons_of_mem _ member)

/-- Lines are joined with a line feed between neighbours. -/
theorem joinLines_eq_intercalate (found : List (List Char)) :
    joinLines found = ['\n'].intercalate found := by
  fun_induction joinLines found with
  | case1 => rfl
  | case2 line => exact List.intercalate_singleton.symm
  | case3 line others more ih =>
    rw [ih, List.intercalate_cons_of_ne_nil more]
    simp

/-- Joining the pieces between line feeds gives the text back. -/
theorem joinLines_pieces (characters : List Char) :
    joinLines (pieces '\n' characters) = characters := by
  rw [joinLines_eq_intercalate, pieces_eq_splitOn, List.intercalate_splitOn]

/-- The first line is followed by a line feed if there are others. -/
theorem joinLines_cons_of_ne_nil (line : List Char) (filled : found ≠ []) :
    joinLines (line :: found) = line ++ '\n' :: joinLines found := by
  cases found with
  | nil => exact absurd rfl filled
  | cons next others => rfl

/-- Joined lines have a line feed between every two neighbours and no other. -/
theorem count_joinLines (filled : found ≠ []) (feedless : ∀ line ∈ found, '\n' ∉ line) :
    (joinLines found).count '\n' + 1 = found.length := by
  induction found with
  | nil => exact absurd rfl filled
  | cons line others ih =>
    obtain ⟨here, later⟩ := List.forall_mem_cons.mp feedless
    by_cases alone : others = []
    · subst alone
      rw [joinLines, List.count_eq_zero.mpr here]
      rfl
    · rw [joinLines_cons_of_ne_nil line alone, List.count_append, List.count_eq_zero.mpr here,
        List.count_cons_self, List.length_cons, ← ih alone later]
      omega

/-- Joined lines of which the last one is empty end in a line feed, or are empty. -/
theorem joinLines_concat_nil (found : List (List Char)) :
    joinLines (found ++ [[]]) = [] ∨ (joinLines (found ++ [[]])).getLast? = some '\n' := by
  induction found with
  | nil => exact .inl rfl
  | cons line others ih =>
    right
    rw [List.cons_append, joinLines_cons_of_ne_nil line (List.concat_ne_nil _ _)]
    rcases ih with nothing | ends
    · rw [nothing, List.getLast?_append]
      rfl
    · rw [List.getLast?_append, List.getLast?_cons, ends]
      rfl

/-- The lines of a text that does not end in a line feed are its pieces, all but the last without
a carriage return at the end. -/
theorem lines_of_unended (filled : characters ≠ []) (unended : characters.getLast? ≠ some '\n') :
    ∃ ended last, pieces '\n' characters = ended ++ [last] ∧
      lines characters = ended.map withoutReturn ++ [last] := by
  rcases List.eq_nil_or_concat (pieces '\n' characters) with none | ⟨ended, last, split⟩
  · exact absurd none (pieces_ne_nil _ _)
  rw [List.concat_eq_append] at split
  refine ⟨ended, last, split, ?_⟩
  have joined := joinLines_pieces characters
  rw [split] at joined
  cases last with
  | nil =>
    rcases joinLines_concat_nil ended with nothing | ends
    · exact absurd (joined.symm.trans nothing) filled
    · exact absurd (joined ▸ ends) unended
  | cons first others => simp [lines, split]

/-- Taking off a carriage return adds nothing to a line. -/
theorem withoutReturn_sublist (line : List Char) : (withoutReturn line).Sublist line := by
  unfold withoutReturn
  split
  · exact List.dropLast_sublist line
  · exact List.Sublist.refl line

/-- There are as many lines without the common indentation as with it. -/
theorem length_dedentLines (found : List (List Char)) :
    (dedentLines found).length = found.length := by
  cases found with
  | nil => rfl
  | cons first others => simp [dedentLines]

/-- What is left of a line without the common indentation is a part of the line. -/
theorem exists_sublist_of_mem_dedentLines {line : List Char} (member : line ∈ dedentLines found) :
    ∃ before ∈ found, line.Sublist before := by
  cases found with
  | nil => cases member
  | cons first others =>
    rcases List.mem_cons.mp member with rfl | member
    · exact ⟨line, List.mem_cons_self, List.Sublist.refl line⟩
    · obtain ⟨before, inside, rfl⟩ := List.mem_map.mp member
      exact ⟨before, List.mem_cons_of_mem _ inside, List.drop_sublist _ before⟩

/-- Removing the common indentation of a text that does not end in a line feed keeps its line
feeds. -/
theorem count_dedent {text : String} (filled : text.toList ≠ [])
    (unended : text.toList.getLast? ≠ some '\n') :
    (dedent text).toList.count '\n' = text.toList.count '\n' := by
  obtain ⟨ended, last, split, cut⟩ := lines_of_unended filled unended
  have feedless : ∀ piece ∈ ended ++ [last], '\n' ∉ piece := fun piece member =>
    notMem_of_mem_pieces (split ▸ member)
  have length : (dedentLines (lines text.toList)).length = (ended ++ [last]).length := by
    rw [length_dedentLines, cut]
    simp
  have feedlessLines : ∀ line ∈ dedentLines (lines text.toList), '\n' ∉ line := by
    intro line member feed
    obtain ⟨before, inLines, among⟩ := exists_sublist_of_mem_dedentLines member
    rw [cut, List.mem_append, List.mem_map] at inLines
    rcases inLines with ⟨piece, inside, rfl⟩ | inside
    · refine feedless piece (List.mem_append_left _ inside) ?_
      exact (withoutReturn_sublist piece).subset (among.subset feed)
    · exact feedless before (List.mem_append_right _ inside) (among.subset feed)
  have filledLines : dedentLines (lines text.toList) ≠ [] := by
    rw [← List.length_pos_iff, length]
    simp
  calc (dedent text).toList.count '\n'
      = (joinLines (dedentLines (lines text.toList))).count '\n' := by
        rw [dedent, String.toList_ofList]
    _ = (joinLines (ended ++ [last])).count '\n' := by
        have after := count_joinLines filledLines feedlessLines
        have before := count_joinLines (List.concat_ne_nil last ended) feedless
        omega
    _ = text.toList.count '\n' := by rw [← split, joinLines_pieces]

end CodeClones.Text
