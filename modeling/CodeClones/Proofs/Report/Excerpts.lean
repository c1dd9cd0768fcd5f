import CodeClones.Parsing
import CodeClones.Proofs.Grouping.Soundness
import CodeClones.Proofs.Lowering.Rules
import CodeClones.Report.Entry

/-!
# Reported locations are pieces of their files

The range of a reported location comes from far away: a grammar gives the ranges of trees,
lowering makes ranges of nodes out of them, the walk over the nodes moves them to candidates, and
merging joins them. If the trees of all files are well-formed, none of these steps leaves the
file or splits a character, so a report always shows the text of a location and never the empty
text that stands for a location without one.
-/

namespace CodeClones

open Syntax Concrete Grouping

/-! ## Trees for files -/

/-- The parser that a concrete tree for each file gives. -/
def Parser.ofTrees (trees : (name source : String) → Tree) : Parser := fun name source =>
  (Program.ofTree maxNesting source (pointAt source) (trees name source)).toOption

variable {trees : (name source : String) → Tree}

/-- An accepted text has the range of its tree, and its items are those of the tree. -/
theorem Parser.ofTrees_eq_some {name source : String} {program : Program}
    (accepted : Parser.ofTrees trees name source = some program) :
    program = ⟨(trees name source).span,
      (Lowering.programBody source maxNesting (trees name source)).value⟩ := by
  unfold Parser.ofTrees Program.ofTree at accepted
  split at accepted
  · cases accepted
  · dsimp only at accepted
    split at accepted
    · cases accepted
    · cases accepted
      rfl

/-- There is no prologue if the tree of the empty text ends where it begins. -/
theorem Parser.prologue_ofTrees (empty : (trees "" "").stop = 0) :
    (Parser.ofTrees trees).prologue = 0 := by
  unfold Parser.prologue
  split
  · rename_i program accepted
    rw [Parser.ofTrees_eq_some accepted]
    exact empty
  · rfl

/-- The items of a program are enclosed by the range of its well-formed tree. -/
theorem Lowering.allEnclosed_programBody {source : String} {levels : Nat} {root : Tree}
    (formed : root.WellFormed source) :
    AllEnclosed source root.span (programBody source levels root).value :=
  allEnclosed_all_map (formed.inside.allInside_filter_parts _)
    fun _ inside => (anchored_lower levels inside.wellFormed).mono inside.start_le inside.stop_le

/-! ## Candidates -/

namespace Candidate

variable {file : String} {offset : Nat} {scope : Scope} {candidate : Candidate}

/-- The candidate is made of a node that is at or below a node. -/
structure ComesFrom (file : String) (offset : Nat) (scope : Scope) (candidate : Candidate)
    (node : Node) : Prop where
  /-- The node of the candidate is at or below the node. -/
  below : candidate.node ∈ node.preorder
  /-- The node of the candidate may be a candidate. -/
  admitted : scope.admits candidate.node.kind = true
  /-- The candidate belongs to the file. -/
  file_eq : candidate.file = file
  /-- The candidate stands where its node does, moved back. -/
  span_eq : candidate.span = candidate.node.span.movedBack offset

/-- The candidate that a node itself makes comes from it. -/
theorem comesFrom_of_mem_own {node : Node} {eligible : Bool}
    (member : candidate ∈ own file offset scope node eligible) :
    ComesFrom file offset scope candidate node := by
  unfold own at member
  split at member
  · rename_i admitted
    rw [Bool.and_eq_true] at admitted
    obtain rfl := List.mem_singleton.mp member
    refine ⟨?_, admitted.2, rfl, rfl⟩
    rw [Node.preorder_eq]
    exact List.mem_cons_self
  · cases member

/-- What comes from a child comes from its parent as well. -/
theorem ComesFrom.of_child {node child : Node}
    (origin : ComesFrom file offset scope candidate child) (member : child ∈ node.children) :
    ComesFrom file offset scope candidate node := by
  refine { origin with below := ?_ }
  rw [Node.preorder_eq]
  exact List.mem_cons_of_mem _ (List.mem_flatMap.mpr ⟨child, member, origin.below⟩)

/-- The walk adds nothing but candidates that come from the nodes still to visit. -/
theorem comesFrom_of_mem_collectOnto {found : List Candidate} {pending : List (Node × Bool)}
    (member : candidate ∈ collectOnto file offset scope found pending) :
    candidate ∈ found ∨ ∃ entry ∈ pending, ComesFrom file offset scope candidate entry.1 := by
  fun_induction collectOnto file offset scope found pending with
  | case1 found => exact Or.inl (List.mem_reverse.mp member)
  | case2 found node eligible pending isType ih =>
    exact (ih member).imp_right fun ⟨entry, held, origin⟩ =>
      ⟨entry, List.mem_cons_of_mem _ held, origin⟩
  | case3 found node eligible pending notType ih =>
    rcases ih member with held | ⟨entry, held, origin⟩
    · rcases List.mem_append.mp held with own | held
      · exact Or.inr ⟨(node, eligible), List.mem_cons_self, comesFrom_of_mem_own own⟩
      · exact Or.inl held
    · rcases List.mem_append.mp held with step | held
      · -- The children of the visited node stand in front of what was still to visit.
        obtain ⟨child, inChildren, rfl⟩ := List.mem_map.mp step
        exact Or.inr ⟨(node, eligible), List.mem_cons_self, origin.of_child inChildren⟩
      · exact Or.inr ⟨entry, List.mem_cons_of_mem _ held, origin⟩

/-- Every candidate of a program comes from one of its items. -/
theorem comesFrom_of_mem_collect {body : List Node}
    (member : candidate ∈ collect file offset scope body) :
    ∃ node ∈ body, ComesFrom file offset scope candidate node := by
  rcases comesFrom_of_mem_collectOnto member with held | ⟨entry, held, origin⟩
  · cases held
  · obtain ⟨node, inBody, rfl⟩ := List.mem_map.mp held
    exact ⟨node, inBody, origin⟩

end Candidate

/-- Nodes that may be candidates are no segments of templates. -/
theorem Scope.ne_templateSegment {scope : Scope} {kind : Kind}
    (admitted : scope.admits kind = true) : kind ≠ .templateSegment := by
  rintro rfl
  cases scope <;> cases admitted

/-- The candidate stands on a piece of the text of the file. -/
structure Candidate.StandsIn (file : SourceFile) (candidate : Candidate) : Prop where
  /-- The candidate belongs to the file. -/
  file_eq : candidate.file = file.name
  /-- The candidate does not end before it begins. -/
  ordered : candidate.span.start ≤ candidate.span.stop
  /-- The candidate ends no later than the text. -/
  stop_le_size : candidate.span.stop ≤ Text.size file.content
  /-- The candidate begins between two characters. -/
  start_boundary : Text.isBoundary file.content candidate.span.start = true
  /-- The candidate ends between two characters. -/
  stop_boundary : Text.isBoundary file.content candidate.span.stop = true

/-- Every candidate stands on a piece of the text of one of the files, if the trees of the files
are well-formed. -/
theorem exists_standsIn {files : List SourceFile} {scope : Scope} {candidate : Candidate}
    (formed : ∀ file ∈ files, (trees file.name file.content).WellFormed file.content)
    (empty : (trees "" "").stop = 0)
    (member : candidate ∈ (Extraction.ofFiles (.ofTrees trees) scope files).candidates) :
    ∃ file ∈ files, candidate.StandsIn file := by
  obtain ⟨parsed, inFiles, collected⟩ := List.mem_flatMap.mp member
  obtain ⟨file, given, parsedAs⟩ := List.mem_filterMap.mp inFiles
  obtain ⟨program, accepted, rfl⟩ := Option.map_eq_some_iff.mp parsedAs
  obtain rfl := Parser.ofTrees_eq_some accepted
  obtain ⟨item, inBody, origin⟩ := Candidate.comesFrom_of_mem_collect collected
  have lawful := (formed file given).inside.lawful
  have placed := Lowering.allEnclosed_programBody (formed file given) item inBody
    candidate.node origin.below
  have piece := placed.piece (Scope.ne_templateSegment origin.admitted)
  have unmoved : candidate.span = candidate.node.span := by
    rw [origin.span_eq]
    show candidate.node.span.movedBack (Parser.ofTrees trees).prologue = candidate.node.span
    rw [Parser.prologue_ofTrees empty]
    rfl
  refine ⟨file, given, origin.file_eq, ?_, ?_, ?_, ?_⟩
  all_goals rw [unmoved]
  · exact piece.ordered
  · exact Nat.le_trans piece.stop_le lawful.stop_le_size
  · exact piece.start_boundary
  · exact piece.stop_boundary

/-! ## Files with different names -/

/-- Among files with different names, a name gives the file that has it. -/
theorem fileNamed?_eq_some {files : List SourceFile} {file : SourceFile}
    (distinct : (files.map (·.name)).Nodup) (given : file ∈ files) :
    fileNamed? files file.name = some file := by
  unfold fileNamed?
  rw [List.findRev?_eq_find?_reverse]
  cases found : files.reverse.find? fun other => other.name == file.name with
  | none =>
    have other := List.find?_eq_none.mp found file (List.mem_reverse.mpr given)
    simp at other
  | some other =>
    have same : other.name = file.name := by simpa using List.find?_some found
    have given' := List.mem_reverse.mp (List.mem_of_find?_eq_some found)
    rw [List.inj_on_of_nodup_map distinct given' given same]

/-- Indexing the files first does not change which one has the name. -/
theorem findRev?_indexed (files : List SourceFile) (name : String) :
    ((files.map IndexedFile.ofFile).findRev? fun entry => entry.file.name == name) =
      (fileNamed? files name).map IndexedFile.ofFile := by
  rw [fileNamed?, List.findRev?_eq_find?_reverse, List.findRev?_eq_find?_reverse,
    ← List.map_reverse, List.find?_map]
  rfl

/-- A candidate that stands on a piece of a file fits in its file. -/
theorem Candidate.StandsIn.fitsIn {files : List SourceFile} {file : SourceFile}
    {candidate : Candidate} (stands : candidate.StandsIn file)
    (distinct : (files.map (·.name)).Nodup) (given : file ∈ files) :
    FitsIn (contentOf? files) (Location.ofCandidate candidate) := by
  have known : contentOf? files candidate.file = some file.content := by
    rw [contentOf?, stands.file_eq, fileNamed?_eq_some distinct given, Option.map_some]
  refine ⟨stands.ordered, ?_, ?_⟩
  all_goals
    intro content known'
    obtain rfl := Option.some.inj (known.symm.trans known')
  · exact stands.start_boundary
  · exact stands.stop_boundary

/-! ## Reported locations -/

/-- A member of a sound group lies in a file that has candidates. -/
theorem Grouping.Sound.exists_candidate {contents : Contents} {candidates : List Candidate}
    {names : Bool} {group : Group} {location : Location}
    (sound : Sound contents candidates names group) (member : location ∈ group) :
    ∃ candidate ∈ candidates, candidate.file = location.file := by
  obtain ⟨pattern, rows⟩ := sound.rows
  obtain ⟨row, splits, _⟩ := rows location member
  obtain ⟨first, isFirst, _⟩ := Option.map_eq_some_iff.mp splits.start
  have inRow := List.mem_of_head? isFirst
  exact ⟨first, splits.candidate first inRow, splits.file first inRow⟩

/-- The excerpt of a location that fits in a file of its name is the piece of text between its
ends. -/
theorem slice?_eq_excerpt {files : List SourceFile} {file : SourceFile} {location : Location}
    (known : fileNamed? files location.file = some file)
    (fits : FitsIn (contentOf? files) location) :
    Text.slice? file.content location.start location.stop =
      some (excerpt (fileNamed? files location.file) location) := by
  have content : contentOf? files location.file = some file.content := by
    rw [contentOf?, known, Option.map_some]
  obtain ⟨piece, sliced⟩ := Text.exists_slice? fits.ordered
    (fits.start_boundary _ content) (fits.stop_boundary _ content)
  rw [excerpt, known, Option.bind_some, Location.textIn?, sliced, Option.getD_some]

/-- If the trees of all files are well-formed, then all candidates stand on pieces of their
files, every tree is lowered to nodes that lie in its range, and the excerpt of every reported
location is the piece of its file between the two ends. -/
theorem findClones_excerpts (trees : (name source : String) → Tree) (files : List SourceFile)
    (scope : Scope) (options : GroupingOptions) (distinct : (files.map (·.name)).Nodup)
    (formed : ∀ file ∈ files, (trees file.name file.content).WellFormed file.content)
    (empty : (trees "" "").stop = 0) :
    (∀ candidate ∈ (Extraction.ofFiles (.ofTrees trees) scope files).candidates,
      ∃ file ∈ files, candidate.StandsIn file) ∧
    (∀ file ∈ files, ∀ tree ∈ (trees file.name file.content).subtrees, ∀ levels,
      ∀ node ∈ (Lowering.lower file.content levels tree).value.preorder,
        tree.start ≤ node.span.start ∧ node.span.start ≤ node.span.stop ∧
          node.span.stop ≤ tree.stop) ∧
    ∀ group ∈ findClones (Extraction.ofFiles (.ofTrees trees) scope files).candidates files
        options, ∀ location ∈ group, ∃ file ∈ files, file.name = location.file ∧
      Text.slice? file.content location.start location.stop =
        some (excerpt (fileNamed? files location.file) location) ∧
      Text.size (excerpt (fileNamed? files location.file) location) = location.length := by
  have stands : ∀ candidate ∈ (Extraction.ofFiles (.ofTrees trees) scope files).candidates,
      ∃ file ∈ files, candidate.StandsIn file := fun _ => exists_standsIn formed empty
  refine ⟨stands, ?_, ?_⟩
  · intro file given tree below levels node member
    have formedTree := (formed file given).of_mem_subtrees _ below
    have placed := (Lowering.anchored_lower levels formedTree).enclosed node member
    exact ⟨placed.start_le, placed.ordered, placed.stop_le⟩
  · intro group reported location member
    have fits : ∀ candidate ∈ (Extraction.ofFiles (.ofTrees trees) scope files).candidates,
        FitsIn (contentOf? files) (Location.ofCandidate candidate) := by
      intro candidate inside
      obtain ⟨file, given, standsIn⟩ := stands candidate inside
      exact standsIn.fitsIn distinct given
    have sound := mergeAdjacent_induction (fun _ sound => sound.fits) (fun _ _ => Sound.merge)
      (fun _ inside => sound_of_mem_cloneGroups fits inside) group (List.mem_filter.mp reported).1
    obtain ⟨candidate, inside, sameFile⟩ := sound.exists_candidate member
    obtain ⟨file, given, standsIn⟩ := stands candidate inside
    have named : file.name = location.file := standsIn.file_eq.symm.trans sameFile
    have known : fileNamed? files location.file = some file := by
      rw [← named, fileNamed?_eq_some distinct given]
    have sliced := slice?_eq_excerpt known (sound.fits location member)
    refine ⟨file, given, named, sliced, ?_⟩
    obtain ⟨front, back, _, _, ends⟩ := Text.slice?_eq_some_iff.mp sliced
    rw [Location.length]
    omega

/-- A file with a loop that is written twice. -/
def loopTwice : SourceFile :=
  ⟨"f", "for(let a of b)c;for(let a of b)c;"⟩

/-- A node that fills a field; the grammar names it if it is a name or has children. -/
def nodeAt (id : Nat) (kind : String) (span : Span) (field : Option String)
    (children : List Tree) : Tree :=
  .node ⟨id, kind, span, kind == "identifier" || !children.isEmpty, field, false, false, false,
    []⟩ children

/-- The tree of one of the two loops, by where it begins. -/
def loopAt (start : Nat) : Tree :=
  nodeAt (start + 1) "for_in_statement" ⟨start, start + 17⟩ none
    [nodeAt (start + 2) "let" ⟨start + 4, start + 7⟩ (some "kind") [],
      nodeAt (start + 3) "identifier" ⟨start + 8, start + 9⟩ (some "left") [],
      nodeAt (start + 4) "of" ⟨start + 10, start + 12⟩ (some "operator") [],
      nodeAt (start + 5) "identifier" ⟨start + 13, start + 14⟩ (some "right") [],
      nodeAt (start + 6) "expression_statement" ⟨start + 15, start + 17⟩ (some "body")
        [nodeAt (start + 7) "identifier" ⟨start + 15, start + 16⟩ none []]]

/-- The trees of the empty text and of the two loops. -/
def treesOfLoops (_name source : String) : Tree :=
  if source = "" then emptyTree
  else nodeAt 0 "program" ⟨0, 34⟩ none [loopAt 0, loopAt 17]

/-- Of the two loops, the loops themselves and the declarations in them are reported. -/
theorem findClones_loopTwice :
    findClones (Extraction.ofFiles (.ofTrees treesOfLoops) .statements [loopTwice]).candidates
        [loopTwice] ⟨5, false, none⟩ =
      [[⟨"f", 0, 17⟩, ⟨"f", 17, 34⟩], [⟨"f", 4, 9⟩, ⟨"f", 21, 26⟩]] := by
  unfold findClones
  rw [cloneGroups_eq_classesLedBy (by decide +kernel), mergeAdjacent_eq_plain (by decide +kernel)]
  decide +kernel

/-- The excerpt of a reported declaration is the piece of its file from the keyword to the name,
although no tree covers just this piece. -/
theorem findClones_excerpts_loopTwice :
    ([loopTwice].map (·.name)).Nodup ∧
    (∀ file ∈ [loopTwice], (treesOfLoops file.name file.content).WellFormed file.content) ∧
    (treesOfLoops "" "").stop = 0 ∧
    ∃ file ∈ [loopTwice], Text.slice? file.content 4 9 =
      some (excerpt (fileNamed? [loopTwice] "f") ⟨"f", 4, 9⟩) := by
  have distinct : ([loopTwice].map (·.name)).Nodup := by decide
  have formed : ∀ file ∈ [loopTwice],
      (treesOfLoops file.name file.content).WellFormed file.content := by
    decide +kernel
  have empty : (treesOfLoops "" "").stop = 0 := by decide
  have reported := (findClones_excerpts treesOfLoops [loopTwice] .statements ⟨5, false, none⟩
    distinct formed empty).2.2
  rw [findClones_loopTwice] at reported
  obtain ⟨file, given, _, sliced, _⟩ := reported _ (List.mem_cons_of_mem _ List.mem_cons_self) _
    List.mem_cons_self
  exact ⟨distinct, formed, empty, file, given, sliced⟩

end CodeClones
