import CodeClones.Proofs.Counterparts
import Mathlib.Data.Set.Basic

/-!
# Modes of functions in alike nodes

A function runs at once or asynchronously, and gives one value or generates many. Five kinds of
nodes hold a function, and all but one of them compare both flags: alike function declarations,
function expressions, arrow functions and methods of objects have one mode, and so do all that
alike nodes reach through compared positions. Methods of classes leave the two flags out, so of
them only the kind is kept, and a plain method counts as a clone of an asynchronous one.
-/

namespace CodeClones.Syntax

/-! ## Flags and modes -/

/-- The kinds of nodes that hold a function. -/
def functionKinds : List Kind :=
  [.functionDeclaration, .functionExpression, .arrowFunction, .methodProperty, .classMethod]

/-- The flag that the contents hold under a label. -/
def Slots.flag? (label : String) : {fields : List Field} → Slots fields → Option Bool
  | [], .done => none
  | .child _ _ :: _, .child _ others => others.flag? label
  | .optionalChild _ _ :: _, .optionalChild _ others => others.flag? label
  | .children _ _ :: _, .children _ others => others.flag? label
  | .optionalChildren _ _ :: _, .optionalChildren _ others => others.flag? label
  | .attribute name .flag _ :: _, .attribute value others =>
    if name = label then some value else others.flag? label
  | .attribute _ _ _ :: _, .attribute _ others => others.flag? label

/-- How a function runs, and what kind of node holds it. -/
structure FunctionMode where
  /-- The kind of the node that holds the function. -/
  kind : Kind
  /-- Whether the function is asynchronous. -/
  isAsync : Bool
  /-- Whether the function is a generator. -/
  isGenerator : Bool
deriving DecidableEq

namespace Node

/-- The mode of the function that the node holds, if it holds one. -/
def mode? (node : Node) : Option FunctionMode :=
  match node.slots.flag? "function.is_async", node.slots.flag? "function.is_generator" with
  | some isAsync, some isGenerator => some ⟨node.kind, isAsync, isGenerator⟩
  | _, _ => none

/-- The modes of the functions that the node reaches through compared positions, itself
included. -/
def modes (node : Node) : Set FunctionMode :=
  {mode | ∃ below, node.Reaches below ∧ below.mode? = some mode}

end Node

/-- Whether a field holds a flag under a label. -/
def Field.isFlag (label : String) : Field → Bool
  | .attribute name .flag _ => name == label
  | _ => false

/-- Contents hold a flag under a label exactly if one of their fields is such a flag. -/
theorem Slots.isSome_flag? (label : String) :
    {fields : List Field} → (slots : Slots fields) →
    (slots.flag? label).isSome = fields.any (Field.isFlag label)
  | [], .done => rfl
  | .child _ _ :: _, .child _ others => isSome_flag? label others
  | .optionalChild _ _ :: _, .optionalChild _ others => isSome_flag? label others
  | .children _ _ :: _, .children _ others => isSome_flag? label others
  | .optionalChildren _ _ :: _, .optionalChildren _ others => isSome_flag? label others
  | .attribute name type _ :: _, .attribute value others => by
    have rest := isSome_flag? label others
    cases type with
    | flag =>
      by_cases same : name = label <;> simp [flag?, Field.isFlag, same, rest]
    | text | optionalText | number | keyword | flavour | access =>
      simp [flag?, Field.isFlag, rest]

/-- A node has a mode exactly if it is of a kind that holds a function. -/
theorem Node.isSome_mode?_iff (node : Node) :
    node.mode?.isSome = true ↔ node.kind ∈ functionKinds := by
  have both : node.mode?.isSome = ((node.slots.flag? "function.is_async").isSome &&
      (node.slots.flag? "function.is_generator").isSome) := by
    unfold mode?
    cases node.slots.flag? "function.is_async" <;>
      cases node.slots.flag? "function.is_generator" <;> rfl
  rw [both, Slots.isSome_flag?, Slots.isSome_flag?]
  cases node.kind <;> decide +kernel

/-- The mode of a node names its kind. -/
theorem Node.kind_of_mode? {node : Node} {mode : FunctionMode} (held : node.mode? = some mode) :
    mode.kind = node.kind := by
  unfold mode? at held
  split at held
  · rw [← Option.some.inj held]
  · contradiction

/-! ## Modes of alike nodes -/

/-- Whether a field compares the flag that it holds under a label, if it does. -/
def Field.comparesFlag (label : String) : Field → Bool
  | .attribute name .flag rule => name != label || rule == .exact
  | _ => true

/-- Nodes of all kinds but methods of classes compare the flags of functions that they hold. -/
theorem comparesFlag_of_mem_layout {kind : Kind} (other : kind ≠ .classMethod) :
    ∀ field ∈ kind.layout, field.comparesFlag "function.is_async" = true ∧
      field.comparesFlag "function.is_generator" = true := by
  revert other
  cases kind <;> decide +kernel

/-- Related contents hold the same flag under a label if it is compared. -/
theorem Slots.flag?_eq_of_related {related : Bool → Node → Node → Prop} {names : Bool}
    {label : String} :
    {fields : List Field} → (left right : Slots fields) →
    (∀ field ∈ fields, field.comparesFlag label = true) → left.Related related names right →
    left.flag? label = right.flag? label
  | [], .done, .done, _, _ => rfl
  | .child _ _ :: _, .child _ others, .child _ others', compares, both =>
    flag?_eq_of_related others others' (List.forall_mem_cons.mp compares).2 both.2
  | .optionalChild _ _ :: _, .optionalChild _ others, .optionalChild _ others', compares, both =>
    flag?_eq_of_related others others' (List.forall_mem_cons.mp compares).2 both.2
  | .children _ _ :: _, .children _ others, .children _ others', compares, both =>
    flag?_eq_of_related others others' (List.forall_mem_cons.mp compares).2 both.2
  | .optionalChildren _ _ :: _, .optionalChildren _ others, .optionalChildren _ others', compares,
      both =>
    flag?_eq_of_related others others' (List.forall_mem_cons.mp compares).2 both.2
  | .attribute name type rule :: _, .attribute left others, .attribute right others', compares,
      both => by
    obtain ⟨here, behind⟩ := List.forall_mem_cons.mp compares
    have rest := flag?_eq_of_related others others' behind both.2
    cases type with
    | flag =>
      by_cases same : name = label
      · have exact : rule = .exact := by simpa [Field.comparesFlag, same] using here
        have equal : left = right := by
          subst exact
          exact beq_iff_eq.mp both.1
        simp [flag?, same, equal]
      · simp [flag?, same, rest]
    | text | optionalText | number | keyword | flavour | access => simp [flag?, rest]

/-- Alike nodes have one mode unless they are methods of classes. -/
theorem Node.mode?_eq_of_alike {names : Bool} {left right : Node}
    (alike : left.alike names right = true) (other : left.kind ≠ .classMethod) :
    left.mode? = right.mode? := by
  obtain ⟨span, kind, slots⟩ := left
  obtain ⟨span', slots', rfl, _, related⟩ := Node.exists_of_alike alike
  have compares := comparesFlag_of_mem_layout other
  have isAsync := Slots.flag?_eq_of_related slots slots'
    (fun field member => (compares field member).1) related
  have isGenerator := Slots.flag?_eq_of_related slots slots'
    (fun field member => (compares field member).2) related
  simp only [mode?, Node.slots, Node.kind, isAsync, isGenerator]

/-- A node reaches a function in each mode in which a node alike to it reaches one, methods of
classes apart. -/
theorem Node.mem_modes_of_alike {names : Bool} {left right : Node}
    (alike : left.alike names right = true) {mode : FunctionMode}
    (held : mode ∈ left.modes) (other : mode.kind ≠ .classMethod) : mode ∈ right.modes := by
  obtain ⟨below, reached, inMode⟩ := held
  obtain ⟨counterpart, reached', _, alike'⟩ := Node.exists_reached_of_alike alike reached
  have notMethod : below.kind ≠ .classMethod := Node.kind_of_mode? inMode ▸ other
  exact ⟨counterpart, reached', (Node.mode?_eq_of_alike alike' notMethod).symm.trans inMode⟩

/-- A node reaches a method of a class if a node alike to it does. -/
theorem Node.exists_method_of_alike {names : Bool} {left right : Node}
    (alike : left.alike names right = true)
    (held : ∃ mode ∈ left.modes, mode.kind = .classMethod) :
    ∃ mode ∈ right.modes, mode.kind = .classMethod := by
  obtain ⟨mode, ⟨below, reached, inMode⟩, isMethod⟩ := held
  obtain ⟨counterpart, reached', _, alike'⟩ := Node.exists_reached_of_alike alike reached
  have sameKind : counterpart.kind = .classMethod := by
    rw [Node.kind_eq_of_alike alike', ← Node.kind_of_mode? inMode, isMethod]
  have holds : counterpart.kind ∈ functionKinds := by
    rw [sameKind]
    decide
  obtain ⟨mode', inMode'⟩ := Option.isSome_iff_exists.mp
    ((Node.isSome_mode?_iff counterpart).mpr holds)
  exact ⟨mode', ⟨counterpart, reached', inMode'⟩, (Node.kind_of_mode? inMode').trans sameKind⟩

/-- Alike nodes agree on the modes of their functions, methods of classes apart: if one of them
holds a function, both have one mode, and through compared positions both reach functions of the
same kinds in the same modes. Of methods of classes, one of them reaches some if the other
does. -/
theorem alike_modes (names : Bool) (left right : Node) (alike : left.alike names right = true) :
    (left.kind ∈ functionKinds → left.kind ≠ .classMethod →
      ∃ mode, left.mode? = some mode ∧ right.mode? = some mode) ∧
    {mode ∈ left.modes | mode.kind ≠ .classMethod} =
      {mode ∈ right.modes | mode.kind ≠ .classMethod} ∧
    ((∃ mode ∈ left.modes, mode.kind = .classMethod) ↔
      ∃ mode ∈ right.modes, mode.kind = .classMethod) := by
  have alike' := Node.alike_symm alike
  refine ⟨fun holds other => ?_, ?_, ?_⟩
  · obtain ⟨mode, inMode⟩ := Option.isSome_iff_exists.mp ((Node.isSome_mode?_iff left).mpr holds)
    exact ⟨mode, inMode, (Node.mode?_eq_of_alike alike other).symm.trans inMode⟩
  · ext mode
    exact and_congr_left fun other => ⟨fun held => Node.mem_modes_of_alike alike held other,
      fun held => Node.mem_modes_of_alike alike' held other⟩
  · exact ⟨Node.exists_method_of_alike alike, Node.exists_method_of_alike alike'⟩

/-- An asynchronous arrow function that does nothing, at some span. -/
def asyncArrow (span : Span) : Node :=
  .mk span .arrowFunction (.children [] <| .optionalChild none <| .children [] <|
    .optionalChild none <| .optionalChild (some (.mk span .block (.children [] .done))) <|
    .attribute true <| .attribute false .done)

/-- Two such functions at different places have one mode, and each reaches a function in it. -/
theorem alike_modes_asyncArrow :
    (asyncArrow ⟨0, 14⟩).alike true (asyncArrow ⟨20, 34⟩) = true ∧
    (∃ mode, (asyncArrow ⟨0, 14⟩).mode? = some mode ∧ (asyncArrow ⟨20, 34⟩).mode? = some mode) ∧
    (⟨.arrowFunction, true, false⟩ : FunctionMode) ∈ (asyncArrow ⟨20, 34⟩).modes := by
  have alike : (asyncArrow ⟨0, 14⟩).alike true (asyncArrow ⟨20, 34⟩) = true := by
    decide +kernel
  obtain ⟨one, same, _⟩ := alike_modes true (asyncArrow ⟨0, 14⟩) (asyncArrow ⟨20, 34⟩) alike
  have held : (⟨.arrowFunction, true, false⟩ : FunctionMode) ∈
      {mode ∈ (asyncArrow ⟨0, 14⟩).modes | mode.kind ≠ .classMethod} :=
    ⟨⟨asyncArrow ⟨0, 14⟩, .refl, by decide +kernel⟩, by decide⟩
  rw [same] at held
  exact ⟨alike, one (by decide) (by decide), held.1⟩

/-- A method of a class that does nothing, in some mode. -/
def methodIn (isAsync isGenerator : Bool) : Node :=
  .mk ⟨0, 6⟩ .classMethod (.children [] <|
    .child (.mk ⟨0, 1⟩ .identifier
      (.attribute "f" <| .optionalChild none <| .attribute false .done)) <|
    .optionalChild none <| .children [] <| .optionalChild none <|
    .optionalChild (some (.mk ⟨4, 6⟩ .block (.children [] .done))) <|
    .attribute isAsync <| .attribute isGenerator <| .attribute .method <| .attribute false <|
    .attribute none .done)

/-- Methods of classes may be alike in different modes: a plain method is alike to an asynchronous
one. -/
theorem methods_alike_in_two_modes :
    ¬ ∀ (names : Bool) (left right : Node), left.alike names right = true →
      (left.kind ∈ functionKinds → left.mode? = right.mode?) ∧ left.modes = right.modes := by
  intro always
  have alike : (methodIn false false).alike true (methodIn true false) = true := by
    decide +kernel
  have same := (always true (methodIn false false) (methodIn true false) alike).1 (by decide)
  revert same
  decide +kernel

end CodeClones.Syntax
