import CodeClones.Proofs.Lowering.Simulation

/-!
# The cells of a lowerer

A lowerer keeps two cells: how deep it is, and whether some tree lay too deep. It looks at the
first one when it is asked for a tree, counts it up for the rule of the tree, and sets it back
behind the rule. The rules do not touch the cells. So lowering can as well be given the levels that
are left and hand out whether it went too deep, which is how it is written here. Both ways are
connected by reading a result that depends on the depth as a step over the cells.
-/

namespace CodeClones.Lowering

open Syntax Concrete

/-- What a lowerer keeps. -/
structure Cells where
  /-- How many trees around the present one are being lowered. -/
  depth : Nat
  /-- Whether some tree lay too deep so far. -/
  tooDeep : Bool

namespace Cells

variable {α β : Type} {source : String} {limit : Nat} {root tree : Tree}

/-- Results that depend on the depth, as a step over the cells: the depth is read, and going too
deep is added to what was too deep before. -/
def step (results : Nat → Lowered α) : StateM Cells α := fun cells =>
  ((results cells.depth).value,
    { cells with tooDeep := cells.tooDeep || (results cells.depth).tooDeep })

/-- What a step gives, and how it leaves the cells. -/
theorem step_apply (results : Nat → Lowered α) (cells : Cells) :
    step results cells = ((results cells.depth).value,
      { cells with tooDeep := cells.tooDeep || (results cells.depth).tooDeep }) :=
  rfl

/-- A value by itself leaves the cells as they are. -/
theorem step_pure (value : α) : step (fun _ => pure value) = pure value := by
  funext cells
  change (value, { cells with tooDeep := cells.tooDeep || false }) = (value, cells)
  rw [Bool.or_false]

/-- Results in sequence are steps in sequence, at the same depth. -/
theorem step_bind (first : Nat → Lowered α) (next : α → Nat → Lowered β) :
    step (fun depth => first depth >>= fun value => next value depth) =
      step first >>= fun value => step (next value) := by
  funext cells
  exact congrArg (fun tooDeep => (_, { cells with tooDeep := tooDeep }))
    (Bool.or_assoc _ _ _).symm

/-- Gathered results are steps one after another. -/
theorem step_all (trees : List Tree) (results : Nat → Tree → Lowered α) :
    step (fun depth => .all (trees.map (results depth))) =
      trees.mapM fun tree => step fun depth => results depth tree := by
  induction trees with
  | nil => exact step_pure []
  | cons tree others ih =>
    simp only [List.map_cons, Lowered.all_cons, List.mapM_cons, ← ih]
    rw [step_bind]
    refine bind_congr fun value => ?_
    rw [step_bind]
    exact bind_congr fun values => step_pure _

/-- Lower a tree over the cells, at most the given number of levels deep. The rule of the tree is a
step at the depth that has been counted up. -/
def lower (source : String) (limit : Nat) (tree : Tree) : StateM Cells Node := do
  let depth := (← get).depth
  if limit ≤ depth then
    modify fun cells => { cells with tooDeep := true }
    pure (unmodelled tree)
  else
    modify fun cells => { cells with depth := depth + 1 }
    let node ← step fun depth => applyRule ⟨source, Lowering.lower source (limit - depth)⟩ tree
    modify fun cells => { cells with depth := depth }
    pure node

/-- Lowering over the cells is the step of lowering with the levels that are left, also where a
rule asks for the trees below its own. -/
theorem lower_eq_step (source : String) (limit : Nat) (tree : Tree) :
    lower source limit tree = step fun depth => Lowering.lower source (limit - depth) tree := by
  funext cells
  by_cases deep : limit ≤ cells.depth
  · have none : limit - cells.depth = 0 := Nat.sub_eq_zero_of_le deep
    have run : lower source limit tree cells = (unmodelled tree, { cells with tooDeep := true }) :=
      congrFun (if_pos deep) cells
    rw [run, step_apply, none, Lowering.lower, Bool.or_true]
  · obtain ⟨levels, left⟩ : ∃ levels, limit - cells.depth = levels + 1 :=
      Nat.exists_eq_succ_of_ne_zero (by omega)
    have inner : limit - (cells.depth + 1) = levels := by omega
    let found := applyRule ⟨source, Lowering.lower source (limit - (cells.depth + 1))⟩ tree
    have run : lower source limit tree cells =
        (found.value, { cells with tooDeep := cells.tooDeep || found.tooDeep }) :=
      congrFun (if_neg deep) cells
    rw [run, step_apply, left, Lowering.lower, ← inner]

/-- Behind a tree the lowerer is as deep as it was before it. -/
theorem depth_lower (cells : Cells) :
    ((lower source limit tree).run cells).2.depth = cells.depth := by
  rw [lower_eq_step]
  rfl

/-- A lowerer that has lowered nothing yet gives the body of a program, and is left with whether
the body went too deep. -/
theorem mapM_lower (source : String) (limit : Nat) (root : Tree) :
    ((programItems root).mapM (lower source limit)).run ⟨0, false⟩ =
      ((programBody source limit root).value,
        ⟨0, (programBody source limit root).tooDeep⟩) := by
  have steps : (programItems root).mapM (lower source limit) =
      step fun depth => programBody source (limit - depth) root := by
    rw [funext (lower_eq_step source limit)]
    exact (step_all (programItems root) fun depth => Lowering.lower source (limit - depth)).symm
  rw [steps, StateT.run, step_apply, Bool.false_or, Nat.sub_zero]

end Cells

end CodeClones.Lowering
