import Sentry.Proofs.Tree.Visits

/-! Sequence and selector are dual. A composite of either kind does what one of
the other kind does over leaves that report success for failure and failure for
success. So a tree with its composites exchanged, over leaves with their reports
exchanged, makes the same visits and leaves the same behind, in any run. -/
namespace Sentry

universe u v v' w

variable {κ : Type w} {ℓ : Type u} {ω : Type v} {ω' : Type v'}

/-- Leaves that do the same, and report success for failure and failure for
success. -/
def Runner.dual (run : Runner ℓ ω) : Runner ℓ ω :=
  fun l around =>
    let done := run l around
    ⟨done.status.swap, done.node, done.around⟩

/-- A visit with success and failure exchanged. -/
def Visit.swap (visit : Visit ℓ) : Visit ℓ :=
  { visit with status := visit.status.swap }

/-- Two rounds of trees that are dual to each other begin in the same
surroundings, visit the same leaves in the same order, and leave the same
surroundings and the same leaves. Their reports are exchanged. -/
structure Opposed (run : κ → Runner ℓ ω) (round opposite : Round κ ℓ ω) : Prop where
  context : opposite.context = round.context
  tree : opposite.tree = round.tree.dual
  around : opposite.around = round.around
  visits : opposite.tree.tour (run opposite.context).dual opposite.around =
    (round.tree.tour (run round.context) round.around).map Visit.swap
  status : (opposite.done fun context => (run context).dual).status = (round.done run).status.swap
  node : (opposite.done fun context => (run context).dual).node = (round.done run).node.dual
  leaves : (opposite.done fun context => (run context).dual).node.leaves =
    (round.done run).node.leaves
  after : (opposite.done fun context => (run context).dual).around = (round.done run).around

namespace Tree

/-! ## The dual of a tree -/

mutual

/-- The dual of a tree has the same leaves. -/
theorem dual_leaves (tree : Tree ℓ) : tree.dual.leaves = tree.leaves := by
  cases tree with
  | leaf data => rfl
  | composite kind children => exact dualChildren_leaves children
  | boxed child => exact dual_leaves child

theorem dualChildren_leaves (children : List (Tree ℓ)) :
    childLeaves (dualChildren children) = childLeaves children := by
  cases children with
  | nil => rfl
  | cons child rest => exact congrArg₂ (· ++ ·) (dual_leaves child) (dualChildren_leaves rest)

end

mutual

/-- They also have the same places. -/
theorem dual_numbered (tree : Tree ℓ) (first : Nat) :
    tree.dual.numbered first = (tree.numbered first).dual := by
  cases tree with
  | leaf data => rfl
  | composite kind children =>
    exact congrArg (composite kind.dual) (dualChildren_numbered children first)
  | boxed child => exact congrArg boxed (dual_numbered child first)

theorem dualChildren_numbered (children : List (Tree ℓ)) (first : Nat) :
    numberedChildren first (dualChildren children) =
      dualChildren (numberedChildren first children) := by
  cases children with
  | nil => rfl
  | cons child rest =>
    rw [dualChildren, numberedChildren, numberedChildren, dualChildren, dual_leaves]
    exact congrArg₂ List.cons (dual_numbered child first) (dualChildren_numbered rest _)

end

/-! ## A tick of the dual -/

/-- Two ways to run leaves that report opposite things and do the same to what
the second of them can see. -/
def Opposes (run : Runner ℓ ω) (run' : Runner ℓ ω') (view : ω → ω') : Prop :=
  ∀ l around, run' l (view around) =
    ⟨(run l around).status.swap, (run l around).node, view (run l around).around⟩

theorem swap_passes_iff (kind : Composite) (status : Status) :
    status.swap = kind.dual.passing ↔ status = kind.passing := by
  rw [kind.passing_dual, Status.swap_eq_iff, Status.swap_swap]

section
variable {run : Runner ℓ ω} {run' : Runner ℓ ω'} {view : ω → ω'}

mutual

/-- What is opposite in the leaves is opposite in the tree. -/
theorem opposed_tick (opposes : Opposes run run' view) (tree : Tree ℓ) (around : ω) :
    let done := tree.tick run around
    tree.dual.tick run' (view around) = ⟨done.status.swap, done.node.dual, view done.around⟩ := by
  cases tree with
  | leaf data => simp only [dual, tick, opposes data around]
  | composite kind children =>
    simp only [dual, tick, opposed_tickChildren opposes kind children around]
  | boxed child => simp only [dual, tick, opposed_tick opposes child around]

theorem opposed_tickChildren (opposes : Opposes run run' view) (kind : Composite)
    (children : List (Tree ℓ)) (around : ω) :
    let done := tickChildren run kind children around
    tickChildren run' kind.dual (dualChildren children) (view around) =
      ⟨done.status.swap, dualChildren done.node, view done.around⟩ := by
  cases children with
  | nil => simp only [dualChildren, tickChildren, kind.passing_dual]
  | cons child rest =>
    simp only [dualChildren, tickChildren, opposed_tick opposes child around, swap_passes_iff]
    by_cases passes : (child.tick run around).status = kind.passing
    · simp only [passes, ↓reduceIte, dualChildren,
        opposed_tickChildren opposes kind rest (child.tick run around).around]
    · simp only [passes, ↓reduceIte, dualChildren]

end

end

/-- Visits are noted of opposite leaves as of any others. -/
theorem touring_opposes (run : Runner ℓ ω) :
    Opposes (touring run) (touring run.dual) fun around => (around.1, around.2.map Visit.swap) := by
  intro l around
  simp [touring, Runner.dual, Visit.swap]

theorem dual_tour (run : Runner ℓ ω) (tree : Tree ℓ) (around : ω) :
    tree.dual.tour run.dual around = (tree.tour run around).map Visit.swap := by
  have opposite := opposed_tick (touring_opposes run) (tree.numbered 0) (around, [])
  rw [← dual_numbered] at opposite
  exact congrArg (·.around.2) opposite

theorem dual_round (run : κ → Runner ℓ ω) (context : κ) (tree : Tree ℓ) (around : ω) :
    Opposed run ⟨context, tree, around⟩ ⟨context, tree.dual, around⟩ := by
  have opposes : Opposes (run context) (run context).dual id := fun l around => rfl
  have opposite := opposed_tick opposes tree around
  have status := congrArg Outcome.status opposite
  have node := congrArg Outcome.node opposite
  have after := congrArg Outcome.around opposite
  have same := (congrArg leaves node).trans (dual_leaves _)
  exact ⟨rfl, rfl, rfl, dual_tour (run context) tree around, status, node, same, after⟩

/-- Sequence and selector are dual to each other. For any number of ticks, in
whatever contexts and with whatever happening in between, the dual of a tree over
opposite leaves visits the same leaves in the same order, leaves the same
surroundings and the same leaves, and reports the opposite. -/
theorem duals_run_alike (run : κ → Runner ℓ ω) (tree : Tree ℓ) (turns : List (Turn κ ω))
    (around : ω) :
    List.Forall₂ (Opposed run) (tree.rounds run turns around)
      (tree.dual.rounds (fun context => (run context).dual) turns around) := by
  induction turns generalizing tree around with
  | nil => exact .nil
  | cons turn later ih =>
    have opposed := dual_round run turn.context tree (turn.change around)
    rw [rounds, rounds]
    refine .cons opposed ?_
    rw [opposed.node, opposed.after]
    exact ih _ _

end Tree

end Sentry
