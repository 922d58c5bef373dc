import Mathlib.Logic.Relation
import Sentry.Proofs.Tree.Composites

/-! Flattening a tree. A composite inside one of its own kind may be spliced into
it, a composite of one child may be replaced by that child, and a box may be
dropped, anywhere in a tree. Each such step keeps everything that can be seen of
a run, and the steps lead every tree to one flattened form only. -/
namespace Sentry

universe u v w

variable {κ : Type w} {ℓ : Type u} {ω : Type v}

/-! ## What can be seen -/

/-- What can be seen of a tick: its report, the leaves it visits with theirs, and
the surroundings and the leaves that it leaves behind. -/
structure Observed (ℓ : Type u) (ω : Type v) where
  status : Status
  visited : List (ℓ × Status)
  around : ω
  leaves : List ℓ

/-- What can be seen of a round. -/
def Round.observed (run : κ → Runner ℓ ω) (round : Round κ ℓ ω) : Observed ℓ ω :=
  let done := round.done run
  ⟨done.status, round.tree.trace (run round.context) round.around, done.around, done.node.leaves⟩

namespace Tree

/-! ## Steps -/

/-- One step of flattening, at the root or anywhere below it. -/
inductive Flattens : Tree ℓ → Tree ℓ → Prop
  | splice (kind : Composite) (before inner after : List (Tree ℓ)) :
    Flattens (.composite kind (before ++ .composite kind inner :: after))
      (.composite kind (before ++ (inner ++ after)))
  | single (kind : Composite) (child : Tree ℓ) : Flattens (.composite kind [child]) child
  | unbox (child : Tree ℓ) : Flattens (.boxed child) child
  | inside {child next : Tree ℓ} (kind : Composite) (before after : List (Tree ℓ))
    (step : Flattens child next) :
    Flattens (.composite kind (before ++ child :: after)) (.composite kind (before ++ next :: after))
  | within {child next : Tree ℓ} (step : Flattens child next) :
    Flattens (.boxed child) (.boxed next)

/-- Any number of steps. -/
abbrev Reaches : Tree ℓ → Tree ℓ → Prop :=
  Relation.ReflTransGen Flattens

/-! ## A tick of a flattened tree -/

theorem tickChildren_append (run : Runner ℓ ω) (kind : Composite) (before after : List (Tree ℓ))
    (around : ω) :
    tickChildren run kind (before ++ after) around =
      let first := tickChildren run kind before around
      if first.status = kind.passing then
        let others := tickChildren run kind after first.around
        ⟨others.status, first.node ++ others.node, others.around⟩
      else ⟨first.status, first.node ++ after, first.around⟩ := by
  induction before generalizing around with
  | nil => simp [tickChildren]
  | cons child rest ih =>
    rw [List.cons_append, tickChildren, tickChildren]
    dsimp only
    by_cases passes : (child.tick run around).status = kind.passing
    · rw [if_pos passes, if_pos passes, ih]
      dsimp only
      split <;> rfl
    · rw [if_neg passes, if_neg passes, if_neg passes]
      rfl

/-- Two outcomes that differ by one step of flattening in the tree that is left. -/
structure Flattened (done next : Outcome (Tree ℓ) ω) : Prop where
  status : next.status = done.status
  around : next.around = done.around
  node : Flattens done.node next.node

/-- A tick keeps the shape of a tree, so a step of flattening that was possible
before the tick is possible after it, and it makes no difference to the tick. -/
theorem flattens_tick (run : Runner ℓ ω) {tree next : Tree ℓ} (step : Flattens tree next)
    (around : ω) : Flattened (tree.tick run around) (next.tick run around) := by
  induction step generalizing around with
  | splice kind before inner after =>
    rw [tick, tick]
    simp only [tickChildren_append, tickChildren]
    by_cases first : (tickChildren run kind before around).status = kind.passing
    · rw [if_pos first, if_pos first]
      let middle := tickChildren run kind inner (tickChildren run kind before around).around
      have same : tick run (.composite kind inner) (tickChildren run kind before around).around =
        ⟨middle.status, .composite kind middle.node, middle.around⟩ := rfl
      by_cases second : middle.status = kind.passing
      · rw [same, if_pos second, if_pos second]
        exact ⟨rfl, rfl, .splice kind _ _ _⟩
      · rw [same, if_neg second, if_neg second]
        exact ⟨rfl, rfl, .splice kind _ _ _⟩
    · rw [if_neg first, if_neg first]
      exact ⟨rfl, rfl, .splice kind _ _ _⟩
  | single kind child =>
    simp only [tick, tickChildren]
    by_cases passes : (child.tick run around).status = kind.passing
    · rw [if_pos passes]
      exact ⟨passes, rfl, .single kind _⟩
    · rw [if_neg passes]
      exact ⟨rfl, rfl, .single kind _⟩
  | unbox child => exact ⟨rfl, rfl, .unbox _⟩
  | @inside child next kind before after step ih =>
    simp only [tick, tickChildren_append, tickChildren]
    by_cases first : (tickChildren run kind before around).status = kind.passing
    · rw [if_pos first, if_pos first]
      obtain ⟨status, left, node⟩ := ih (tickChildren run kind before around).around
      rw [status, left]
      by_cases second :
          (child.tick run (tickChildren run kind before around).around).status = kind.passing
      · rw [if_pos second, if_pos second]
        exact ⟨rfl, rfl, .inside kind _ _ node⟩
      · rw [if_neg second, if_neg second]
        exact ⟨rfl, rfl, .inside kind _ _ node⟩
    · rw [if_neg first, if_neg first]
      exact ⟨rfl, rfl, .inside kind _ _ step⟩
  | within step ih =>
    obtain ⟨status, left, node⟩ := ih around
    exact ⟨status, left, .within node⟩

theorem childLeaves_append (before after : List (Tree ℓ)) :
    childLeaves (before ++ after) = childLeaves before ++ childLeaves after := by
  induction before with
  | nil => rfl
  | cons child rest ih => rw [List.cons_append, childLeaves, childLeaves, ih, List.append_assoc]

/-- Flattening moves no leaf. -/
theorem flattens_leaves {tree next : Tree ℓ} (step : Flattens tree next) :
    next.leaves = tree.leaves := by
  induction step with
  | splice kind before inner after => simp only [leaves, childLeaves_append, childLeaves]
  | single kind child => simp only [leaves, childLeaves, List.append_nil]
  | unbox child => rfl
  | inside kind before after step ih => simp only [leaves, childLeaves_append, childLeaves, ih]
  | within step ih => exact ih

/-! ## Runs of a flattened tree -/

theorem flattens_observed (run : κ → Runner ℓ ω) {tree next : Tree ℓ} (step : Flattens tree next)
    (context : κ) (around : ω) :
    Round.observed run ⟨context, next, around⟩ = Round.observed run ⟨context, tree, around⟩ := by
  obtain ⟨status, left, node⟩ := flattens_tick (run context) step around
  have visited := (flattens_tick (noting (run context)) step (around, [])).around
  simp only [Round.observed, Round.done, trace, status, left, flattens_leaves node, visited]

theorem flattens_rounds (run : κ → Runner ℓ ω) {tree next : Tree ℓ} (step : Flattens tree next)
    (turns : List (Turn κ ω)) (around : ω) :
    (next.rounds run turns around).map (Round.observed run) =
      (tree.rounds run turns around).map (Round.observed run) := by
  induction turns generalizing tree next around with
  | nil => rfl
  | cons turn later ih =>
    obtain ⟨-, left, node⟩ := flattens_tick (run turn.context) step (turn.change around)
    simp only [rounds, Round.done, List.map_cons, left]
    rw [flattens_observed run step, ih node]

/-- Whatever is reached by flattening is seen to run alike. -/
theorem reaches_rounds (run : κ → Runner ℓ ω) {tree flattened : Tree ℓ}
    (reaches : Reaches tree flattened) (turns : List (Turn κ ω)) (around : ω) :
    (flattened.rounds run turns around).map (Round.observed run) =
      (tree.rounds run turns around).map (Round.observed run) := by
  induction reaches with
  | refl => rfl
  | tail _ step ih => exact (flattens_rounds run step turns around).trans ih

/-! ## The flattened form can be reached -/

theorem reaches_inside (kind : Composite) (before after : List (Tree ℓ)) {child next : Tree ℓ}
    (reaches : Reaches child next) :
    Reaches (.composite kind (before ++ child :: after))
      (.composite kind (before ++ next :: after)) :=
  Relation.ReflTransGen.lift (fun child => Tree.composite kind (before ++ child :: after))
    (fun _ _ step => Flattens.inside kind before after step) _ _ reaches

theorem reaches_splice (kind : Composite) (before : List (Tree ℓ)) (child : Tree ℓ)
    (after : List (Tree ℓ)) :
    Reaches (.composite kind (before ++ child :: after))
      (.composite kind (before ++ (splice kind child ++ after))) := by
  cases child with
  | leaf data => exact .refl
  | boxed child => exact .refl
  | composite inner children =>
    rw [splice]
    split
    · next same =>
      rw [same]
      exact .single (.splice kind before children after)
    · exact .refl

theorem reaches_ofChildren (kind : Composite) (children : List (Tree ℓ)) :
    Reaches (.composite kind children) (ofChildren kind children) := by
  rw [ofChildren.eq_def]
  split
  · exact .single (.single kind _)
  · exact .refl

mutual

/-- Step by step every tree is brought to its flattened form. -/
theorem reaches_flatten (tree : Tree ℓ) : Reaches tree tree.flatten := by
  cases tree with
  | leaf data => exact .refl
  | composite kind children =>
    rw [flatten]
    exact (reaches_flattenChildren kind [] children).trans (reaches_ofChildren kind _)
  | boxed child => exact .head (.unbox child) (reaches_flatten child)

/-- The children of a composite are flattened from the first on. -/
theorem reaches_flattenChildren (kind : Composite) (before children : List (Tree ℓ)) :
    Reaches (.composite kind (before ++ children))
      (.composite kind (before ++ flattenChildren kind children)) := by
  cases children with
  | nil => exact .refl
  | cons child rest =>
    have first := reaches_inside kind before rest (reaches_flatten child)
    have spliced := reaches_splice kind before child.flatten rest
    have others := reaches_flattenChildren kind (before ++ splice kind child.flatten) rest
    rw [List.append_assoc, List.append_assoc] at others
    exact (first.trans spliced).trans others

end

/-! ## The flattened form is one -/

/-- A tree that is not a composite of this kind. -/
def Foreign (kind : Composite) (tree : Tree ℓ) : Prop :=
  ∀ children, tree ≠ .composite kind children

/-- A tree with nothing left to flatten. -/
inductive Flat : Tree ℓ → Prop
  | leaf (data : ℓ) : Flat (.leaf data)
  | composite {kind : Composite} {children : List (Tree ℓ)} (several : children.length ≠ 1)
    (foreign : ∀ child ∈ children, Foreign kind child) (each : ∀ child ∈ children, Flat child) :
    Flat (.composite kind children)

theorem splice_foreign {kind : Composite} {tree : Tree ℓ} (foreign : Foreign kind tree) :
    splice kind tree = [tree] := by
  cases tree with
  | leaf data => rfl
  | boxed child => rfl
  | composite inner children =>
    rw [splice, if_neg]
    rintro rfl
    exact foreign children rfl

theorem splice_flat (kind : Composite) {tree : Tree ℓ} (flat : Flat tree) :
    ∀ part ∈ splice kind tree, Foreign kind part ∧ Flat part := by
  cases flat with
  | leaf data =>
    simp only [splice, List.mem_singleton, forall_eq]
    exact ⟨fun _ same => (nomatch same), .leaf data⟩
  | @composite inner children several foreign each =>
    rw [splice]
    split
    · next same => exact fun part member => ⟨same ▸ foreign part member, each part member⟩
    · next other =>
      simp only [List.mem_singleton, forall_eq]
      refine ⟨?_, .composite several foreign each⟩
      rintro _ same
      exact other (composite.inj same).1

theorem flat_ofChildren {kind : Composite} {children : List (Tree ℓ)}
    (each : ∀ child ∈ children, Foreign kind child ∧ Flat child) :
    Flat (ofChildren kind children) := by
  rw [ofChildren.eq_def]
  split
  · next child => exact (each child (List.mem_singleton_self child)).2
  · next several =>
    refine .composite ?_ (fun child member => (each child member).1)
      fun child member => (each child member).2
    intro single
    obtain ⟨child, rfl⟩ := List.length_eq_one_iff.mp single
    exact several child rfl

mutual

theorem flat_flatten (tree : Tree ℓ) : Flat tree.flatten := by
  cases tree with
  | leaf data => exact .leaf data
  | composite kind children => exact flat_ofChildren (flat_flattenChildren kind children)
  | boxed child => exact flat_flatten child

theorem flat_flattenChildren (kind : Composite) (children : List (Tree ℓ)) :
    ∀ child ∈ flattenChildren kind children, Foreign kind child ∧ Flat child := by
  cases children with
  | nil => simp [flattenChildren]
  | cons child rest =>
    rw [flattenChildren, List.forall_mem_append]
    exact ⟨splice_flat kind (flat_flatten child), flat_flattenChildren kind rest⟩

end

/-- Nothing is left to flatten. -/
theorem flat_stays {tree next : Tree ℓ} (flat : Flat tree) : ¬ Flattens tree next := by
  intro step
  induction step with
  | splice kind before inner after =>
    cases flat with
    | composite _ foreign _ => exact foreign (.composite kind inner) (by simp) inner rfl
  | single kind child =>
    cases flat with
    | composite several _ _ => exact several rfl
  | unbox child => cases flat
  | @inside child _ kind before after _ ih =>
    cases flat with
    | composite _ _ each => exact ih (each child (by simp))
  | within _ _ => cases flat

theorem flattenChildren_append (kind : Composite) (before after : List (Tree ℓ)) :
    flattenChildren kind (before ++ after) =
      flattenChildren kind before ++ flattenChildren kind after := by
  induction before with
  | nil => rfl
  | cons child rest ih =>
    rw [List.cons_append, flattenChildren, flattenChildren, ih, List.append_assoc]

/-- Splicing a composite that stands for its children gives them back. -/
theorem splice_ofChildren {kind : Composite} {children : List (Tree ℓ)}
    (foreign : ∀ child ∈ children, Foreign kind child) :
    splice kind (ofChildren kind children) = children := by
  rw [ofChildren.eq_def]
  split
  · next child => exact splice_foreign (foreign child (List.mem_singleton_self child))
  · rw [splice, if_pos rfl]

theorem ofChildren_splice (kind : Composite) {tree : Tree ℓ} (flat : Flat tree) :
    ofChildren kind (splice kind tree) = tree := by
  cases flat with
  | leaf data => rfl
  | @composite inner children several _ _ =>
    rw [splice]
    split
    · next same =>
      rw [ofChildren.eq_def, same]
      split
      · exact absurd rfl several
      · rfl
    · rfl

/-- A step leaves the flattened form as it is. -/
theorem flattens_flatten {tree next : Tree ℓ} (step : Flattens tree next) :
    next.flatten = tree.flatten := by
  induction step with
  | splice kind before inner after =>
    have foreign := fun child member => (flat_flattenChildren kind inner child member).1
    simp only [flatten, flattenChildren_append, flattenChildren, splice_ofChildren foreign]
  | single kind child =>
    simp only [flatten, flattenChildren, List.append_nil, ofChildren_splice kind (flat_flatten child)]
  | unbox child => rfl
  | inside kind before after step ih =>
    simp only [flatten, flattenChildren_append, flattenChildren, ih]
  | within step ih => exact ih

/-- Where no step is left, the flattened form is reached. -/
theorem reaches_end {tree flattened : Tree ℓ} (reaches : Reaches tree flattened) :
    (∀ next, ¬ Flattens flattened next) ↔ flattened = tree.flatten := by
  have same : flattened.flatten = tree.flatten := by
    induction reaches with
    | refl => rfl
    | tail _ step ih => exact (flattens_flatten step).trans ih
  constructor
  · intro stays
    rw [← same]
    rcases (reaches_flatten flattened).cases_head with same | ⟨next, step, _⟩
    · exact same
    · exact absurd step (stays next)
  · rintro rfl next
    exact flat_stays (flat_flatten tree)

/-- Flattening makes no difference. Every tree can be flattened to the end, in one
way only, and whatever is reached on the way runs like the tree itself: for any
number of ticks, in whatever contexts and with whatever happening in between, each
tick has the same report, visits the same leaves in the same order with the same
reports, and leaves the same surroundings and the same leaves. -/
theorem flattening_is_immaterial (run : κ → Runner ℓ ω) (tree : Tree ℓ) :
    Reaches tree tree.flatten ∧
      ∀ flattened, Reaches tree flattened →
        ((∀ next, ¬ Flattens flattened next) ↔ flattened = tree.flatten) ∧
        ∀ (turns : List (Turn κ ω)) (around : ω),
          (flattened.rounds run turns around).map (Round.observed run) =
            (tree.rounds run turns around).map (Round.observed run) :=
  ⟨reaches_flatten tree, fun _ reaches =>
    ⟨reaches_end reaches, reaches_rounds run reaches⟩⟩

/-- A sequence that ends in an empty one, in a boxed selector of one child. -/
theorem nested_sequence_runs_flat :
    let nested : Tree (List Status) :=
      .composite .sequence [.composite .selector [.boxed (.leaf [.success, .success])],
        .composite .sequence [.leaf [.running, .success], .composite .sequence []]]
    let flat : Tree (List Status) :=
      .composite .sequence [.leaf [.success, .success], .leaf [.running, .success]]
    let turns : List (Turn Unit Nat) := [⟨(), id⟩, ⟨(), (· + 10)⟩]
    let run := fun _ : Unit => scripted
    (flat.rounds run turns 0).map (Round.observed run) =
      (nested.rounds run turns 0).map (Round.observed run) := by
  intro nested flat turns run
  have reaches : Reaches nested flat := reaches_flatten nested
  exact ((flattening_is_immaterial run nested).2 flat reaches).2 turns 0

end Tree

end Sentry
