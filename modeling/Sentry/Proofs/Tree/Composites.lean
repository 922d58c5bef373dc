import Mathlib.Data.List.Induction
import Sentry.Tree.Basic

/-! Composites over runs. In each tick a composite ticks its children in order,
each in the surroundings that the one before it has left, up to the first that
does not pass. It remembers nothing, so over a run the first child is ticked in
every tick, and every other child exactly as often as the one before it passes. -/
namespace Sentry

universe u v w

/-! ## Runs -/

/-- The context of a tick, and what happens to the surroundings before it. -/
structure Turn (κ : Type w) (ω : Type v) where
  context : κ
  change : ω → ω

/-- A tick as it begins: its context, the tree and the surroundings. -/
structure Round (κ : Type w) (ℓ : Type u) (ω : Type v) where
  context : κ
  tree : Tree ℓ
  around : ω

variable {κ : Type w} {ℓ : Type u} {ω : Type v}

/-- What comes of a round. -/
def Round.done (run : κ → Runner ℓ ω) (round : Round κ ℓ ω) : Outcome (Tree ℓ) ω :=
  round.tree.tick (run round.context) round.around

namespace Tree

/-- Successive ticks of a tree. Each goes on with the tree and the surroundings
that the one before it has left, once the surroundings have changed. -/
def rounds (run : κ → Runner ℓ ω) : List (Turn κ ω) → Tree ℓ → ω → List (Round κ ℓ ω)
  | [], _, _ => []
  | turn :: later, tree, around =>
    let round : Round κ ℓ ω := ⟨turn.context, tree, turn.change around⟩
    round :: rounds run later (round.done run).node (round.done run).around

/-! ## One tick -/

/-- What comes of several trees, each ticked in the surroundings that the one
before it has left. -/
def inTurn (run : Runner ℓ ω) : List (Tree ℓ) → ω → List (Outcome (Tree ℓ) ω)
  | [], _ => []
  | child :: rest, around =>
    let done := child.tick run around
    done :: inTurn run rest done.around

/-- A composite has ticked its children from the first on, each in its turn, up
to the first that did not pass; those behind it are as they were. -/
structure InOrder (run : Runner ℓ ω) (kind : Composite) (children : List (Tree ℓ)) (around : ω)
    (ticked : List (Outcome (Tree ℓ) ω)) (done : Outcome (Tree ℓ) ω) : Prop where
  inTurn : ticked <+: inTurn run children around
  passed : ∀ earlier ∈ ticked.dropLast, earlier.status = kind.passing
  ended : (ticked.length = children.length ∧ (∀ each ∈ ticked, each.status = kind.passing) ∧
      done.status = kind.passing) ∨
    ∃ last ∈ ticked.getLast?, last.status ≠ kind.passing ∧ done.status = last.status
  node : done.node = .composite kind (ticked.map (·.node) ++ children.drop ticked.length)
  around : done.around = (ticked.getLast?.map (·.around)).getD around

/-- A runner that has each leaf stand in for a whole tree, with its place. -/
def standIn (run : Runner ℓ ω) : Runner (Nat × Tree ℓ) ω :=
  fun child around =>
    let done := child.2.tick run around
    ⟨done.status, (child.1, done.node), done.around⟩

/-- Leaves that stand in for trees, with their places from `first` on. -/
def placed (first : Nat) : List (Tree ℓ) → List (Tree (Nat × Tree ℓ))
  | [] => []
  | child :: rest => .leaf (first, child) :: placed (first + 1) rest

/-- The place and the report of a stand-in. -/
def visitOf (note : (Nat × Tree ℓ) × Status) : Nat × Status :=
  (note.1.1, note.2)

/-- The places of the children that a composite ticks, in order, each with the
report, as its stand-ins note them. -/
def visits (run : Runner ℓ ω) (kind : Composite) (children : List (Tree ℓ)) (around : ω) :
    List (Nat × Status) :=
  ((Tree.composite kind (placed 0 children)).trace (standIn run) around).map visitOf

section
variable (run : Runner ℓ ω) (kind : Composite)

theorem inOrder_nil (around : ω) :
    InOrder run kind [] around [] ⟨kind.passing, .composite kind [], around⟩ :=
  ⟨List.prefix_rfl, by simp, .inl ⟨rfl, by simp, rfl⟩, rfl, rfl⟩

section
variable {run kind} {child : Tree ℓ} {rest after : List (Tree ℓ)} {around end_ : ω}
  {ticked : List (Outcome (Tree ℓ) ω)} {status : Status}

/-- A child that does not pass ends the tick. -/
theorem inOrder_stop (rest : List (Tree ℓ))
    (stops : (child.tick run around).status ≠ kind.passing) :
    let first := child.tick run around
    InOrder run kind (child :: rest) around [first]
      ⟨first.status, .composite kind (first.node :: rest), first.around⟩ :=
  ⟨⟨_, rfl⟩, by simp, .inr ⟨_, rfl, stops, rfl⟩, rfl, rfl⟩

/-- A child that passes leaves the tick to those behind it. -/
theorem inOrder_pass (passes : (child.tick run around).status = kind.passing)
    (later : InOrder run kind rest (child.tick run around).around ticked
      ⟨status, .composite kind after, end_⟩) :
    let first := child.tick run around
    InOrder run kind (child :: rest) around (first :: ticked)
      ⟨status, .composite kind (first.node :: after), end_⟩ := by
  intro first
  obtain ⟨inTurn, passed, ended, node, last⟩ := later
  rw [composite.injEq] at node
  refine ⟨(List.prefix_cons_inj first).mpr inTurn, ?_, ?_, ?_, ?_⟩
  · cases ticked with
    | nil => simp
    | cons second others =>
      rw [List.dropLast_cons_cons, List.forall_mem_cons]
      exact ⟨passes, passed⟩
  · rcases ended with ⟨all, pass, same⟩ | ⟨stop, member, stops, same⟩
    · refine .inl ⟨congrArg (· + 1) all, ?_, same⟩
      rw [List.forall_mem_cons]
      exact ⟨passes, pass⟩
    · refine .inr ⟨stop, ?_, stops, same⟩
      rw [List.getLast?_cons, member]
      rfl
  · rw [node.2]
    rfl
  · change end_ = _ at last
    change end_ = _
    rw [last, List.getLast?_cons]
    cases ticked.getLast? <;> rfl

end

/-- One tick of the children of a composite, and what their stand-ins note. -/
theorem tickChildren_inOrder (children : List (Tree ℓ)) (around : ω) (first : Nat)
    (notes : List ((Nat × Tree ℓ) × Status)) :
    let done := tickChildren run kind children around
    ∃ ticked, InOrder run kind children around ticked
        ⟨done.status, .composite kind done.node, done.around⟩ ∧
      (tickChildren (noting (standIn run)) kind (placed first children)
          (around, notes)).around.2.map visitOf =
        notes.map visitOf ++ ticked.mapIdx fun place outcome => (first + place, outcome.status) := by
  induction children generalizing around first notes with
  | nil => exact ⟨[], inOrder_nil run kind around, by simp [placed, tickChildren]⟩
  | cons child rest ih =>
    by_cases passes : (child.tick run around).status = kind.passing
    · obtain ⟨ticked, later, noted⟩ := ih (child.tick run around).around (first + 1)
        (notes ++ [((first, child), (child.tick run around).status)])
      refine ⟨child.tick run around :: ticked, ?_, ?_⟩
      · rw [tickChildren]
        dsimp only
        rw [if_pos passes]
        exact inOrder_pass passes later
      · simp only [passes, placed, tickChildren, tick, noting, standIn, ↓reduceIte] at noted ⊢
        have shift : ∀ place, first + 1 + place = first + (place + 1) := by omega
        rw [noted, List.map_append, List.mapIdx_cons, List.append_assoc]
        simp [visitOf, passes, shift]
    · refine ⟨[child.tick run around], ?_, ?_⟩
      · rw [tickChildren]
        dsimp only
        rw [if_neg passes]
        exact inOrder_stop rest passes
      · simp only [passes, placed, tickChildren, tick, noting, standIn, ↓reduceIte]
        simp [visitOf]

/-- One tick of a composite, and what its stand-ins note of it. -/
theorem tick_inOrder (children : List (Tree ℓ)) (around : ω) :
    ∃ ticked, InOrder run kind children around ticked
        ((Tree.composite kind children).tick run around) ∧
      visits run kind children around =
        ticked.mapIdx fun place outcome => (place, outcome.status) := by
  obtain ⟨ticked, inOrder, noted⟩ := tickChildren_inOrder run kind children around 0 []
  refine ⟨ticked, inOrder, ?_⟩
  simpa [visits, trace, tick] using noted

/-! ## Counts -/

theorem countP_place (ticked : List (Outcome (Tree ℓ) ω)) (place : Nat) :
    (ticked.mapIdx fun place outcome => (place, outcome.status)).countP (·.1 == place) =
      if place < ticked.length then 1 else 0 := by
  induction ticked using List.reverseRecOn with
  | nil => rfl
  | append_singleton earlier last ih =>
    rw [List.mapIdx_concat, List.countP_append, ih, List.countP_singleton, List.length_append]
    grind

theorem count_report (ticked : List (Outcome (Tree ℓ) ω)) (place : Nat) (status : Status) :
    (ticked.mapIdx fun place outcome => (place, outcome.status)).count (place, status) =
      if (ticked[place]?.map (·.status)) = some status then 1 else 0 := by
  induction ticked using List.reverseRecOn with
  | nil => rfl
  | append_singleton earlier last ih =>
    rw [List.mapIdx_concat, List.count_append, ih, List.count_singleton]
    grind

section
variable {run kind} {children : List (Tree ℓ)} {around : ω}
  {ticked : List (Outcome (Tree ℓ) ω)} {done : Outcome (Tree ℓ) ω}

theorem length_inTurn (run : Runner ℓ ω) (children : List (Tree ℓ)) (around : ω) :
    (Tree.inTurn run children around).length = children.length := by
  induction children generalizing around with
  | nil => rfl
  | cons child rest ih => exact congrArg (· + 1) (ih _)

theorem ticked_within (inOrder : InOrder run kind children around ticked done) :
    ticked.length ≤ children.length :=
  (length_inTurn run children around) ▸ inOrder.inTurn.length_le

theorem ticked_first (inOrder : InOrder run kind children around ticked done)
    (some_child : children ≠ []) : 0 < ticked.length := by
  rcases inOrder.ended with ⟨all, -⟩ | ⟨last, member, -⟩
  · rw [all]
    exact List.length_pos_iff.mpr some_child
  · rw [List.length_pos_iff]
    rintro rfl
    cases member

/-- A child is ticked exactly if the one before it passes. -/
theorem ticked_next (inOrder : InOrder run kind children around ticked done) {place : Nat}
    (within : place + 1 < children.length) :
    place + 1 < ticked.length ↔ ticked[place]?.map (·.status) = some kind.passing := by
  constructor
  · intro next
    have inside : place < ticked.dropLast.length := by
      rw [List.length_dropLast]
      omega
    have passed := inOrder.passed _ (List.getElem_mem inside)
    rw [List.getElem_dropLast] at passed
    rw [List.getElem?_eq_getElem (by omega), Option.map_some, passed]
  · intro passes
    obtain ⟨outcome, found, passes⟩ := Option.map_eq_some_iff.mp passes
    obtain ⟨inside, same⟩ := List.getElem?_eq_some_iff.mp found
    by_contra last
    have final : ticked.getLast? = some outcome := by
      rw [List.getLast?_eq_getElem?, ← found]
      congr 1
      omega
    rcases inOrder.ended with ⟨all, -⟩ | ⟨stop, member, stops, -⟩
    · omega
    · rw [final] at member
      cases member
      exact stops passes

end

/-- In one tick. -/
theorem count_visits (children : List (Tree ℓ)) (around : ω) :
    let noted := visits run kind children around
    (children ≠ [] → noted.countP (·.1 == 0) = 1) ∧
      ∀ place, place + 1 < children.length →
        noted.countP (·.1 == place + 1) = noted.count (place, kind.passing) := by
  obtain ⟨ticked, inOrder, same⟩ := tick_inOrder run kind children around
  rw [same]
  refine ⟨?_, ?_⟩
  · intro some_child
    rw [countP_place, if_pos (ticked_first inOrder some_child)]
  · intro place within
    rw [countP_place, count_report, if_congr (ticked_next inOrder within) rfl rfl]

end

/-! ## Runs of a composite -/

/-- The children of a composite. -/
def children : Tree ℓ → List (Tree ℓ)
  | .composite _ children => children
  | _ => []

theorem length_rounds (run : κ → Runner ℓ ω) (turns : List (Turn κ ω)) (tree : Tree ℓ)
    (around : ω) : (tree.rounds run turns around).length = turns.length := by
  induction turns generalizing tree around with
  | nil => rfl
  | cons turn later ih => exact congrArg (· + 1) (ih _ _)

/-- A composite keeps its kind and the number of its children. -/
theorem rounds_composite (run : κ → Runner ℓ ω) (kind : Composite) (turns : List (Turn κ ω))
    (children : List (Tree ℓ)) (around : ω) :
    ∀ round ∈ (Tree.composite kind children).rounds run turns around,
      ∃ current : List (Tree ℓ),
        round.tree = .composite kind current ∧ current.length = children.length := by
  induction turns generalizing children around with
  | nil => simp [rounds]
  | cons turn later ih =>
    rw [rounds, List.forall_mem_cons]
    refine ⟨⟨children, rfl, rfl⟩, ?_⟩
    obtain ⟨ticked, inOrder, -⟩ :=
      tick_inOrder (run turn.context) kind children (turn.change around)
    have within := ticked_within inOrder
    have kept : (ticked.map (·.node) ++ children.drop ticked.length).length = children.length := by
      rw [List.length_append, List.length_map, List.length_drop]
      omega
    have next := ih (ticked.map (·.node) ++ children.drop ticked.length)
      (Round.done run ⟨turn.context, .composite kind children, turn.change around⟩).around
    rw [kept, ← inOrder.node] at next
    exact next

/-- The visits of all rounds of a composite, in order. -/
def journal (run : κ → Runner ℓ ω) (kind : Composite) (rounds : List (Round κ ℓ ω)) :
    List (Nat × Status) :=
  rounds.flatMap fun round =>
    visits (run round.context) kind round.tree.children round.around

/-- Over a run. -/
theorem count_journal (run : κ → Runner ℓ ω) (kind : Composite) (size : Nat)
    (rounds : List (Round κ ℓ ω))
    (composite : ∀ round ∈ rounds, round.tree.children.length = size) :
    let noted := journal run kind rounds
    (0 < size → noted.countP (·.1 == 0) = rounds.length) ∧
      ∀ place, place + 1 < size →
        noted.countP (·.1 == place + 1) = noted.count (place, kind.passing) := by
  induction rounds with
  | nil => simp [journal]
  | cons round later ih =>
    obtain ⟨here, rest⟩ := List.forall_mem_cons.mp composite
    obtain ⟨first, next⟩ := ih rest
    obtain ⟨first_now, next_now⟩ :=
      count_visits (run round.context) kind round.tree.children round.around
    rw [journal, List.flatMap_cons]
    constructor
    · intro some_child
      have present : round.tree.children ≠ [] := List.length_pos_iff.mp (here ▸ some_child)
      rw [List.countP_append, first_now present, List.length_cons, Nat.add_comm 1]
      exact congrArg (· + 1) (first some_child)
    · intro place within
      rw [List.countP_append, List.count_append, next_now place (here ▸ within)]
      exact congrArg _ (next place within)

/-- A composite over any number of ticks, whatever happens to the surroundings
between them. In each tick it ticks its children in order, each in what the one
before it has left, stops at the first that does not pass and reports what that
one reports, or passes after all of them; the children behind stay as they are.
Hence the first child is ticked in every tick, and every other child exactly as
often as the one before it passes: progress is never remembered. -/
theorem composite_runs_in_order (run : κ → Runner ℓ ω) (kind : Composite)
    (children : List (Tree ℓ)) (turns : List (Turn κ ω)) (around : ω) :
    let rounds := (Tree.composite kind children).rounds run turns around
    let noted := journal run kind rounds
    rounds.length = turns.length ∧
      (∀ round ∈ rounds, ∃ current ticked, round.tree = .composite kind current ∧
        current.length = children.length ∧
        InOrder (run round.context) kind current round.around ticked (round.done run) ∧
        visits (run round.context) kind current round.around =
          ticked.mapIdx fun place outcome => (place, outcome.status)) ∧
      (children ≠ [] → noted.countP (·.1 == 0) = turns.length) ∧
      ∀ place, place + 1 < children.length →
        noted.countP (·.1 == place + 1) = noted.count (place, kind.passing) := by
  intro rounds noted
  have shape := rounds_composite run kind turns children around
  have length := length_rounds run turns (.composite kind children) around
  have size : ∀ round ∈ rounds, round.tree.children.length = children.length := by
    intro round member
    obtain ⟨current, tree, length⟩ := shape round member
    rw [tree]
    exact length
  obtain ⟨first, next⟩ := count_journal run kind children.length rounds size
  refine ⟨length, ?_, ?_, next⟩
  · intro round member
    obtain ⟨current, tree, length⟩ := shape round member
    obtain ⟨ticked, inOrder, noted⟩ :=
      tick_inOrder (run round.context) kind current round.around
    refine ⟨current, ticked, tree, length, ?_, noted⟩
    rw [Round.done, tree]
    exact inOrder
  · intro some_child
    exact (first (List.length_pos_iff.mpr some_child)).trans length

/-- A runner of scripts: a leaf reports what its script says, one status a tick. -/
def scripted : Runner (List Status) Nat :=
  fun script count => ⟨script.headD .failure, script.drop 1, count + 1⟩

/-- A guard that fails once stands in front of an action that keeps running. -/
theorem guard_is_tested_anew :
    let guarded : List (Tree (List Status)) :=
      [.leaf [.success, .failure, .success], .leaf [.running, .running]]
    let turns : List (Turn Unit Nat) := [⟨(), id⟩, ⟨(), (· + 10)⟩, ⟨(), id⟩]
    let noted := journal (fun _ => scripted) .sequence
      ((Tree.composite .sequence guarded).rounds (fun _ => scripted) turns 0)
    noted.countP (·.1 == 0) = 3 ∧ noted.countP (·.1 == 1) = 2 := by
  intro guarded turns noted
  obtain ⟨-, -, first, next⟩ :=
    composite_runs_in_order (fun _ => scripted) .sequence guarded turns 0
  have passes : noted.count (0, .success) = 2 := by decide +kernel
  exact ⟨first (List.cons_ne_nil _ _), (next 0 (by decide)).trans passes⟩

end Tree

end Sentry
