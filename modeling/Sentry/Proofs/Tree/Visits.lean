import Sentry.Proofs.Tree.Composites

/-! Visits to leaves. A leaf is known by its place among all leaves of its tree,
counted from the left. A tick visits leaves from left to right, none of them
twice; it leaves those it does not visit, and the tree around them, as they are;
and it reports what the last of them reports. -/
namespace Sentry

universe u v

variable {ℓ : Type u} {ω : Type v}

/-- A leaf that has been run: its place, what it was and has become, and what it
has reported. -/
structure Visit (ℓ : Type u) where
  place : Nat
  found : ℓ
  left : ℓ
  status : Status

namespace Tree

/-! ## Places -/

mutual

/-- The tree with its leaves numbered from left to right, from `first` on. -/
def numbered (first : Nat) : Tree ℓ → Tree (Nat × ℓ)
  | .leaf l => .leaf (first, l)
  | .composite kind children => .composite kind (numberedChildren first children)
  | .boxed child => .boxed (numbered first child)

/-- Several trees with their leaves numbered on and on. -/
def numberedChildren (first : Nat) : List (Tree ℓ) → List (Tree (Nat × ℓ))
  | [] => []
  | child :: rest =>
    numbered first child :: numberedChildren (first + (leaves child).length) rest

end

/-- The runner of numbered leaves, which keep their numbers. It notes each visit. -/
def touring (run : Runner ℓ ω) : Runner (Nat × ℓ) (ω × List (Visit ℓ)) :=
  fun l around =>
    let done := run l.2 around.1
    ⟨done.status, (l.1, done.node),
      (done.around, around.2 ++ [⟨l.1, l.2, done.node, done.status⟩])⟩

/-- The visits of a tick, in order. -/
def tour (run : Runner ℓ ω) (tree : Tree ℓ) (around : ω) : List (Visit ℓ) :=
  ((tree.numbered 0).tick (touring run) (around, [])).around.2

/-- A tree without empty composites. -/
inductive Populated : Tree ℓ → Prop
  | leaf (data : ℓ) : Populated (.leaf data)
  | composite {kind : Composite} {children : List (Tree ℓ)} (some_child : children ≠ [])
    (each : ∀ child ∈ children, Populated child) : Populated (.composite kind children)
  | boxed {child : Tree ℓ} (inside : Populated child) : Populated (.boxed child)

/-! ## What visits do to leaves -/

/-- Leaves from the place `first` on, before and after some visits. The places
rise; a visited leaf is left as its visit says, and any other as it was. -/
structure Toured (first : Nat) (before after : List ℓ) (visits : List (Visit ℓ)) : Prop where
  length : after.length = before.length
  rising : visits.Pairwise (·.place < ·.place)
  visited : ∀ visit ∈ visits, ∃ index, visit.place = first + index ∧
    before[index]? = some visit.found ∧ after[index]? = some visit.left
  skipped : ∀ index, (∀ visit ∈ visits, visit.place ≠ first + index) →
    after[index]? = before[index]?

section
variable {first : Nat} {before after before' after' : List ℓ} {visits visits' : List (Visit ℓ)}

theorem toured_nothing (first : Nat) (before : List ℓ) : Toured first before before [] :=
  ⟨rfl, .nil, by simp, fun _ _ => rfl⟩

/-- A visit lies within the leaves it is about. -/
theorem place_within (toured : Toured first before after visits) :
    ∀ visit ∈ visits, first ≤ visit.place ∧ visit.place < first + before.length := by
  intro visit member
  obtain ⟨index, place, found, -⟩ := toured.visited visit member
  obtain ⟨inside, -⟩ := List.getElem?_eq_some_iff.mp found
  omega

/-- Visits to leaves, and then to those on their right. -/
theorem toured_append (left : Toured first before after visits)
    (right : Toured (first + before.length) before' after' visits') :
    Toured first (before ++ before') (after ++ after') (visits ++ visits') := by
  have same := left.length
  have inside := place_within left
  have outside := place_within right
  constructor
  case length => rw [List.length_append, List.length_append, same, right.length]
  case rising =>
    refine List.pairwise_append.mpr ⟨left.rising, right.rising, ?_⟩
    intro early early_in late late_in
    have := inside early early_in
    have := outside late late_in
    omega
  case visited =>
    rw [List.forall_mem_append]
    constructor
    · intro visit member
      obtain ⟨index, place, found, stays⟩ := left.visited visit member
      obtain ⟨known, -⟩ := List.getElem?_eq_some_iff.mp found
      refine ⟨index, place, ?_, ?_⟩
      · rwa [List.getElem?_append_left known]
      · rwa [List.getElem?_append_left (same ▸ known)]
    · intro visit member
      obtain ⟨index, place, found, stays⟩ := right.visited visit member
      refine ⟨before.length + index, by omega, ?_, ?_⟩
      · rwa [List.getElem?_append_right (by omega), Nat.add_sub_cancel_left]
      · rwa [List.getElem?_append_right (by omega), same, Nat.add_sub_cancel_left]
  case skipped =>
    intro index others
    rw [List.forall_mem_append] at others
    by_cases known : index < before.length
    · rw [List.getElem?_append_left known, List.getElem?_append_left (same ▸ known)]
      exact left.skipped index others.1
    · obtain ⟨beyond, rfl⟩ := Nat.exists_eq_add_of_le (Nat.not_lt.mp known)
      rw [List.getElem?_append_right (by omega), List.getElem?_append_right (by omega), same,
        Nat.add_sub_cancel_left]
      refine right.skipped beyond fun visit member => ?_
      have := others.2 visit member
      omega

end

/-! ## The visits of a tick -/

/-- The status is that of the last visit, or the given one if there was none. -/
def LastReport (visits : List (Visit ℓ)) (otherwise status : Status) : Prop :=
  status = (visits.getLast?.map (·.status)).getD otherwise

theorem lastReport_of_last {visits : List (Visit ℓ)} {status : Status} (otherwise : Status)
    (reports : ∃ last ∈ visits.getLast?, status = last.status) :
    LastReport visits otherwise status := by
  obtain ⟨last, ends, same⟩ := reports
  rw [LastReport, ends]
  exact same

theorem lastReport_append {visits visits' : List (Visit ℓ)} {otherwise status : Status}
    (left : LastReport visits otherwise otherwise) (right : LastReport visits' otherwise status) :
    LastReport (visits ++ visits') otherwise status := by
  unfold LastReport at left right ⊢
  rw [List.getLast?_append]
  cases ends : visits'.getLast? with
  | none =>
    rw [ends] at right
    exact right.trans left
  | some last =>
    rw [ends] at right
    exact right

section
variable (run : Runner ℓ ω)

mutual

/-- Numbered leaves are run like those without numbers, and what is noted of
them besides is a tour. -/
theorem tick_tours (tree : Tree ℓ) (first : Nat) (around : ω) (earlier : List (Visit ℓ)) :
    let done := tree.tick run around
    ∃ visits, (tree.numbered first).tick (touring run) (around, earlier) =
        ⟨done.status, done.node.numbered first, (done.around, earlier ++ visits)⟩ ∧
      Toured first tree.leaves done.node.leaves visits ∧
      (tree.Populated → ∃ last ∈ visits.getLast?, done.status = last.status) := by
  cases tree with
  | leaf data =>
    refine ⟨[⟨first, data, (run data around).node, (run data around).status⟩], rfl, ?_, ?_⟩
    · refine ⟨rfl, List.pairwise_singleton _ _, ?_, ?_⟩
      · rw [List.forall_mem_singleton]
        exact ⟨0, rfl, rfl, rfl⟩
      · intro index others
        rw [List.forall_mem_singleton] at others
        cases index with
        | zero => exact absurd rfl others
        | succ index => rfl
    · exact fun _ => ⟨_, rfl, rfl⟩
  | composite kind children =>
    obtain ⟨visits, same, toured, reports⟩ :=
      tickChildren_tours kind children first around earlier
    refine ⟨visits, ?_, toured, ?_⟩
    · rw [numbered, tick, same]
      rfl
    · rintro (_ | ⟨some_child, each⟩ | _)
      obtain ⟨report, reached⟩ := reports each
      have ends := List.getLast?_eq_some_getLast (reached some_child)
      rw [LastReport, ends] at report
      exact ⟨_, ends, report⟩
  | boxed child =>
    obtain ⟨visits, same, toured, reports⟩ := tick_tours child first around earlier
    refine ⟨visits, ?_, toured, ?_⟩
    · rw [numbered, tick, same]
      rfl
    · rintro (_ | _ | inside)
      exact reports inside

theorem tickChildren_tours (kind : Composite) (children : List (Tree ℓ)) (first : Nat)
    (around : ω) (earlier : List (Visit ℓ)) :
    let done := tickChildren run kind children around
    ∃ visits, tickChildren (touring run) kind (numberedChildren first children) (around, earlier) =
        ⟨done.status, numberedChildren first done.node, (done.around, earlier ++ visits)⟩ ∧
      Toured first (childLeaves children) (childLeaves done.node) visits ∧
      ((∀ child ∈ children, child.Populated) →
        LastReport visits kind.passing done.status ∧ (children ≠ [] → visits ≠ [])) := by
  cases children with
  | nil =>
    refine ⟨[], ?_, toured_nothing first [], fun _ => ⟨rfl, fun none => absurd rfl none⟩⟩
    simp [tickChildren, numberedChildren]
  | cons child rest =>
    obtain ⟨visits, same, toured, reports⟩ := tick_tours child first around earlier
    have length : (child.tick run around).node.leaves.length = child.leaves.length :=
      toured.length
    by_cases passes : (child.tick run around).status = kind.passing
    · obtain ⟨visits', same', toured', reports'⟩ := tickChildren_tours kind rest
        (first + child.leaves.length) (child.tick run around).around (earlier ++ visits)
      refine ⟨visits ++ visits', ?_, ?_, ?_⟩
      · simp only [numberedChildren, tickChildren, same, passes, same', length, List.append_assoc,
          ↓reduceIte]
      · simp only [tickChildren, passes, ↓reduceIte]
        exact toured_append toured toured'
      · intro each
        obtain ⟨here, others⟩ := List.forall_mem_cons.mp each
        obtain ⟨last, ends, passed⟩ := reports here
        refine ⟨?_, fun _ => ?_⟩
        · simp only [tickChildren, passes, ↓reduceIte]
          refine lastReport_append ?_ (reports' others).1
          exact lastReport_of_last kind.passing ⟨last, ends, passes.symm.trans passed⟩
        · exact List.append_ne_nil_of_left_ne_nil (List.ne_nil_of_mem (List.mem_of_getLast? ends)) _
    · refine ⟨visits, ?_, ?_, ?_⟩
      · simp only [numberedChildren, tickChildren, same, passes, length, ↓reduceIte]
      · simp only [tickChildren, passes, ↓reduceIte]
        have behind := toured_nothing (first + child.leaves.length) (childLeaves rest)
        have whole := toured_append toured behind
        rwa [List.append_nil] at whole
      · intro each
        obtain ⟨last, ends, same⟩ := reports (each child List.mem_cons_self)
        simp only [tickChildren, passes, ↓reduceIte]
        exact ⟨lastReport_of_last kind.passing ⟨last, ends, same⟩,
          fun _ => List.ne_nil_of_mem (List.mem_of_getLast? ends)⟩

end

mutual

theorem tick_shape (tree : Tree ℓ) (around : ω) :
    (tree.tick run around).node.shape = tree.shape := by
  cases tree with
  | leaf data => rfl
  | composite kind children =>
    exact congrArg (composite kind) (tickChildren_shape kind children around)
  | boxed child => exact congrArg boxed (tick_shape child around)

theorem tickChildren_shape (kind : Composite) (children : List (Tree ℓ)) (around : ω) :
    mapChildren (fun _ => ()) (tickChildren run kind children around).node =
      mapChildren (fun _ => ()) children := by
  cases children with
  | nil => rfl
  | cons child rest =>
    have first : map (fun _ => ()) (child.tick run around).node = map (fun _ => ()) child :=
      tick_shape child around
    rw [tickChildren]
    dsimp only
    split
    · exact congrArg₂ List.cons first (tickChildren_shape kind rest _)
    · exact congrArg (· :: mapChildren (fun _ => ()) rest) first

end

end

/-- The discipline of leaves, in any tree, whatever its leaves do with their own
state and with what is around them. A tick visits leaves from left to right and
none of them twice. A leaf that is not visited stays as it is, and so does the
tree around the leaves, whose numbers are still in order after the tick. If no
composite is empty, some leaf is visited, and the tick reports what the last
visited leaf has reported. -/
theorem leaves_are_visited_in_turn (run : Runner ℓ ω) (tree : Tree ℓ) (around : ω) :
    let done := tree.tick run around
    let visits := tree.tour run around
    Toured 0 tree.leaves done.node.leaves visits ∧
      (tree.numbered 0).tick (touring run) (around, []) =
        ⟨done.status, done.node.numbered 0, (done.around, visits)⟩ ∧
      done.node.shape = tree.shape ∧
      (tree.Populated → ∃ last ∈ visits.getLast?, done.status = last.status) := by
  intro done visits
  obtain ⟨noted, same, toured, reports⟩ := tick_tours run tree 0 around []
  have all : visits = noted := by
    simp only [visits, tour, same, List.nil_append]
  rw [all]
  exact ⟨toured, same, tick_shape run tree around, reports⟩

/-- The last leaf is not reached, and the one before it has the last word. -/
theorem running_leaf_has_last_word :
    let tree : Tree (List Status) :=
      .composite .sequence [.leaf [.success],
        .composite .selector [.leaf [.failure], .boxed (.leaf [.running])], .leaf [.success]]
    tree.Populated ∧ (tree.tour scripted 0).map (·.place) = [0, 1, 2] ∧
      ∃ last ∈ (tree.tour scripted 0).getLast?, (tree.tick scripted 0).status = last.status := by
  intro tree
  have populated : tree.Populated := by
    refine .composite (List.cons_ne_nil _ _) ?_
    simp only [List.forall_mem_cons, List.not_mem_nil, false_implies, implies_true, and_true]
    refine ⟨.leaf _, .composite (List.cons_ne_nil _ _) ?_, .leaf _⟩
    simp only [List.forall_mem_cons, List.not_mem_nil, false_implies, implies_true, and_true]
    exact ⟨.leaf _, .boxed (.leaf _)⟩
  obtain ⟨-, -, -, reports⟩ := leaves_are_visited_in_turn scripted tree 0
  exact ⟨populated, by decide +kernel, reports populated⟩

end Tree

end Sentry
