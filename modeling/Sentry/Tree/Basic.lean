import Sentry.Tree.Status

/-! Behavior trees of composites over leaves. Composites keep nothing between
ticks: each tick starts again at the first child, so tests in front of a running
action guard it in every frame. A leaf is data of any type. What it does is said
by a runner, which maps a leaf and its surroundings to a status, the leaf
afterwards and the surroundings afterwards; so leaves may keep a state of their
own and may act on whatever the surroundings hold. -/
namespace Sentry

universe u v

/-- The two composites. -/
inductive Composite where
  /-- All children have to succeed. -/
  | sequence
  /-- One child has to take over; earlier ones come first. -/
  | selector
  deriving DecidableEq, Inhabited

namespace Composite

/-- The status on which the composite goes on to its next child, and which it reports when no child
is left. -/
def passing : Composite → Status
  | .sequence => .success
  | .selector => .failure

def dual : Composite → Composite
  | .sequence => .selector
  | .selector => .sequence

theorem passing_dual (kind : Composite) : kind.dual.passing = kind.passing.swap := by
  cases kind <;> rfl

end Composite

/-- A behavior tree over leaves of type `ℓ`. -/
inductive Tree (ℓ : Type u) where
  | leaf (data : ℓ)
  | composite (kind : Composite) (children : List (Tree ℓ))
  | boxed (child : Tree ℓ)

/-- What running a node yields: its report, the node afterwards, and the surroundings. -/
structure Outcome (ν : Type u) (ω : Type v) where
  status : Status
  node : ν
  around : ω

/-- How leaves of type `ℓ` run in surroundings of type `ω`. -/
abbrev Runner (ℓ : Type u) (ω : Type v) :=
  ℓ → ω → Outcome ℓ ω

namespace Tree

variable {ℓ : Type u} {ω : Type v}

mutual

/-- One evaluation of a tree. -/
def tick (run : Runner ℓ ω) : Tree ℓ → ω → Outcome (Tree ℓ) ω
  | .leaf l, around =>
    let done := run l around
    ⟨done.status, .leaf done.node, done.around⟩
  | .composite kind children, around =>
    let done := tickChildren run kind children around
    ⟨done.status, .composite kind done.node, done.around⟩
  | .boxed child, around =>
    let done := tick run child around
    ⟨done.status, .boxed done.node, done.around⟩

/-- The children of a composite in order, until one of them does not report the passing status. -/
def tickChildren (run : Runner ℓ ω) (kind : Composite) :
    List (Tree ℓ) → ω → Outcome (List (Tree ℓ)) ω
  | [], around => ⟨kind.passing, [], around⟩
  | child :: rest, around =>
    let first := tick run child around
    if first.status = kind.passing then
      let others := tickChildren run kind rest first.around
      ⟨others.status, first.node :: others.node, others.around⟩
    else ⟨first.status, first.node :: rest, first.around⟩

end

/-! ## Shape -/

mutual

def leaves : Tree ℓ → List ℓ
  | .leaf l => [l]
  | .composite _ children => childLeaves children
  | .boxed child => leaves child

def childLeaves : List (Tree ℓ) → List ℓ
  | [] => []
  | child :: rest => leaves child ++ childLeaves rest

end

mutual

def map {κ : Type v} (f : ℓ → κ) : Tree ℓ → Tree κ
  | .leaf l => .leaf (f l)
  | .composite kind children => .composite kind (mapChildren f children)
  | .boxed child => .boxed (map f child)

def mapChildren {κ : Type v} (f : ℓ → κ) : List (Tree ℓ) → List (Tree κ)
  | [] => []
  | child :: rest => map f child :: mapChildren f rest

end

/-- A tree without its leaves. -/
def shape (tree : Tree ℓ) : Tree Unit :=
  tree.map fun _ => ()

mutual

/-- The tree with sequences and selectors exchanged. -/
def dual : Tree ℓ → Tree ℓ
  | .leaf l => .leaf l
  | .composite kind children => .composite kind.dual (dualChildren children)
  | .boxed child => .boxed (dual child)

def dualChildren : List (Tree ℓ) → List (Tree ℓ)
  | [] => []
  | child :: rest => dual child :: dualChildren rest

end

/-- A one-element composite is its element; a composite of any other size stays. -/
def ofChildren (kind : Composite) : List (Tree ℓ) → Tree ℓ
  | [child] => child
  | children => .composite kind children

/-- The children of a composite of the same kind; any other tree is its own only child. -/
def splice (kind : Composite) : Tree ℓ → List (Tree ℓ)
  | .composite inner children => if inner = kind then children else [.composite inner children]
  | other => [other]

mutual

/-- The tree without boxes, without composites of one child, and without composites directly inside
one of their own kind. -/
def flatten : Tree ℓ → Tree ℓ
  | .leaf l => .leaf l
  | .composite kind children => ofChildren kind (flattenChildren kind children)
  | .boxed child => flatten child

/-- The children of a flattened composite. -/
def flattenChildren (kind : Composite) : List (Tree ℓ) → List (Tree ℓ)
  | [] => []
  | child :: rest => splice kind (flatten child) ++ flattenChildren kind rest

end

/-! ## Visits -/

/-- The runner that also counts: it notes every leaf it runs, with the status the leaf reported. -/
def noting (run : Runner ℓ ω) : Runner ℓ (ω × List (ℓ × Status)) :=
  fun l around =>
    let done := run l around.1
    ⟨done.status, done.node, (done.around, around.2 ++ [(l, done.status)])⟩

/-- The leaves that an evaluation visits, in order, each with its report. -/
def trace (run : Runner ℓ ω) (tree : Tree ℓ) (around : ω) : List (ℓ × Status) :=
  (tree.tick (noting run) (around, [])).around.2

end Tree

end Sentry
