import Sentry.Tree.Basic

/-! Deciders. A decider owns a tree, which may be taken out and put back, and
remembers the status of its latest evaluation. -/
namespace Sentry

universe u v

/-- A tree, if there is one, and the latest status, if there was an evaluation. -/
structure Decider (ℓ : Type u) where
  root : Option (Tree ℓ) := none
  last : Option Status := none

namespace Decider

variable {ℓ : Type u} {ω : Type v}

def empty : Decider ℓ := {}

instance : Inhabited (Decider ℓ) := ⟨empty⟩

def ofTree (tree : Tree ℓ) : Decider ℓ :=
  { root := some tree }

def hasRoot (d : Decider ℓ) : Bool :=
  d.root.isSome

def setRoot (d : Decider ℓ) (tree : Tree ℓ) : Decider ℓ :=
  { d with root := some tree }

def clearRoot (d : Decider ℓ) : Option (Tree ℓ) × Decider ℓ :=
  (d.root, { d with root := none })

/-- One evaluation. -/
def evaluate (run : Runner ℓ ω) (d : Decider ℓ) (around : ω) : Outcome (Decider ℓ) ω :=
  match d.root with
  | some tree =>
    let done := tree.tick run around
    ⟨done.status, { root := some done.node, last := some done.status }, done.around⟩
  | none => ⟨.failure, { d with last := some .failure }, around⟩

end Decider

end Sentry
