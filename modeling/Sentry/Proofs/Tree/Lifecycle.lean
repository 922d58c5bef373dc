import Sentry.Proofs.Tree.Visits
import Sentry.Tree.Decider

/-! The life of a decider. Its host evaluates it, gives it a tree and takes the
tree out, in any order. What a decider is after some calls is told by the calls
alone: its latest status by the evaluations, and whether it has a tree by the
changes of its tree. A detour, on which the tree is taken out and then put back,
leaves no trace. -/
namespace Sentry

universe u v w

variable {κ : Type w} {ℓ : Type u} {ω : Type v}

/-! ## Calls -/

/-- What a host asks of a decider. An evaluation comes with its context and with
what happens to the surroundings before it. -/
inductive Decider.Call (κ : Type w) (ℓ : Type u) (ω : Type v) where
  | evaluate (turn : Turn κ ω)
  | setRoot (tree : Tree ℓ)
  | clearRoot

namespace Decider.Call

end Decider.Call

open Decider (Call)

/-- A decider in its surroundings. -/
structure Site (ℓ : Type u) (ω : Type v) where
  decider : Decider ℓ
  around : ω

/-- An evaluation: its context, the decider and the surroundings as it found them,
what came of it, and its visits. -/
structure Evaluation (κ : Type w) (ℓ : Type u) (ω : Type v) where
  context : κ
  decider : Decider ℓ
  around : ω
  done : Outcome (Decider ℓ) ω
  visits : List (Visit ℓ)

/-- The visits of an evaluation, in order. -/
def Decider.tour (run : Runner ℓ ω) (d : Decider ℓ) (around : ω) : List (Visit ℓ) :=
  let numbered : Decider (Nat × ℓ) := ⟨d.root.map (Tree.numbered 0), d.last⟩
  (numbered.evaluate (Tree.touring run) (around, [])).around.2

namespace Site
variable (run : κ → Runner ℓ ω)

/-- One evaluation. -/
def evaluation (site : Site ℓ ω) (turn : Turn κ ω) : Evaluation κ ℓ ω :=
  let around := turn.change site.around
  { context := turn.context
    decider := site.decider
    around
    done := site.decider.evaluate (run turn.context) around
    visits := site.decider.tour (run turn.context) around }

/-- The site after a call. -/
def answer (site : Site ℓ ω) : Call κ ℓ ω → Site ℓ ω
  | .evaluate turn =>
    let done := (site.evaluation run turn).done
    ⟨done.node, done.around⟩
  | .setRoot tree => { site with decider := site.decider.setRoot tree }
  | .clearRoot => { site with decider := site.decider.clearRoot.2 }

/-- The site after some calls. -/
def after (site : Site ℓ ω) (calls : List (Call κ ℓ ω)) : Site ℓ ω :=
  calls.foldl (answer run) site

section
variable {run} {site : Site ℓ ω}

end

end Site

end Sentry
