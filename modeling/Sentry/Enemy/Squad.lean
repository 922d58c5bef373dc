import Sentry.Enemy.Brain

/-! Several enemies that share one world. They are ticked in the order of their
stable numbers, so a run does not depend on how the host stores them. -/
namespace Sentry.Enemy

/-- Agents with a number that orders them. -/
class StableId (α : Type) where
  stableId : α → UInt64

instance : StableId UInt64 := ⟨id⟩
instance : StableId UInt32 := ⟨UInt32.toUInt64⟩

namespace Squad

variable {α τ ω : Type}

/-- Brains by rising number; those with equal numbers stay in order. -/
def ordered [StableId α] (brains : List (Brain α)) : List (Brain α) :=
  brains.mergeSort fun a b => StableId.stableId a.agent ≤ StableId.stableId b.agent

/-- One frame of each brain in turn, all in the same world. -/
def tickInOrder (host : Host α τ ω) (frame : Frame) :
    List (Brain α) → ω → List (Brain α) × ω
  | [], world => ([], world)
  | b :: rest, world =>
    let done := b.tick host frame world
    let (others, after) := tickInOrder host frame rest done.around
    (done.node :: others, after)

/-- One frame of all brains, in the order of their numbers. -/
def tick [StableId α] (host : Host α τ ω) (frame : Frame) (brains : List (Brain α)) (world : ω) :
    List (Brain α) × ω :=
  tickInOrder host frame (ordered brains) world

end Squad

end Sentry.Enemy
