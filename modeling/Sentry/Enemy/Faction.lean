/-! Factions. Area queries look for bodies by layer, and a layer is a set of
factions, one bit each. -/
namespace Sentry

/-- A set of factions. -/
structure Faction where
  bits : UInt32
  deriving DecidableEq, Inhabited

namespace Faction

def player : Faction := ⟨1⟩

def enemy : Faction := ⟨2⟩

def neutral : Faction := ⟨4⟩

/-- Every faction of `b` is one of `a`. -/
def contains (a b : Faction) : Bool :=
  a.bits &&& b.bits == b.bits

/-- The two sets share a faction. -/
def intersects (a b : Faction) : Bool :=
  a.bits &&& b.bits != 0

end Faction

end Sentry
