/-! Vectors of the plane with binary32 coordinates: positions, offsets and
directions. A vector that is too short or too long to be told a direction has the
zero vector for one. -/
namespace Sentry

/-- A vector of the plane. -/
structure Vec where
  x : Float32
  y : Float32
  deriving DecidableEq, Inhabited

namespace Vec

def zero : Vec := ⟨0, 0⟩

def right : Vec := ⟨1, 0⟩

def up : Vec := ⟨0, 1⟩

instance : Add Vec := ⟨fun a b => ⟨a.x + b.x, a.y + b.y⟩⟩
instance : Sub Vec := ⟨fun a b => ⟨a.x - b.x, a.y - b.y⟩⟩
instance : Neg Vec := ⟨fun a => ⟨-a.x, -a.y⟩⟩
instance : HMul Vec Float32 Vec := ⟨fun a k => ⟨a.x * k, a.y * k⟩⟩
instance : HDiv Vec Float32 Vec := ⟨fun a k => ⟨a.x / k, a.y / k⟩⟩

/-- The coordinates are equal as numbers: zeros of both signs agree, and a NaN agrees with
nothing. -/
def agrees (a b : Vec) : Bool :=
  a.x == b.x && a.y == b.y

def dot (a b : Vec) : Float32 :=
  a.x * b.x + a.y * b.y

def lengthSquared (a : Vec) : Float32 :=
  a.dot a

def length (a : Vec) : Float32 :=
  a.lengthSquared.sqrt

def distance (a b : Vec) : Float32 :=
  (b - a).length

/-- Lengths up to this one are too short to have a direction: the gap between one and the next
larger binary32 number. -/
def shortest : Float32 :=
  Float32.ofBits 0x34000000

/-- The unit vector of the same direction; zero if the vector is too short or too long to have
one. -/
def unit (a : Vec) : Vec :=
  if a.length ≤ shortest || !a.length.isFinite then zero else a / a.length

/-- The direction from `a` to `b`. -/
def toward (a b : Vec) : Vec :=
  (b - a).unit

def isFinite (a : Vec) : Bool :=
  a.x.isFinite && a.y.isFinite

end Vec

end Sentry
