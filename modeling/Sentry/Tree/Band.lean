/-! Distance bands, which the range tests of a tree are about. -/
namespace Sentry

/-- The distances from `min` to `max`. -/
structure Band where
  min : Float32
  max : Float32
  deriving DecidableEq

/-- The distance lies between the bounds. -/
def Band.contains (band : Band) (distance : Float32) : Bool :=
  band.min ≤ distance && distance ≤ band.max

end Sentry
