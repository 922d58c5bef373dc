import Sentry.Number.Width

/-! Frames, in which a host steps the world. A frame carries its number, the
seconds since the frame before it, and the clock at its start. -/
namespace Sentry

/-- One step of the host's loop. -/
structure Frame where
  /-- Number of the frame. -/
  tick : UInt64
  /-- Seconds since the frame before it. -/
  dt : Float32
  /-- Clock at its start, in seconds. -/
  time : Float
  deriving DecidableEq

namespace Frame

/-- Frame `tick` of a clock that starts at zero and advances by `dt` each frame. -/
def fixedStep (tick : UInt64) (dt : Float32) : Frame :=
  ⟨tick, dt, tick.toFloat * widen dt⟩

/-- The frame after this one, of the same length. -/
def next (frame : Frame) : Frame :=
  ⟨frame.tick + 1, frame.dt, frame.time + widen frame.dt⟩

end Frame

end Sentry
