/-! Plain records of what happened, kept during a run and shown later. What the
two numbers of an event mean depends on its tag. -/
namespace Sentry.Trace

/-- One thing that happened. -/
structure Event where
  tick : UInt64
  tag : String
  a : UInt64 := 0
  b : UInt64 := 0
  deriving DecidableEq, Inhabited

/-- Events in the order of emission. -/
structure Log where
  events : List Event := []
  deriving DecidableEq, Inhabited

namespace Log

def push (log : Log) (event : Event) : Log :=
  ⟨log.events ++ [event]⟩

def withTag (log : Log) (tag : String) : List Event :=
  log.events.filter (·.tag == tag)

end Log

end Sentry.Trace
