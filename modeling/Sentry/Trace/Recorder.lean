import Sentry.Trace.Event

/-! Recorders. An agent emits its events to a recorder, which may keep them in a
log, pass them to a sink, do both or do neither. -/
namespace Sentry.Trace

/-- A receiver of events. -/
inductive Sink where
  /-- Forgets every event. -/
  | discarding
  /-- Keeps what it has received, in order. -/
  | keeping (received : List Event)
  deriving DecidableEq

def Sink.accept (event : Event) : Sink → Sink
  | .discarding => .discarding
  | .keeping received => .keeping (received ++ [event])

/-- What a sink still holds of what it was sent. -/
def Sink.received : Sink → List Event
  | .discarding => []
  | .keeping received => received

/-- Where events go. Without a log and a sink they leave no trace. -/
structure Recorder where
  log : Option Log := none
  sink : Option Sink := none
  deriving DecidableEq, Inhabited

namespace Recorder

/-- The recorder with a new, empty log. -/
def withLog (r : Recorder) : Recorder :=
  { r with log := some {} }

def withSink (r : Recorder) (sink : Sink) : Recorder :=
  { r with sink := some sink }

/-- Events leave a trace. -/
def isEnabled (r : Recorder) : Bool :=
  r.log.isSome || r.sink.isSome

/-- The log taken out; an empty one stays behind if there was one. -/
def takeLog (r : Recorder) : Option Log × Recorder :=
  (r.log, { r with log := r.log.map fun _ => {} })

def emit (r : Recorder) (event : Event) : Recorder :=
  { log := r.log.map (·.push event), sink := r.sink.map (·.accept event) }

end Recorder

end Sentry.Trace
