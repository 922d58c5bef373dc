import Sentry.Text.Inspect
import Sentry.Trace.Recorder

/-! Traces shown with the names of their fields. -/
namespace Sentry.Trace

def Event.inspect (event : Event) : String :=
  Inspect.record "TraceEvent"
    [("tick", toString event.tick.toNat), ("tag", Inspect.text event.tag),
      ("a", toString event.a.toNat), ("b", toString event.b.toNat)]

def Log.inspect (log : Log) : String :=
  Inspect.record "TraceLog" [("events", Inspect.list (log.events.map Event.inspect))]

/-- A recorder with its log; of its sink only whether there is one. -/
def Recorder.inspect (r : Recorder) : String :=
  Inspect.record "Tracer"
    [("log", Inspect.option (r.log.map Log.inspect)), ("sink", Inspect.bool r.sink.isSome)]

end Sentry.Trace
