import Sentry.Enemy.Brain
import Sentry.Text.Inspect

/-! Brains shown with agent, state and latest status. -/
namespace Sentry.Enemy

def inspectEntry (entry : Timer.Entry Alarm) : String :=
  Inspect.record "Scheduled"
    [("id", Inspect.wrapped "TimerId" (toString entry.id.toNat)),
      ("due", Inspect.number entry.due), ("event", entry.event.name)]

def inspectQueue (q : Timer.Queue Alarm) : String :=
  Inspect.record "TimerQueue"
    [("now", Inspect.number q.now), ("horizon", Inspect.number q.horizon),
      ("next_id", toString q.nextId.toNat),
      ("pending", Inspect.list (q.pending.map inspectEntry))]

def State.inspect (s : State) : String :=
  Inspect.record "EnemyState"
    [("label", s.label.name), ("is_stunned", Inspect.bool s.isStunned),
      ("can_attack", Inspect.bool s.canAttack), ("waypoint_index", toString s.waypoint),
      ("facing", s.facing.name), ("attack", s.phase.name), ("timers", inspectQueue s.alarms)]

/-- A brain, without its settings, its tree and its trace. -/
def Brain.inspect {α : Type} (agent : α → String) (b : Brain α) : String :=
  Inspect.record "EnemyBrain"
    [("agent", agent b.agent), ("state", b.state.inspect),
      ("last_status", Inspect.option (b.lastStatus.map Status.name))]

end Sentry.Enemy
