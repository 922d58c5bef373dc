import Sentry.Proofs.Enemy.Beats

/-! What an enemy traces. Each beat emits at most one event, so after a run the
log holds the events of its beats, in order. -/
namespace Sentry

/-! ## Recorders -/

namespace Trace.Recorder

/-- The recorder after several events. -/
def emitAll (r : Recorder) (events : List Event) : Recorder :=
  events.foldl emit r

variable (r : Recorder)

theorem emitAll_append (first second : List Event) :
    r.emitAll (first ++ second) = (r.emitAll first).emitAll second :=
  List.foldl_append

/-- A log keeps every event, behind those it held before. -/
theorem emitAll_log (events : List Event) :
    (r.emitAll events).log = r.log.map fun log => ⟨log.events ++ events⟩ := by
  induction events generalizing r with
  | nil => cases h : r.log <;> simp [emitAll, h]
  | cons first rest ih =>
    have later := ih (r.emit first)
    cases held : r.log with
    | none => simpa [emitAll, emit, held] using later
    | some log => simpa [emitAll, emit, held, Log.push] using later

end Trace.Recorder

namespace Enemy
open Timer

variable {α τ ω : Type}

/-! ## Events of a beat -/

/-- The event of a change of label in a frame, if it is a change. -/
def labelEvents (frame : Frame) (old new : Label) : List Trace.Event :=
  if new = old then []
  else [{ tick := frame.tick, tag := "enemy.label", a := new.code, b := old.code }]

/-- The event of an alarm in a frame. -/
def alarmEvent (frame : Frame) (alarm : Alarm) : Trace.Event :=
  { tick := frame.tick, tag := "enemy.timer", a := alarm.code }

/-- The event of a stun in a frame. -/
def stunEvent (frame : Frame) : Trace.Event :=
  { tick := frame.tick, tag := "enemy.stun" }

/-- What an enemy traces in a beat: the alarm, the change of label if there is
one, or the stun if it is accepted. -/
def Beat.events (host : Host α τ ω) (beat : Beat α ω) : List Trace.Event :=
  match beat.cause with
  | .alarm alarm => [alarmEvent beat.frame alarm]
  | .evaluation => labelEvents beat.frame beat.brain.state.label (beat.after host).label
  | .stun => if beat.brain.state.isStunned then [] else [stunEvent beat.frame]

variable (host : Host α τ ω) (frame : Frame) (b : Brain α) (world : ω)

theorem act_recorder (beat : Beat α ω) :
    (beat.act host).1.recorder = beat.brain.recorder.emitAll (beat.events host) := by
  obtain ⟨cause, frame, b, world⟩ := beat
  cases cause with
  | alarm alarm => rfl
  | evaluation =>
    simp only [Beat.events, Beat.after, Beat.act, Brain.decide, labelEvents]
    split
    next => simp [Trace.Recorder.emitAll]
    next changed => simp [changed, Brain.emit, Trace.Recorder.emitAll]
  | stun =>
    have stunned := requestStun_state host b.agent b.config ⟨world, b.state⟩
    simp only [Beat.events, Beat.act, Brain.requestStun, stunned.1]
    cases b.state.isStunned <;> rfl

theorem settle_recorder : (b.settle host frame world).1.recorder =
    b.recorder.emitAll ((b.trail host frame world).flatMap (Beat.events host)) := by
  fun_induction Brain.trail host frame b world with
  | case1 b world quiet pops =>
    rw [settle_quiet pops]
    rfl
  | case2 b world alarm popped pops ih =>
    have first := act_recorder host ⟨.alarm alarm, frame, b.withAlarms popped, world⟩
    rw [settle_rings pops, ih, List.flatMap_cons, Trace.Recorder.emitAll_append]
    exact congrArg (Trace.Recorder.emitAll · _) first

/-- A call traces what its beats trace. -/
theorem call_recorder (call : Call ω) : (b.call host call).1.recorder =
    b.recorder.emitAll ((b.beats host call).flatMap (Beat.events host)) := by
  cases call with
  | tick frame world =>
    have evaluated := act_recorder host (b.evaluation host frame world)
    have settled := settle_recorder host frame (b.woken frame) world
    rw [Brain.beats, List.flatMap_append, List.flatMap_singleton, Trace.Recorder.emitAll_append]
    exact evaluated.trans (congrArg (Trace.Recorder.emitAll · _) settled)
  | stun frame world =>
    rw [Brain.beats, List.flatMap_singleton]
    exact act_recorder host ⟨.stun, frame, b, world⟩

/-- A run traces what its beats trace. -/
theorem run_recorder (calls : List (Call ω)) : (b.run host calls).recorder =
    b.recorder.emitAll ((b.journal host calls).flatMap (Beat.events host)) := by
  induction calls generalizing b with
  | nil => rfl
  | cons call rest ih =>
    have later := ih (b.call host call).1
    rw [Brain.journal, List.flatMap_append, Trace.Recorder.emitAll_append, ← call_recorder]
    exact later

/-- A tick traces the alarms that it handles, in the frame of the tick. -/
theorem trail_events : ∃ alarms : List Alarm,
    (b.trail host frame world).flatMap (Beat.events host) = alarms.map (alarmEvent frame) := by
  fun_induction Brain.trail host frame b world with
  | case1 b world quiet pops => exact ⟨[], rfl⟩
  | case2 b world alarm popped pops ih =>
    obtain ⟨alarms, later⟩ := ih
    refine ⟨alarm :: alarms, ?_⟩
    rw [List.flatMap_cons, later]
    rfl

end Enemy

end Sentry
