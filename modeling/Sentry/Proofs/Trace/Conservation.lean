import Sentry.Trace.Recorder

/-! No event is lost. A recorder may be given a log or a sink at any time, and its
log may be taken at any time. Whatever the order, the logs that have been taken
and the one that is left hold together what was emitted since the log was begun,
and a sink has received what was emitted since it was installed. -/
namespace Sentry.Trace

/-- What is done with a recorder. -/
inductive Use where
  | emit (event : Event)
  | takeLog
  | withLog
  | withSink (sink : Sink)

namespace Use

def event? : Use → Option Event
  | .emit event => some event
  | _ => none

/-- The sink that is installed. -/
def sink? : Use → Option Sink
  | .withSink sink => some sink
  | _ => none

end Use

/-- The events that are emitted, in order. -/
def emitted (uses : List Use) : List Event :=
  uses.filterMap Use.event?

/-- A sink that has received several events more, in order. -/
def Sink.receiving (events : List Event) : Sink → Sink
  | .discarding => .discarding
  | .keeping received => .keeping (received ++ events)

namespace Recorder

/-- The recorder after a use. -/
def use (r : Recorder) : Use → Recorder
  | .emit event => r.emit event
  | .takeLog => r.takeLog.2
  | .withLog => r.withLog
  | .withSink sink => r.withSink sink

/-- The recorder after several uses. -/
def after (r : Recorder) (uses : List Use) : Recorder :=
  uses.foldl use r

/-- What comes out when a log is asked for. -/
def answer? (r : Recorder) : Use → Option (Option Log)
  | .takeLog => some r.takeLog.1
  | _ => none

/-- What comes out in the course of several uses, in order. -/
def taken : List Use → Recorder → List (Option Log)
  | [], _ => []
  | use :: later, r => (r.answer? use).toList ++ taken later (r.use use)

section
variable {r : Recorder}

theorem after_since (before : List Use) (use : Use) (since : List Use) :
    r.after (before ++ use :: since) = ((r.after before).use use).after since := by
  simp only [after, List.foldl_append, List.foldl_cons]

/-! ## Logs -/

/-- The events of a log, and those emitted after them, are in what is taken and
what is left. -/
theorem log_conserved {log : Log} {uses : List Use} (held : r.log = some log)
    (only : .withLog ∉ uses) :
    ∃ logs current, taken uses r = logs.map some ∧ (r.after uses).log = some current ∧
      (logs ++ [current]).flatMap Log.events = log.events ++ emitted uses := by
  induction uses generalizing r log with
  | nil => exact ⟨[], log, rfl, held, by simp [emitted]⟩
  | cons use later ih =>
    obtain ⟨begun, same⟩ := not_or.mp (mt List.mem_cons.mpr only)
    cases use with
    | emit event =>
      have next : (r.use (.emit event)).log = some (log.push event) := congrArg (Option.map _) held
      obtain ⟨logs, current, out, left, all⟩ := ih next same
      refine ⟨logs, current, out, left, all.trans ?_⟩
      rw [Log.push, List.append_assoc]
      rfl
    | takeLog =>
      have next : (r.use .takeLog).log = some {} := congrArg (Option.map _) held
      obtain ⟨logs, current, out, left, all⟩ := ih next same
      refine ⟨log :: logs, current, ?_, left, congrArg (log.events ++ ·) all⟩
      change r.log :: _ = _
      rw [held, out]
      rfl
    | withLog => exact absurd rfl begun
    | withSink sink =>
      have next : (r.use (.withSink sink)).log = some log := held
      exact ih next same

/-- There is a log once one has been begun. -/
theorem log_after (uses : List Use) :
    (r.after uses).log = none ↔ r.log = none ∧ .withLog ∉ uses := by
  induction uses generalizing r with
  | nil => exact ⟨fun none => ⟨none, List.not_mem_nil⟩, And.left⟩
  | cons use later ih =>
    change ((r.use use).after later).log = none ↔ _
    rw [ih, List.mem_cons, not_or]
    cases use <;> simp [Recorder.use, emit, takeLog, withLog, withSink]

/-! ## Sinks -/

/-- A sink receives what is emitted until another one is installed. -/
theorem sink_receives {sink : Sink} {uses : List Use} (installed : r.sink = some sink)
    (only : ∀ use ∈ uses, use.sink? = none) :
    (r.after uses).sink = some (sink.receiving (emitted uses)) := by
  induction uses generalizing r sink with
  | nil =>
    refine installed.trans (congrArg some ?_)
    cases sink <;> simp [Sink.receiving, emitted]
  | cons use later ih =>
    obtain ⟨others, same⟩ := List.forall_mem_cons.mp only
    cases use with
    | emit event =>
      have next : (r.use (.emit event)).sink = some (sink.accept event) :=
        congrArg (Option.map _) installed
      refine (ih next same).trans (congrArg some ?_)
      cases sink <;> simp [Sink.receiving, Sink.accept, emitted, Use.event?]
    | takeLog => exact ih (r := r.use .takeLog) installed same
    | withLog => exact ih (r := r.use .withLog) installed same
    | withSink sink => cases others

/-- There is a sink once one has been installed. -/
theorem sink_after (uses : List Use) :
    (r.after uses).sink = none ↔ r.sink = none ∧ ∀ use ∈ uses, use.sink? = none := by
  induction uses generalizing r with
  | nil => simp [after]
  | cons use later ih =>
    change ((r.use use).after later).sink = none ↔ _
    rw [ih, List.forall_mem_cons]
    cases use <;> simp [Recorder.use, emit, takeLog, withLog, withSink, Use.sink?]

/-! ## No consumer -/

/-- Without a log and a sink nothing happens to a recorder, and nothing comes out. -/
theorem idle_after {uses : List Use} (no_log : .withLog ∉ uses)
    (no_sink : ∀ use ∈ uses, use.sink? = none) :
    ({} : Recorder).after uses = {} ∧ ∀ answer ∈ taken uses {}, answer = none := by
  induction uses with
  | nil => simp [after, taken]
  | cons use later ih =>
    obtain ⟨begun, no_log⟩ := not_or.mp (mt List.mem_cons.mpr no_log)
    obtain ⟨installed, no_sink⟩ := List.forall_mem_cons.mp no_sink
    obtain ⟨idle, silent⟩ := ih no_log no_sink
    cases use with
    | emit event => exact ⟨idle, silent⟩
    | takeLog => exact ⟨idle, List.forall_mem_cons.mpr ⟨rfl, silent⟩⟩
    | withLog => exact absurd rfl begun
    | withSink sink => cases installed

end

/-- Where events are, after any uses of a new recorder. Of the logs begun the
latest one is followed: what has been taken out of it and what is left in it are,
in order, the events emitted since. A log comes out whenever it is asked for,
exactly if one has been begun. A sink has received, in order, the events emitted
since it was installed. With neither of them events leave no trace. -/
theorem no_event_is_lost (uses : List Use) :
    let new : Recorder := {}
    let r := new.after uses
    (∀ before since, uses = before ++ .withLog :: since → .withLog ∉ since →
      ∃ logs current, taken since (new.after (before ++ [.withLog])) = logs.map some ∧
        r.log = some current ∧ (logs ++ [current]).flatMap Log.events = emitted since) ∧
      (r.takeLog.1 = none ↔ .withLog ∉ uses) ∧
      (r.takeLog.2.log = none ↔ .withLog ∉ uses) ∧
      (∀ before sink since, uses = before ++ .withSink sink :: since →
        (∀ use ∈ since, use.sink? = none) → r.sink = some (sink.receiving (emitted since))) ∧
      (r.isEnabled = false ↔ .withLog ∉ uses ∧ ∀ use ∈ uses, use.sink? = none) ∧
      (r.isEnabled = false → r = new ∧ ∀ answer ∈ taken uses new, answer = none) := by
  intro new r
  have log_iff : r.log = none ↔ .withLog ∉ uses := by
    simp [r, log_after, new]
  have sink_iff : r.sink = none ↔ ∀ use ∈ uses, use.sink? = none := by
    simp [r, sink_after, new]
  have enabled : r.isEnabled = false ↔ .withLog ∉ uses ∧ ∀ use ∈ uses, use.sink? = none := by
    rw [← log_iff, ← sink_iff]
    simp [isEnabled]
  refine ⟨?_, log_iff, ?_, ?_, enabled, ?_⟩
  · rintro before since rfl same
    rw [after_since before .withLog []]
    simp only [r, after_since]
    exact log_conserved (r := (new.after before).use .withLog) rfl same
  · rw [← log_iff]
    exact Option.map_eq_none_iff
  · rintro before sink since rfl same
    simp only [r, after_since]
    exact sink_receives (r := (new.after before).use (.withSink sink)) rfl same
  · intro disabled
    obtain ⟨no_log, no_sink⟩ := enabled.mp disabled
    exact idle_after no_log no_sink

/-- A log begun late and taken in the middle, beside a sink that replaces one. -/
theorem late_log_is_taken :
    let event (tick : UInt64) : Event := { tick, tag := "step" }
    let uses : List Use := [.withSink .discarding, .emit (event 1), .withLog, .emit (event 2),
      .withSink (.keeping []), .emit (event 3), .takeLog, .emit (event 4)]
    let r := ({} : Recorder).after uses
    r.sink = some (.keeping [event 3, event 4]) ∧
      ∃ logs current, r.log = some current ∧
        (logs ++ [current]).flatMap Log.events = [event 2, event 3, event 4] := by
  intro event uses r
  obtain ⟨kept, -, -, received, -, -⟩ := no_event_is_lost uses
  have sink := received [.withSink .discarding, .emit (event 1), .withLog, .emit (event 2)]
    (.keeping []) [.emit (event 3), .takeLog, .emit (event 4)] rfl (by simp [Use.sink?])
  obtain ⟨logs, current, -, left, all⟩ := kept [.withSink .discarding, .emit (event 1)]
    [.emit (event 2), .withSink (.keeping []), .emit (event 3), .takeLog, .emit (event 4)] rfl
    (by simp)
  exact ⟨sink, logs, current, left, all⟩

end Recorder

end Sentry.Trace
