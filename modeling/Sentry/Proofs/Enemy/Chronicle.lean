import Sentry.Proofs.Enemy.Accounting
import Sentry.Proofs.Enemy.Events

/-! What a log tells of combat. Every stun that is accepted and every alarm that
is handled leaves one event, in order. So the log alone tells whether an enemy is
stunned, and whether its attack cools down: the latest stun has no end yet, or the
latest stroke of an attack was a hit test. -/
namespace Sentry.Enemy
open Timer

variable {α τ ω : Type}

/-! ## Alarms and stuns of a run -/

/-- The alarm that is handled in a beat, with its frame. -/
def Beat.alarm? (beat : Beat α ω) : Option (Frame × Alarm) :=
  match beat.cause with
  | .alarm alarm => some (beat.frame, alarm)
  | _ => none

/-- The frame of a beat in which a stun is accepted. -/
def Beat.stunned? (beat : Beat α ω) : Option Frame :=
  match beat.cause with
  | .stun => if beat.brain.state.isStunned then none else some beat.frame
  | _ => none

/-- The frames of the requests to be stunned that are answered with yes. -/
def Brain.accepted (host : Host α τ ω) (b : Brain α) : List (Call ω) → List Frame
  | [] => []
  | .tick frame world :: rest => (b.call host (.tick frame world)).1.accepted host rest
  | .stun frame world :: rest =>
    (if (b.requestStun host frame world).1 then [frame] else []) ++
      (b.call host (.stun frame world)).1.accepted host rest

/-- The requests that are accepted are the beats in which the enemy is stunned. -/
theorem accepted_eq (host : Host α τ ω) (b : Brain α) (calls : List (Call ω)) :
    b.accepted host calls = (b.journal host calls).filterMap Beat.stunned? := by
  induction calls generalizing b with
  | nil => rfl
  | cons call rest ih =>
    rw [Brain.journal, List.filterMap_append, ← ih]
    cases call with
    | tick frame world =>
      have no_stun : (b.beats host (.tick frame world)).filterMap Beat.stunned? = [] := by
        rw [Brain.beats, List.filterMap_append, List.append_eq_nil_iff,
          List.filterMap_eq_nil_iff]
        refine ⟨?_, rfl⟩
        intro beat member
        obtain ⟨alarm, handles⟩ := trail_causes host frame (b.woken frame) world beat member
        rw [Beat.stunned?, handles]
      rw [no_stun]
      rfl
    | stun frame world =>
      have answer := (requestStun_state host b.agent b.config ⟨world, b.state⟩).1
      change (b.requestStun host frame world).1 = _ at answer
      rw [Brain.accepted, answer]
      cases stunned : b.state.isStunned <;> simp [Brain.beats, Beat.stunned?, stunned]

/-! ## Events of a run -/

section
variable (host : Host α τ ω)

theorem beat_alarms (beat : Beat α ω) :
    (beat.events host).filter (·.tag == "enemy.timer") =
      beat.alarm?.toList.map fun fired => alarmEvent fired.1 fired.2 := by
  obtain ⟨cause, frame, b, world⟩ := beat
  cases cause with
  | alarm alarm => rfl
  | evaluation =>
    simp only [Beat.events, labelEvents]
    split <;> rfl
  | stun =>
    simp only [Beat.events]
    split <;> rfl

theorem beat_stuns (beat : Beat α ω) :
    (beat.events host).filter (·.tag == "enemy.stun") = beat.stunned?.toList.map stunEvent := by
  obtain ⟨cause, frame, b, world⟩ := beat
  cases cause with
  | alarm alarm => rfl
  | evaluation =>
    simp only [Beat.events, labelEvents]
    split <;> rfl
  | stun =>
    simp only [Beat.events, Beat.stunned?]
    split <;> rfl

/-- There is one event for each alarm, in order. -/
theorem events_alarms (past : List (Beat α ω)) :
    (past.flatMap (Beat.events host)).filter (·.tag == "enemy.timer") =
      (past.filterMap Beat.alarm?).map fun fired => alarmEvent fired.1 fired.2 := by
  induction past with
  | nil => rfl
  | cons beat rest ih =>
    rw [List.flatMap_cons, List.filter_append, ih, beat_alarms, List.filterMap_cons]
    cases beat.alarm? <;> rfl

/-- There is one event for each stun, in order. -/
theorem events_stuns (past : List (Beat α ω)) :
    (past.flatMap (Beat.events host)).filter (·.tag == "enemy.stun") =
      (past.filterMap Beat.stunned?).map stunEvent := by
  induction past with
  | nil => rfl
  | cons beat rest ih =>
    rw [List.flatMap_cons, List.filter_append, ih, beat_stuns, List.filterMap_cons]
    cases beat.stunned? <;> rfl

end

/-! ## Stuns and their ends -/

/-- The alarms of a run, in order. -/
def rung (past : List (Beat α ω)) : List Alarm :=
  (past.filterMap Beat.alarm?).map (·.2)

theorem rung_append (first second : List (Beat α ω)) :
    rung (first ++ second) = rung first ++ rung second := by
  rw [rung, List.filterMap_append, List.map_append]
  rfl

/-- Each stun but a present one has ended. -/
theorem stuns_kept (host : Host α τ ω) (agent : α) (config : Config) :
    Kept host agent config fun past b => b.state.isArmed ∧
      (past.filterMap Beat.stunned?).length =
        (rung past).count .recovered + if b.state.isStunned then 1 else 0 := by
  have kept := armed_kept host agent config
  constructor
  case moves =>
    rintro past b alarms regular ⟨armed, ends⟩ sound same forward
    exact ⟨kept.moves past regular armed sound same forward, ends⟩
  case rings =>
    rintro past b popped alarm frame world regular ⟨armed, ends⟩ pops
    refine ⟨kept.rings past frame world regular armed pops, ?_⟩
    have ready := regular_withAlarms regular (Queue.popDue_sound regular.sound pops)
    change _ = _ + if (Beat.after host _).isStunned then 1 else 0
    rw [alarm_after host frame world ready, List.filterMap_append, rung_append,
      List.length_append, List.count_append, ends]
    obtain ⟨hit, ready, release, armed⟩ := armed
    cases alarm with
    | hit => rfl
    | ready => rfl
    | recovered =>
      obtain ⟨⟨stunned, -⟩, -⟩ := armed_recovered config armed regular.sound pops
      rw [stunned]
      rfl
  case decides =>
    rintro past b frame world regular ⟨armed, ends⟩ settled
    refine ⟨kept.decides past frame world regular armed settled, ?_⟩
    have still : (Beat.after host ⟨.evaluation, frame, b, world⟩).isStunned =
        b.state.isStunned := by
      rcases evaluation_after host frame world regular with alike | ⟨-, alike⟩
      · exact alike.isStunned
      · exact alike.isStunned
    change _ = _ + if (Beat.after host _).isStunned then 1 else 0
    rw [still, List.filterMap_append, rung_append, List.length_append, List.count_append, ends]
    rfl
  case stuns =>
    rintro past b frame world regular ⟨armed, ends⟩ caught
    refine ⟨kept.stuns past frame world regular armed caught, ?_⟩
    change _ = _ + if (Beat.after host _).isStunned then 1 else 0
    rw [stun_after host frame world regular, List.filterMap_append, rung_append,
      List.length_append, List.count_append, ends]
    have no_end : rung [(⟨.stun, frame, b, world⟩ : Beat α ω)] = [] := rfl
    rw [no_end]
    cases stunned : b.state.isStunned <;> simp [Beat.stunned?, stunned, State.stun]

/-! ## Strokes -/

/-- The alarm of an attack. -/
def Alarm.isStroke (alarm : Alarm) : Bool :=
  alarm != .recovered

/-- The alarm that a step of an attack is. -/
def Mark.alarm? : Mark → Option Alarm
  | .launch => none
  | .hit => some .hit
  | .ready => some .ready

theorem marks_strokes (host : Host α τ ω) (past : List (Beat α ω)) :
    (past.flatMap (Beat.marks host)).filterMap Mark.alarm? = (rung past).filter Alarm.isStroke := by
  induction past with
  | nil => rfl
  | cons beat rest ih =>
    have launches : ∀ requests : List (Request α τ),
        (requests.map fun _ => Mark.launch).filterMap Mark.alarm? = [] := by
      intro requests
      rw [List.filterMap_map]
      exact List.filterMap_eq_nil_iff.mpr fun _ _ => rfl
    have first : (beat.marks host).filterMap Mark.alarm? = (rung [beat]).filter Alarm.isStroke := by
      obtain ⟨cause, frame, b, world⟩ := beat
      rw [Beat.marks, List.filterMap_append, launches, List.append_nil]
      cases cause with
      | alarm alarm => cases alarm <;> rfl
      | evaluation => rfl
      | stun => rfl
    rw [List.flatMap_cons, List.filterMap_append, ih, first, ← List.filter_append, ← rung_append]
    rfl

/-- The strokes of whole attacks, and of one in a given phase. -/
def strokesOf (attacks : Nat) (phase : Phase) : List Alarm :=
  (List.replicate attacks [.hit, .ready]).flatten ++ if phase = .cooldown then [.hit] else []

theorem cycles_strokes (attacks : Nat) (phase : Phase) :
    ((List.replicate attacks Mark.cycle).flatten ++ phase.marks).filterMap Mark.alarm? =
      strokesOf attacks phase := by
  have begun : phase.marks.filterMap Mark.alarm? = if phase = .cooldown then [.hit] else [] := by
    cases phase <;> rfl
  rw [List.filterMap_append, begun, List.filterMap_flatten, List.map_replicate]
  rfl

/-- Hit tests and ends of cooldowns take turns. -/
theorem strokes_alternate (attacks : Nat) (phase : Phase) :
    strokesOf attacks phase <+: (List.replicate (attacks + 1) [.hit, .ready]).flatten := by
  rw [strokesOf, List.replicate_succ', List.flatten_append, List.prefix_append_right_inj]
  cases phase <;> decide

/-- The latest stroke is a hit test exactly during a cooldown. -/
theorem latest_stroke (attacks : Nat) (phase : Phase) :
    (strokesOf attacks phase).getLast? = some .hit ↔ phase = .cooldown := by
  by_cases cooling : phase = .cooldown
  · simp [strokesOf, cooling]
  · cases attacks with
    | zero => simp [strokesOf, cooling]
    | succ attacks => simp [strokesOf, cooling, List.replicate_succ']

/-! ## Codes -/

theorem alarm_code_injective : Function.Injective Alarm.code := by
  intro first second
  cases first <;> cases second <;> decide

theorem codes_strokes (alarms : List Alarm) :
    (alarms.map Alarm.code).filter (fun code => code = Alarm.hit.code ∨ code = Alarm.ready.code) =
      (alarms.filter Alarm.isStroke).map Alarm.code := by
  rw [List.filter_map]
  congr 2
  funext alarm
  cases alarm <;> rfl

/-- What a run of a fresh brain tells of its combat. -/
theorem beats_tell_combat {agent : α} {config : Config} {fresh : Brain α} (host : Host α τ ω)
    (created : Brain.create agent config = .ok fresh) (recorder : Trace.Recorder)
    (calls : List (Call ω)) :
    let traced : Brain α := { fresh with recorder }
    let past := traced.journal host calls
    let state := (traced.run host calls).state
    (past.filterMap Beat.stunned?).length =
        (rung past).count .recovered + (if state.isStunned then 1 else 0) ∧
      (∃ attacks, (rung past).filter Alarm.isStroke = strokesOf attacks state.phase) ∧
      state.canAttack = decide (state.phase ≠ .cooldown) := by
  intro traced past state
  obtain ⟨⟨root, sound, same_agent, same_config⟩, shape, -⟩ := create_regular created
  have regular : Regular agent config traced := ⟨root, sound, same_agent, same_config⟩
  have begun : traced.state = {} := shape
  have caught : traced.state.alarms.now = traced.state.alarms.horizon := by rw [begun]
  have armed : traced.state.isArmed := by
    rw [begun]
    exact ⟨0, 0, 0, armed_start 0 0 0⟩
  obtain ⟨-, ends⟩ := (run_keeps [] (stuns_kept host agent config) regular caught
    ⟨armed, by rw [begun]; rfl⟩ calls).1
  obtain ⟨⟨_, _, _, after⟩, attacks, turns⟩ := (run_keeps [] (turns_kept host agent config)
    regular caught ⟨armed, 0, by rw [begun]; rfl⟩ calls).1
  refine ⟨ends, ⟨attacks, ?_⟩, after.permission⟩
  rw [← marks_strokes host, ← cycles_strokes, ← turns]
  rfl

/-- A log that has been kept from the start tells the combat of a fresh brain. It
holds one event for each request to be stunned that was accepted, and one for each
alarm that was handled, in order. The enemy is stunned while there has been one
stun more than there have been ends; hit tests and ends of cooldowns take turns,
and while the latest of them is a hit test the attack cools down and no other one
is allowed. -/
theorem log_tells_combat {agent : α} {config : Config} {fresh : Brain α} (host : Host α τ ω)
    (created : Brain.create agent config = .ok fresh) (sink : Option Trace.Sink)
    (calls : List (Call ω)) :
    let traced : Brain α := { fresh with recorder := { log := some {}, sink } }
    let done := traced.run host calls
    ∃ log : Trace.Log, done.recorder.log = some log ∧
      let stuns := log.withTag "enemy.stun"
      let codes := (log.withTag "enemy.timer").map (·.a)
      let strokes := codes.filter fun code => code = Alarm.hit.code ∨ code = Alarm.ready.code
      (done.state.isStunned = true ↔ stuns.length = codes.count Alarm.recovered.code + 1) ∧
        (done.state.isStunned = false ↔ stuns.length = codes.count Alarm.recovered.code) ∧
        (∃ rounds, strokes <+:
          (List.replicate rounds [Alarm.hit.code, Alarm.ready.code]).flatten) ∧
        (done.state.phase = .cooldown ↔ strokes.getLast? = some Alarm.hit.code) ∧
        (done.state.canAttack = false ↔ strokes.getLast? = some Alarm.hit.code) ∧
        stuns = (traced.accepted host calls).map stunEvent ∧
        log.withTag "enemy.timer" = ((traced.journal host calls).filterMap Beat.alarm?).map
          fun fired => alarmEvent fired.1 fired.2 := by
  intro traced done
  obtain ⟨ends, ⟨attacks, turns⟩, permission⟩ :=
    beats_tell_combat host created { log := some {}, sink } calls
  have logged := congrArg Trace.Recorder.log (run_recorder host traced calls)
  rw [Trace.Recorder.emitAll_log] at logged
  refine ⟨⟨(traced.journal host calls).flatMap (Beat.events host)⟩, logged, ?_⟩
  -- The log tells the alarms of the run, and those tell the strokes.
  intro stuns codes strokes
  have told_stuns : stuns = ((traced.journal host calls).filterMap Beat.stunned?).map stunEvent :=
    events_stuns host (traced.journal host calls)
  have told_alarms := events_alarms host (traced.journal host calls)
  have told_codes : codes = (rung (traced.journal host calls)).map Alarm.code := by
    change (List.filter _ _).map _ = _
    rw [told_alarms, rung, List.map_map, List.map_map]
    rfl
  have told_strokes : strokes = (strokesOf attacks done.state.phase).map Alarm.code := by
    rw [← turns, ← codes_strokes, ← told_codes]
  have ended : codes.count Alarm.recovered.code =
      (rung (traced.journal host calls)).count .recovered := by
    rw [told_codes, List.count_map_of_injective _ _ alarm_code_injective]
  have latest : strokes.getLast? = some Alarm.hit.code ↔ done.state.phase = .cooldown := by
    rw [told_strokes, List.getLast?_map, ← latest_stroke attacks]
    exact (Option.map_injective alarm_code_injective).eq_iff' rfl
  have count : stuns.length =
      codes.count Alarm.recovered.code + if done.state.isStunned then 1 else 0 := by
    rw [told_stuns, List.length_map, ends, ended]
  refine ⟨?_, ?_, ⟨attacks + 1, ?_⟩, latest.symm, ?_, ?_, told_alarms⟩
  · rw [count]
    cases done.state.isStunned <;> simp
  · rw [count]
    cases done.state.isStunned <;> simp
  · have whole := (strokes_alternate attacks done.state.phase).map Alarm.code
    rw [← told_strokes, List.map_flatten, List.map_replicate] at whole
    exact whole
  · rw [latest, show done.state.canAttack = _ from permission]
    cases done.state.phase <;> simp
  · rw [told_stuns, accepted_eq]

/-- A recruit that attacks its neighbour and is stunned. Half a second later its hit
test has been handled, and the stun goes on. -/
theorem stunned_recruit_is_logged :
    let traced : Brain UInt64 := { recruit with recorder := { log := some {} } }
    let done := traced.run Sandbox.host
      [.tick ⟨0, 0.25, 0⟩ neighbours, .stun ⟨1, 0.5, 0.25⟩ neighbours,
        .tick ⟨1, 0.5, 0.25⟩ neighbours]
    ∃ log, done.recorder.log = some log ∧ log.withTag "enemy.stun" = [stunEvent ⟨1, 0.5, 0.25⟩] ∧
      (log.withTag "enemy.timer").map (·.a) = [0] ∧ done.state.isStunned = true ∧
        done.state.phase = .cooldown := by
  intro traced done
  obtain ⟨log, logged, stunned, -, -, cooling, -, stuns, alarms⟩ :=
    log_tells_combat Sandbox.host create_recruit none
      [.tick ⟨0, 0.25, 0⟩ neighbours, .stun ⟨1, 0.5, 0.25⟩ neighbours,
        .tick ⟨1, 0.5, 0.25⟩ neighbours]
  have one : log.withTag "enemy.stun" = [stunEvent ⟨1, 0.5, 0.25⟩] := by
    rw [stuns]
    decide +kernel
  have codes : (log.withTag "enemy.timer").map (·.a) = [0] := by
    rw [alarms]
    decide +kernel
  refine ⟨log, logged, one, codes, stunned.mpr ?_, cooling.mpr ?_⟩
  · rw [one, codes]
    decide
  · rw [codes]
    decide

end Sentry.Enemy
