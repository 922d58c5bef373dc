import Sentry.Proofs.Enemy.Accounting
import Sentry.Proofs.Enemy.Events

/-! Observers of the label. The host is told of a new label by an action of the
tree, the log by the brain, and the state holds the label itself. An evaluation
enters exactly one label, so all three tell the same story. -/
namespace Sentry.Enemy
open Timer

variable {α τ ω : Type}

/-! ## An evaluation -/

/-- The agent and the label that a command shows. -/
def Command.shown? : Command α τ → Option (α × Label)
  | .animate agent label => some (agent, label)
  | _ => none

/-- The agent and the label that a request shows. -/
def Request.shown? : Request α τ → Option (α × Label)
  | .command given => given.shown?
  | .query _ => none

section
variable (host : Host α τ ω) (agent : α) (scene : Scene ω)

theorem chase_keeps (speed : Float32) :
    let after := (scene.chase host agent speed).state
    after.label = scene.state.label ∧ after.waypoint = scene.state.waypoint := by
  unfold Scene.chase
  split
  · rw [Scene.go, face_eq]
    exact ⟨rfl, rfl⟩
  · exact ⟨rfl, rfl⟩

theorem patrol_label (route : List Vec) (speed tolerance : Float32) :
    (scene.patrol host agent route speed tolerance).state.label = scene.state.label := by
  unfold Scene.patrol
  split
  · rfl
  · dsimp only
    split
    · rfl
    · rw [Scene.go, face_eq]
      rfl

theorem attack_keeps (windup : Float32) :
    let after := (scene.attack host agent windup).state
    after.label = scene.state.label ∧ after.waypoint = scene.state.waypoint := by
  have launched : ∀ aimed : Scene ω,
      let after := (aimed.launchAttack host agent windup).state
      after.label = aimed.state.label ∧ after.waypoint = aimed.state.waypoint := by
    intro aimed
    dsimp only
    rw [launchAttack_eq]
    split <;> exact ⟨rfl, rfl⟩
  unfold Scene.attack
  split
  · simp only [face_eq]
    exact launched _
  · exact launched scene

/-- Commands that show no label. -/
def Silent (commands : List (Command α τ)) : Prop :=
  ∀ command ∈ commands, command.shown? = none

/-- A response announces the label that it leaves, if that is a new one, and
shows no other. No response is a retreat. -/
theorem respond_announces (config : Config) :
    let after := (scene.respond host agent config).2
    after.state.label ≠ .retreat ∧ ∃ others, Silent others ∧
      after.world = host.performAll
        (announce agent scene.state.label after.state.label ++ others) scene.world := by
  have moving : ∀ direction speed, Silent [(.move agent direction speed : Command α τ)] := by
    intro direction speed
    simp [Silent, Command.shown?]
  unfold Scene.respond
  dsimp only
  split
  · refine ⟨by simp [enter_eq, Scene.stop, Scene.perform], [.stop agent], moving Vec.zero 0, ?_⟩
    rw [enter_eq, performAll_append]
    rfl
  split
  · have shown := attack_shows host agent config.attackWindup (scene.enter host agent .attack)
    rw [(attack_keeps host agent _ _).1, shown, enter_eq]
    refine ⟨Label.noConfusion, _, ?_, (performAll_append ..).symm⟩
    split <;> simp [Silent, Command.stop, Command.shown?]
  split
  · obtain ⟨direction, speed, -, moved⟩ :=
      chase_moves host agent config.chaseSpeed (scene.enter host agent .chase)
    rw [(chase_keeps host agent _ _).1, moved, enter_eq]
    exact ⟨Label.noConfusion, _, moving direction speed, (performAll_append ..).symm⟩
  · obtain ⟨direction, speed, -, moved⟩ := patrol_moves host agent config.route
      config.patrolSpeed config.waypointTolerance (scene.enter host agent .patrol)
    rw [patrol_label, moved, enter_eq]
    exact ⟨Label.noConfusion, _, moving direction speed, (performAll_append ..).symm⟩

end

/-! ## Beats -/

section
variable (host : Host α τ ω) (frame : Frame) (world : ω) {agent : α} {config : Config}
  {b : Brain α}

/-- The labels that are shown in some requests, each with the agent that shows it. -/
def labelsShown (requests : List (Request α τ)) : List (α × Label) :=
  requests.filterMap Request.shown?

/-- The labels that an enemy shows in a beat. -/
def Beat.shown (beat : Beat α ω) : List (α × Label) :=
  labelsShown (beat.requests host)

theorem labelsShown_beats (beats : List (Beat α ω)) :
    labelsShown (beats.flatMap (Beat.requests host)) = beats.flatMap (Beat.shown host) :=
  List.filterMap_flatMap

/-- The labels that are shown when a label follows another one. -/
def newLabel (old new : Label) : List Label :=
  if new = old then [] else [new]

theorem shown_announced (old new : Label) :
    (announce agent old new : List (Command α τ)).filterMap Command.shown? =
      (newLabel old new).map (agent, ·) := by
  unfold announce newLabel
  split <;> rfl

theorem shown_silent {commands : List (Command α τ)} (silent : Silent commands) :
    commands.filterMap Command.shown? = [] :=
  List.filterMap_eq_nil_iff.mpr silent

theorem shown_commands (commands : List (Command α τ)) :
    labelsShown (commands.map Request.command) = commands.filterMap Command.shown? :=
  List.filterMap_map

/-- An evaluation shows the label that it leaves, if that is a new one. -/
theorem evaluation_shown (regular : Regular agent config b) :
    let beat : Beat α ω := ⟨.evaluation, frame, b, world⟩
    (beat.after host).label ≠ .retreat ∧
      beat.shown host = (newLabel b.state.label (beat.after host).label).map (agent, ·) := by
  intro beat
  obtain ⟨state, asked⟩ := evaluation_recorded host frame world (regular_equipped regular)
  obtain ⟨stays, others, silent, told⟩ :=
    respond_announces host.recorded agent ⟨(world, []), b.state⟩ config
  rw [performAll_recorded] at told
  simp only [beat, state, Beat.shown, asked]
  refine ⟨stays, ?_⟩
  rw [told, List.nil_append]
  dsimp only
  rw [shown_commands, List.filterMap_append, shown_announced, shown_silent silent,
    List.append_nil]

theorem strike_shown (state : State) :
    labelsShown (strike host agent config state world) = [] := by
  unfold strike
  split
  · rfl
  · dsimp only
    split <;> rfl

theorem alarm_shown (regular : Regular agent config b) (alarm : Alarm) :
    (Beat.mk (.alarm alarm) frame b world).shown host = [] := by
  unfold Beat.shown
  cases alarm with
  | hit => rw [hit_requests host frame world regular, strike_shown]
  | ready => rfl
  | recovered => rfl

theorem stun_shown : (Beat.mk .stun frame b world).shown host = [] := by
  unfold Beat.shown
  rw [stun_requests]
  split <;> rfl

end

/-! ## Stories -/

/-- Each label with the one before it; `old` comes before the first. -/
def changes (old : Label) (labels : List Label) : List (Label × Label) :=
  labels.zip (old :: labels)

/-- The codes of a change, as an event carries them. -/
def changeCodes (change : Label × Label) : UInt64 × UInt64 :=
  (change.1.code, change.2.code)

theorem changes_concat (old new : Label) (labels : List Label) :
    changes old (labels ++ [new]) = changes old labels ++ [(new, labels.getLastD old)] := by
  induction labels generalizing old with
  | nil => rfl
  | cons first rest ih =>
    have later := ih first
    unfold changes at later ⊢
    rw [List.cons_append, List.zip_cons_cons, later, List.zip_cons_cons, List.cons_append,
      List.getLastD_cons]

theorem code_injective {first second : Label} (same : first.code = second.code) :
    first = second := by
  revert same
  cases first <;> cases second <;> decide

/-- The event is about the label. -/
def isLabelEvent (event : Trace.Event) : Bool :=
  event.tag == "enemy.label"

/-- The label, the log and the notices to the host tell the same story. -/
structure Agree (agent : α) (current : Label) (log : List Trace.Event)
    (notices : List (α × Label)) (labels : List Label) : Prop where
  named : notices = labels.map (agent, ·)
  traced : (log.filter isLabelEvent).map (fun event => (event.a, event.b)) =
    (changes .patrol labels).map changeCodes
  apart : ∀ event ∈ log.filter isLabelEvent, event.a ≠ event.b
  latest : current = labels.getLastD .patrol
  stays : current ≠ .retreat

section
variable {agent : α} {current : Label} {log added : List Trace.Event}
  {notices : List (α × Label)} {labels : List Label}

theorem agree_start : Agree agent .patrol [] [] [] :=
  ⟨rfl, rfl, by simp, rfl, Label.noConfusion⟩

/-- Events about something else leave the story as it is. -/
theorem agree_aside (agree : Agree agent current log notices labels)
    (aside : added.filter isLabelEvent = []) :
    Agree agent current (log ++ added) (notices ++ []) labels := by
  have same : (log ++ added).filter isLabelEvent = log.filter isLabelEvent := by
    rw [List.filter_append, aside, List.append_nil]
  refine ⟨?_, ?_, ?_, agree.latest, agree.stays⟩
  · rw [List.append_nil]
    exact agree.named
  · rw [same]
    exact agree.traced
  · rw [same]
    exact agree.apart

/-- An evaluation goes on with the story. -/
theorem agree_evaluation (agree : Agree agent current log notices labels) (frame : Frame)
    {new : Label} (stays : new ≠ .retreat) :
    Agree agent new (log ++ labelEvents frame current new)
      (notices ++ (newLabel current new).map (agent, ·)) (labels ++ newLabel current new) := by
  unfold labelEvents newLabel
  split
  next same =>
    rw [List.map_nil, List.append_nil labels, same]
    exact agree_aside agree rfl
  next changed =>
    have more : ∀ event : Trace.Event, isLabelEvent event = true →
        (log ++ [event]).filter isLabelEvent = log.filter isLabelEvent ++ [event] := by
      intro event about
      rw [List.filter_append, List.filter_cons_of_pos about, List.filter_nil]
    refine ⟨?_, ?_, ?_, List.getLastD_concat.symm, stays⟩
    · rw [agree.named, List.map_append]
    · rw [more _ rfl, List.map_append, agree.traced, changes_concat, List.map_append, ← agree.latest]
      rfl
    · rw [more _ rfl, List.forall_mem_append, List.forall_mem_singleton]
      exact ⟨agree.apart, fun same => changed (code_injective same)⟩

end

section
variable (host : Host α τ ω) {agent : α} {config : Config} {b : Brain α}

/-- Every beat goes on with the story. -/
theorem stories_kept (agent : α) (config : Config) :
    Kept host agent config fun past b => ∃ labels,
      Agree agent b.state.label (past.flatMap (Beat.events host))
        (past.flatMap (Beat.shown host)) labels := by
  constructor
  case moves =>
    intro past b alarms regular agree sound same forward
    exact agree
  case rings =>
    rintro past b popped alarm frame world regular ⟨labels, agree⟩ pops
    have ready := regular_withAlarms regular (Queue.popDue_sound regular.sound pops)
    have kept : ((Beat.mk (.alarm alarm) frame (b.withAlarms popped) world).after host).label =
        b.state.label := by
      rw [alarm_after host frame world ready]
      cases alarm <;> rfl
    refine ⟨labels, ?_⟩
    rw [List.flatMap_append, List.flatMap_append, List.flatMap_singleton, List.flatMap_singleton,
      alarm_shown host frame world ready]
    exact kept ▸ agree_aside agree rfl
  case decides =>
    rintro past b frame world regular ⟨labels, agree⟩ settled
    obtain ⟨stays, shown⟩ := evaluation_shown host frame world regular
    rw [List.flatMap_append, List.flatMap_append, List.flatMap_singleton, List.flatMap_singleton,
      shown]
    exact ⟨_, agree_evaluation agree frame stays⟩
  case stuns =>
    rintro past b frame world regular ⟨labels, agree⟩ caught
    have kept : ((Beat.mk .stun frame b world).after host).label = b.state.label := by
      rw [stun_after host frame world regular]
      split <;> rfl
    have aside : ((Beat.mk .stun frame b world).events host).filter isLabelEvent = [] := by
      unfold Beat.events
      dsimp only
      split <;> rfl
    refine ⟨labels, ?_⟩
    rw [List.flatMap_append, List.flatMap_append, List.flatMap_singleton, List.flatMap_singleton,
      stun_shown]
    exact kept ▸ agree_aside agree aside

/-! ## Calls -/

/-- What a call adds to the log and shows. A tick traces its alarms and then a
change of label, if there is one, and shows the label if it has changed. A stun
is traced at most, and shows nothing. -/
def Call.Tells (agent : α) (added : List Trace.Event) (shown : List (α × Label)) :
    Call ω → Prop
  | .tick frame _ => ∃ (alarms : List Alarm) (old new : Label),
    added = alarms.map (alarmEvent frame) ++ labelEvents frame old new ∧
      shown = (newLabel old new).map (agent, ·)
  | .stun frame _ => (added = [] ∨ added = [stunEvent frame]) ∧ shown = []

theorem trail_shown (regular : Regular agent config b) (frame : Frame) (world : ω) :
    (b.trail host frame world).flatMap (Beat.shown host) = [] := by
  obtain ⟨all_regular, -⟩ :
      (∀ beat ∈ [] ++ b.trail host frame world, Regular agent config beat.brain) ∧ _ :=
    settle_keeps [] (regular_kept host agent config) regular (by simp)
  rw [List.flatMap_eq_nil_iff]
  intro beat member
  obtain ⟨alarm, alarms⟩ := trail_causes host frame b world beat member
  have ready := all_regular beat member
  obtain ⟨cause, frame, ringing, world⟩ := beat
  subst alarms
  exact alarm_shown host frame world ready alarm

theorem call_tells (regular : Regular agent config b) (call : Call ω) :
    call.Tells agent ((b.beats host call).flatMap (Beat.events host))
      ((b.beats host call).flatMap (Beat.shown host)) := by
  cases call with
  | tick frame world =>
    obtain ⟨-, woken⟩ := woken_keeps [] (regular_kept host agent config) regular (by simp) frame
    obtain ⟨-, ready, -⟩ :=
      settled_keeps [] (regular_kept host agent config) regular (by simp) frame world
    obtain ⟨alarms, traced⟩ := trail_events host frame (b.woken frame) world
    obtain ⟨-, shown⟩ := evaluation_shown host frame (b.settled host frame world).2 ready
    rw [Brain.beats, List.flatMap_append, List.flatMap_append, List.flatMap_singleton,
      List.flatMap_singleton, traced, trail_shown host woken frame world, List.nil_append]
    exact ⟨alarms, _, _, rfl, shown⟩
  | stun frame world =>
    rw [Brain.beats, List.flatMap_singleton, List.flatMap_singleton, stun_shown]
    unfold Call.Tells Beat.events
    dsimp only
    split
    · exact ⟨.inl rfl, rfl⟩
    · exact ⟨.inr rfl, rfl⟩

end

/-- The three observers of the label of a fresh brain agree, whatever it is
called for: after any calls the log holds the changes of label that the host has
been shown, in order, each from one label to another, and the label is the one
shown last. What one more call adds, it adds to the log and to the notices
alike: a tick at most one change, in its own frame and behind all its alarms,
and a request to be stunned none. -/
theorem label_observers_agree {agent : α} {config : Config} {fresh : Brain α}
    (host : Host α τ ω) (created : Brain.create agent config = .ok fresh)
    (sink : Option Trace.Sink) (calls : List (Call ω)) :
    let traced : Brain α := { fresh with recorder := { log := some {}, sink } }
    let done := traced.recordedRun host calls
    ∃ (log : Trace.Log) (labels : List Label),
      done.1 = traced.run host calls ∧ done.1.recorder.log = some log ∧
      labelsShown done.2 = labels.map (agent, ·) ∧
      (log.withTag "enemy.label").map (fun event => (event.a, event.b)) =
        (changes .patrol labels).map changeCodes ∧
      (∀ event ∈ log.withTag "enemy.label", event.a ≠ event.b) ∧
      done.1.state.label = labels.getLastD .patrol ∧ done.1.state.label ≠ .retreat ∧
      ∀ call : Call ω, ∃ added,
        (done.1.call host call).1.recorder.log = some ⟨log.events ++ added⟩ ∧
        call.Tells agent added
          (labelsShown (done.1.call host.recorded (call.recorded [])).2.2) := by
  intro traced done
  obtain ⟨⟨root, sound, same_agent, same_config⟩, shape, -⟩ := create_regular created
  have regular : Regular agent config traced := ⟨root, sound, same_agent, same_config⟩
  have label : traced.state.label = .patrol := congrArg State.label shape
  have caught : traced.state.alarms.now = traced.state.alarms.horizon :=
    (congrArg (·.alarms.now) shape).trans (congrArg (·.alarms.horizon) shape).symm
  obtain ⟨⟨labels, agree⟩, after, -⟩ := run_keeps [] (stories_kept host agent config) regular
    caught ⟨[], label ▸ agree_start⟩ calls
  have recorded : done = _ := recordedRun_eq host traced calls
  have logged := congrArg Trace.Recorder.log (run_recorder host traced calls)
  rw [Trace.Recorder.emitAll_log] at logged
  rw [List.nil_append] at agree
  rw [recorded]
  refine ⟨_, labels, rfl, logged, ?_, agree.traced, agree.apart, agree.latest, agree.stays, ?_⟩
  · rw [labelsShown_beats]
    exact agree.named
  · intro call
    have grown := congrArg Trace.Recorder.log (call_recorder host (traced.run host calls) call)
    rw [Trace.Recorder.emitAll_log, logged] at grown
    rw [call_recorded, List.nil_append, labelsShown_beats]
    exact ⟨_, grown, call_tells host after call⟩

/-- A recruit attacks its neighbour, is stunned in the frame after that, and
holds still from then on. -/
theorem recruit_tells_what_it_shows :
    let traced : Brain UInt64 := { recruit with recorder := { log := some {} } }
    let done := traced.recordedRun Sandbox.host
      [.tick ⟨0, 0.25, 0⟩ neighbours, .stun ⟨1, 0.25, 0.25⟩ neighbours,
        .tick ⟨1, 0.25, 0.25⟩ neighbours, .tick ⟨2, 0.25, 0.5⟩ neighbours]
    labelsShown done.2 = [(7, .attack), (7, .stunned)] ∧ done.1.state.label = .stunned ∧
      ∃ log, done.1.recorder.log = some log ∧
        (log.withTag "enemy.label").map (fun event => (event.a, event.b)) = [(2, 0), (3, 2)] := by
  intro traced done
  obtain ⟨log, labels, -, logged, shown, told, -, latest, -, -⟩ := label_observers_agree
    Sandbox.host create_recruit none
    [.tick ⟨0, 0.25, 0⟩ neighbours, .stun ⟨1, 0.25, 0.25⟩ neighbours,
      .tick ⟨1, 0.25, 0.25⟩ neighbours, .tick ⟨2, 0.25, 0.5⟩ neighbours]
  have seen : labelsShown done.2 = [Label.attack, Label.stunned].map ((7 : UInt64), ·) := by
    decide +kernel
  have story : labels = [.attack, .stunned] :=
    List.map_injective_iff.mpr (Prod.mk_right_injective (7 : UInt64)) (shown.symm.trans seen)
  rw [story] at told latest
  exact ⟨seen, latest, log, logged, told⟩

end Sentry.Enemy
