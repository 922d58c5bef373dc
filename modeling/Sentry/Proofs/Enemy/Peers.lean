import Sentry.Proofs.Enemy.Events
import Sentry.Proofs.Enemy.Scripts
import Sentry.Proofs.Enemy.Timeline

/-! Peers: brains with the same agent, settings, tree and state. They do the same
whatever they trace, and of a frame only the time by which it moves clocks counts.
So traces and numbers of frames are for observers only. -/
namespace Sentry

/-! ## Frames -/

/-- The time by which a frame moves clocks. -/
def Frame.effective (frame : Frame) : Float32 :=
  if Timer.Queue.isStep frame.dt then frame.dt else 0

theorem advance_effective {ε : Type} (q : Timer.Queue ε) {frame frame' : Frame}
    (same : frame'.effective = frame.effective) : q.advance frame'.dt = q.advance frame.dt := by
  have still : Timer.Queue.isStep 0 = false := by decide
  unfold Frame.effective at same
  by_cases moves : Timer.Queue.isStep frame.dt = true
  · by_cases moves' : Timer.Queue.isStep frame'.dt = true
    · rw [if_pos moves, if_pos moves'] at same
      rw [same]
    · rw [if_pos moves, if_neg moves'] at same
      rw [← same, still] at moves
      cases moves
  · by_cases moves' : Timer.Queue.isStep frame'.dt = true
    · rw [if_neg moves, if_pos moves'] at same
      rw [same, still] at moves'
      cases moves'
    · unfold Timer.Queue.advance
      rw [if_neg moves, if_neg moves']

/-! ## Notes -/

namespace Trace

/-- What an event says, but for the frame. -/
structure Note where
  tag : String
  a : UInt64 := 0
  b : UInt64 := 0

/-- The event of a note in a frame. -/
def Note.stamp (tick : UInt64) (note : Note) : Event :=
  ⟨tick, note.tag, note.a, note.b⟩

namespace Recorder

/-- A recorder whose log and whose sink have received the same events. -/
def inBoth (events : List Event) : Recorder where
  log := some ⟨events⟩
  sink := some (.keeping events)

theorem emitAll_inBoth (events more : List Event) :
    (inBoth events).emitAll more = inBoth (events ++ more) := by
  induction more generalizing events with
  | nil => rw [List.append_nil]; rfl
  | cons first rest ih =>
    have later := ih (events ++ [first])
    rw [List.append_assoc] at later
    exact later

/-- Two recorders have received the same notes, each in frames of its own. -/
def Matched (tick tick' : UInt64) (before before' after after' : Recorder) : Prop :=
  ∃ notes : List Note, after = before.emitAll (notes.map (·.stamp tick)) ∧
    after' = before'.emitAll (notes.map (·.stamp tick'))

variable {tick tick' : UInt64} {first first' second second' third third' : Recorder}

theorem matched_refl (r r' : Recorder) : Matched tick tick' r r' r r' :=
  ⟨[], rfl, rfl⟩

theorem matched_emit (note : Note) (r r' : Recorder) :
    Matched tick tick' r r' (r.emit (note.stamp tick)) (r'.emit (note.stamp tick')) :=
  ⟨[note], rfl, rfl⟩

theorem matched_trans (earlier : Matched tick tick' first first' second second')
    (later : Matched tick tick' second second' third third') :
    Matched tick tick' first first' third third' := by
  obtain ⟨notes, rfl, rfl⟩ := earlier
  obtain ⟨more, rfl, rfl⟩ := later
  refine ⟨notes ++ more, ?_, ?_⟩
  · rw [List.map_append, emitAll_append]
  · rw [List.map_append, emitAll_append]

end Recorder

end Trace

namespace Enemy
open Timer
open Trace (Note)
open Trace.Recorder

variable {α τ ω : Type}

/-! ## Peers -/

/-- Two brains differ at most in what they trace and in their last status. -/
structure Peers (b b' : Brain α) : Prop where
  agent : b'.agent = b.agent
  config : b'.config = b.config
  state : b'.state = b.state
  root : b'.decider.root = b.decider.root

/-- The state with another label. -/
def State.labelled (s : State) (label : Label) : State :=
  { s with label }

/-- The brain with another label. -/
def Brain.labelled (b : Brain α) (label : Label) : Brain α :=
  { b with state := b.state.labelled label }

section
variable (host : Host α τ ω) {b b' : Brain α} {label : Label} {frame frame' : Frame}

theorem peers_withAlarms (peers : Peers (b.labelled label) b') (alarms : Queue Alarm) :
    Peers ((b.withAlarms alarms).labelled label) (b'.withAlarms alarms) := by
  refine ⟨peers.agent, peers.config, ?_, peers.root⟩
  exact congrArg (fun s : State => { s with alarms }) peers.state

/-! ## Alarms

No alarm reads the label, so two brains that differ in it as well stay that way. -/

theorem ring_labelled (agent : α) (config : Config) (alarm : Alarm) (world : ω)
    (s : State) : Scene.ring host agent config alarm ⟨world, s.labelled label⟩ =
      let done := Scene.ring host agent config alarm ⟨world, s⟩
      ⟨done.world, done.state.labelled label⟩ := by
  cases alarm with
  | hit =>
    have struck : Scene.resolveHit host agent config ⟨world, s.labelled label⟩ =
        ⟨(Scene.resolveHit host agent config ⟨world, s⟩).world, s.labelled label⟩ := by
      unfold Scene.resolveHit
      cases host.position world agent with
      | none => rfl
      | some position =>
        dsimp only [attackAnchor, State.labelled]
        split <;> rfl
    simp only [Scene.ring, struck, resolveHit_state]
    rfl
  | ready => rfl
  | recovered => rfl

theorem handle_peers (peers : Peers (b.labelled label) b') (frame frame' : Frame) (alarm : Alarm)
    (world : ω) :
    let done := b.handle host frame alarm world
    let done' := b'.handle host frame' alarm world
    (Peers (done.1.labelled label) done'.1 ∧ done'.2 = done.2) ∧
      Matched frame.tick frame'.tick b.recorder b'.recorder done.1.recorder
        done'.1.recorder := by
  have rung : Scene.ring host b'.agent b'.config alarm ⟨world, b'.state⟩ =
      ⟨(Scene.ring host b.agent b.config alarm ⟨world, b.state⟩).world,
        (Scene.ring host b.agent b.config alarm ⟨world, b.state⟩).state.labelled label⟩ := by
    rw [peers.agent, peers.config, peers.state]
    exact ring_labelled host b.agent b.config alarm world b.state
  refine ⟨⟨⟨peers.agent, peers.config, ?_, peers.root⟩, ?_⟩, matched_emit ⟨_, alarm.code, 0⟩ _ _⟩
  · have state := congrArg Scene.state rung
    exact state
  · have world := congrArg Scene.world rung
    exact world

theorem settle_peers (peers : Peers (b.labelled label) b') (frame frame' : Frame) (world : ω) :
    let done := b.settle host frame world
    let done' := b'.settle host frame' world
    (Peers (done.1.labelled label) done'.1 ∧ done'.2 = done.2) ∧
      Matched frame.tick frame'.tick b.recorder b'.recorder done.1.recorder
        done'.1.recorder := by
  fun_induction Brain.trail host frame b world generalizing b' with
  | case1 b world quiet pops =>
    have pops' : b'.state.alarms.popDue = (none, quiet) := by
      rw [peers.state]
      exact pops
    rw [settle_quiet pops, settle_quiet pops']
    exact ⟨⟨peers_withAlarms peers quiet, rfl⟩, matched_refl _ _⟩
  | case2 b world alarm popped pops ih =>
    have pops' : b'.state.alarms.popDue = (some alarm, popped) := by
      rw [peers.state]
      exact pops
    obtain ⟨⟨handled, same⟩, noted⟩ :=
      handle_peers host (peers_withAlarms peers popped) frame frame' alarm world
    obtain ⟨settled, later⟩ := ih handled
    rw [settle_rings pops, settle_rings pops', same]
    exact ⟨settled, matched_trans noted later⟩

/-! ## Evaluations and stuns -/

theorem evaluate_root {ℓ σ : Type} (run : Runner ℓ σ) {d d' : Decider ℓ} (same : d'.root = d.root)
    (around : σ) : d'.evaluate run around = d.evaluate run around := by
  obtain ⟨root, last⟩ := d
  obtain ⟨root', last'⟩ := d'
  cases same
  cases root <;> rfl

theorem decide_peers (peers : Peers b b') (frame frame' : Frame) (world : ω) :
    let done := b.decide host frame world
    let done' := b'.decide host frame' world
    (done'.status = done.status ∧ Peers done.node done'.node ∧ done'.around = done.around) ∧
      Matched frame.tick frame'.tick b.recorder b'.recorder done.node.recorder
        done'.node.recorder := by
  have evaluated : b'.decider.evaluate (Leaf.run host b'.agent) ⟨world, b'.state⟩ =
      b.decider.evaluate (Leaf.run host b.agent) ⟨world, b.state⟩ := by
    rw [peers.agent, peers.state]
    exact evaluate_root _ peers.root _
  unfold Brain.decide
  rw [evaluated, peers.state]
  dsimp only
  split
  next => exact ⟨⟨rfl, ⟨peers.agent, peers.config, rfl, rfl⟩, rfl⟩, matched_refl _ _⟩
  next => exact ⟨⟨rfl, ⟨peers.agent, peers.config, rfl, rfl⟩, rfl⟩, matched_emit ⟨_, _, _⟩ _ _⟩

/-- Alarms leave the label alone, and the brain but for its state. -/
theorem settle_spares (frame : Frame) (b : Brain α) (world : ω) :
    let done := (b.settle host frame world).1
    done.state.label = b.state.label ∧ done.agent = b.agent ∧ done.config = b.config ∧
      done.decider = b.decider := by
  fun_induction Brain.trail host frame b world with
  | case1 b world quiet pops =>
    rw [settle_quiet pops]
    exact ⟨rfl, rfl, rfl, rfl⟩
  | case2 b world alarm popped pops ih =>
    have rung := congrArg State.label
      (ring_state host b.agent b.config ⟨world, (b.withAlarms popped).state⟩ alarm)
    rw [settle_rings pops]
    refine ⟨ih.1.trans (rung.trans ?_), ih.2⟩
    cases alarm <;> rfl

/-- The alarms of a tick find peers alike, and leave them so. -/
theorem settled_peers (peers : Peers (b.labelled label) b')
    (same : frame'.effective = frame.effective) (world : ω) :
    let done := b.settled host frame world
    let done' := b'.settled host frame' world
    (Peers (done.1.labelled label) done'.1 ∧ done'.2 = done.2) ∧
      Matched frame.tick frame'.tick b.recorder b'.recorder done.1.recorder
        done'.1.recorder := by
  have moved : b'.state.alarms.advance frame'.dt = b.state.alarms.advance frame.dt := by
    rw [peers.state]
    exact advance_effective _ same
  have woken : Peers ((b.woken frame).labelled label) (b'.woken frame') := by
    unfold Brain.woken
    rw [moved]
    exact peers_withAlarms peers _
  exact settle_peers host woken frame frame' world

theorem tick_eq (frame : Frame) (b : Brain α) (world : ω) :
    b.tick host frame world =
      (b.settled host frame world).1.decide host frame (b.settled host frame world).2 := rfl

theorem tick_peers (peers : Peers b b') (same : frame'.effective = frame.effective) (world : ω) :
    let done := b.tick host frame world
    let done' := b'.tick host frame' world
    (done'.status = done.status ∧ Peers done.node done'.node ∧ done'.around = done.around) ∧
      Matched frame.tick frame'.tick b.recorder b'.recorder done.node.recorder
        done'.node.recorder := by
  have alike : Peers (b.labelled b.state.label) b' := peers
  obtain ⟨⟨settled, same_world⟩, noted⟩ := settled_peers host alike same world
  have kept : (b.settled host frame world).1.state.label = b.state.label :=
    (settle_spares host frame (b.woken frame) world).1
  rw [← kept] at settled
  have ready : Peers (b.settled host frame world).1 (b'.settled host frame' world).1 := settled
  obtain ⟨decided, traced⟩ := decide_peers host ready frame frame' (b.settled host frame world).2
  rw [tick_eq, tick_eq, same_world]
  exact ⟨decided, matched_trans noted traced⟩

theorem requestStun_labelled (agent : α) (config : Config) (world : ω)
    (s : State) : Scene.requestStun host agent config ⟨world, s.labelled label⟩ =
      let done := Scene.requestStun host agent config ⟨world, s⟩
      (done.1, ⟨done.2.world, done.2.state.labelled label⟩) := by
  cases stunned : s.isStunned with
  | true => simp [Scene.requestStun, State.labelled, stunned]
  | false => simp [Scene.requestStun, State.labelled, stunned, Scene.stop, Scene.perform]

theorem requestStun_label (frame : Frame) (b : Brain α) (world : ω) :
    (b.requestStun host frame world).2.1.state.label = b.state.label := by
  cases stunned : b.state.isStunned with
  | true => simp [Brain.requestStun, Scene.requestStun, stunned]
  | false =>
    simp [Brain.requestStun, Scene.requestStun, stunned, Scene.stop, Scene.perform, Brain.emit]

theorem stun_peers (peers : Peers (b.labelled label) b') (frame frame' : Frame) (world : ω) :
    let done := b.requestStun host frame world
    let done' := b'.requestStun host frame' world
    (done'.1 = done.1 ∧ Peers (done.2.1.labelled label) done'.2.1 ∧ done'.2.2 = done.2.2) ∧
      Matched frame.tick frame'.tick b.recorder b'.recorder done.2.1.recorder
        done'.2.1.recorder := by
  have stunned : Scene.requestStun host b'.agent b'.config ⟨world, b'.state⟩ =
      let done := Scene.requestStun host b.agent b.config ⟨world, b.state⟩
      (done.1, ⟨done.2.world, done.2.state.labelled label⟩) := by
    rw [peers.agent, peers.config, peers.state]
    exact requestStun_labelled host b.agent b.config world b.state
  simp only [Brain.requestStun, stunned]
  refine ⟨⟨trivial, ?_, trivial⟩, ?_⟩
  · split <;> exact ⟨peers.agent, peers.config, rfl, peers.root⟩
  · split
    next => exact matched_emit ⟨"enemy.stun", 0, 0⟩ _ _
    next => exact matched_refl _ _

end

/-! ## Scripts -/

namespace Step

/-- Steps alike but for the number, the time and an idle length of their frames. -/
inductive Alike : Step ω → Step ω → Prop where
  | tick {frame frame' : Frame} (same : frame'.effective = frame.effective) :
      Alike (.tick frame) (.tick frame')
  | stun (frame frame' : Frame) : Alike (.stun frame) (.stun frame')
  | change (effect : ω → ω) : Alike (.change effect) (.change effect)

/-- The events of what is noted at a step, all in its frame. -/
def stamp (notes : List Note) : Step ω → List Trace.Event
  | .tick frame => notes.map (·.stamp frame.tick)
  | .stun frame => notes.map (·.stamp frame.tick)
  | .change _ => []

end Step

/-- The events of what is noted step by step. -/
def stamped (notes : List (List Note)) (script : List (Step ω)) : List Trace.Event :=
  (List.zipWith Step.stamp notes script).flatten

/-- What comes of playing a script with each of two peers: they report the same
and leave the same world, and note the same at every step. -/
def SideBySide (host : Host α τ ω) (first second : Stage α ω) (script script' : List (Step ω)) :
    Prop :=
  let done := first.play host script
  let done' := second.play host script'
  (done'.1 = done.1 ∧ Peers done.2.brain done'.2.brain ∧ done'.2.world = done.2.world) ∧
    ∃ notes : List (List Note), notes.length = script.length ∧
      done.2.brain.recorder = first.brain.recorder.emitAll (stamped notes script) ∧
      done'.2.brain.recorder = second.brain.recorder.emitAll (stamped notes script')

theorem step_peers (host : Host α τ ω) {first second : Stage α ω} {step step' : Step ω}
    (alike : Step.Alike step step') (peers : Peers first.brain second.brain)
    (same : second.world = first.world) :
    let done := first.step host step
    let done' := second.step host step'
    (done'.1 = done.1 ∧ Peers done.2.brain done'.2.brain ∧ done'.2.world = done.2.world) ∧
      ∃ notes : List Note,
        done.2.brain.recorder = first.brain.recorder.emitAll (step.stamp notes) ∧
        done'.2.brain.recorder = second.brain.recorder.emitAll (step'.stamp notes) := by
  obtain ⟨b, world⟩ := first
  obtain ⟨b', world'⟩ := second
  cases same
  cases alike with
  | tick same_length =>
    obtain ⟨⟨status, after, around⟩, noted⟩ := tick_peers host peers same_length world
    exact ⟨⟨congrArg Report.status status, after, around⟩, noted⟩
  | stun frame frame' =>
    have labelled : Peers (b.labelled b.state.label) b' := peers
    obtain ⟨⟨answer, after, around⟩, noted⟩ := stun_peers host labelled frame frame' world
    rw [← requestStun_label host frame b world] at after
    exact ⟨⟨congrArg Report.stunned answer, after, around⟩, noted⟩
  | change effect => exact ⟨⟨rfl, peers, rfl⟩, [], rfl, rfl⟩

theorem play_peers (host : Host α τ ω) {script script' : List (Step ω)}
    (alike : List.Forall₂ Step.Alike script script') {first second : Stage α ω}
    (peers : Peers first.brain second.brain) (same : second.world = first.world) :
    SideBySide host first second script script' := by
  induction alike generalizing first second with
  | nil => exact ⟨⟨rfl, peers, same⟩, [], rfl, rfl, rfl⟩
  | cons step rest ih =>
    obtain ⟨⟨report, peers_after, same_after⟩, notes, noted, noted'⟩ :=
      step_peers host step peers same
    obtain ⟨⟨reports, peers_later, same_later⟩, more, length, later, later'⟩ :=
      ih peers_after same_after
    refine ⟨⟨congrArg₂ List.cons report reports, peers_later, same_later⟩, notes :: more,
      ?_, ?_, ?_⟩
    · rw [List.length_cons, List.length_cons, length]
    · rw [noted, ← emitAll_append] at later
      exact later
    · rw [noted', ← emitAll_append] at later'
      exact later'

theorem alike_beside {ρ : Type} {step step' : Step ω} (alike : Step.Alike step step') :
    Step.Alike (step.beside : Step (ω × ρ)) step'.beside := by
  cases alike with
  | tick same => exact .tick same
  | stun frame frame' => exact .stun frame frame'
  | change effect => exact .change _

theorem stamped_beside {ρ : Type} (notes : List (List Note)) (script : List (Step ω)) :
    stamped notes (script.map (Step.beside : Step ω → Step (ω × ρ))) = stamped notes script := by
  unfold stamped
  rw [List.zipWith_map_right]
  congr 2
  funext noted step
  cases step <;> rfl

/-- Traces and numbers of frames are for observers only. Two brains alike but for
what they trace are given the same orders by hosts that agree at most on the
effective lengths of frames. They report the same at every step, ask for the same
and leave the same world, and become alike. What they trace is the same but for
the frame that it is traced in, and a log and a sink that are both there from the
start receive the same events. -/
theorem frames_and_recorders_decide_nothing (host : Host α τ ω) {b b' : Brain α}
    (peers : Peers b b') (world : ω) {script script' : List (Step ω)}
    (alike : List.Forall₂ Step.Alike script script') :
    let play := fun (b : Brain α) (script : List (Step ω)) =>
      ((Stage.mk b world).beside ([] : List (Request α τ))).play host.recorded
        (script.map Step.beside)
    let done := play b script
    let done' := play b' script'
    let plain := (Stage.mk b world).play host script
    (done.1 = plain.1 ∧ done.2.brain = plain.2.brain ∧ done.2.world.1 = plain.2.world) ∧
      (done'.1 = done.1 ∧ Peers done.2.brain done'.2.brain ∧ done'.2.world = done.2.world) ∧
      ∃ notes : List (List Note), notes.length = script.length ∧
        let events := stamped notes script
        let events' := stamped notes script'
        (done.2.brain.recorder = b.recorder.emitAll events ∧
          done'.2.brain.recorder = b'.recorder.emitAll events') ∧
        (b.recorder = .inBoth [] → done.2.brain.recorder = .inBoth events) ∧
        (b'.recorder = .inBoth [] → done'.2.brain.recorder = .inBoth events') := by
  intro play done done' plain
  have recorded_alike : List.Forall₂ Step.Alike
      (script.map (Step.beside : Step ω → Step (ω × List (Request α τ))))
      (script'.map Step.beside) := by
    rw [List.forall₂_map_left_iff, List.forall₂_map_right_iff]
    exact alike.imp fun _ _ => alike_beside
  have start : Peers ((Stage.mk b world).beside ([] : List (Request α τ))).brain
      ((Stage.mk b' world).beside ([] : List (Request α τ))).brain := peers
  obtain ⟨same, notes, length, noted, noted'⟩ :=
    play_peers host.recorded recorded_alike start rfl
  rw [stamped_beside] at noted noted'
  rw [List.length_map] at length
  refine ⟨play_beside (recorded_mirrors host) script ⟨b, world⟩ [], same, notes, length,
    ⟨noted, noted'⟩, ?_, ?_⟩
  · intro fresh
    refine Eq.trans noted ?_
    change b.recorder.emitAll _ = _
    rw [fresh]
    exact emitAll_inBoth [] _
  · intro fresh
    refine Eq.trans noted' ?_
    change b'.recorder.emitAll _ = _
    rw [fresh]
    exact emitAll_inBoth [] _

/-- A recruit and one that traces, in frames of other numbers. -/
theorem traced_recruit_does_the_same :
    let traced : Brain UInt64 := { recruit with recorder := .inBoth [] }
    let script : List (Step Sandbox) := [.tick ⟨0, 0.5, 0⟩, .stun ⟨0, 0, 0⟩,
      .change (Sandbox.drift 0.5), .tick ⟨1, 0, 0.5⟩]
    let script' : List (Step Sandbox) := [.tick ⟨70, 0.5, 35⟩, .stun ⟨3, 1, 0⟩,
      .change (Sandbox.drift 0.5), .tick ⟨2, -1, 0⟩]
    let play := fun (b : Brain UInt64) (script : List (Step Sandbox)) =>
      ((Stage.mk b neighbours).beside ([] : List (Request UInt64 UInt64))).play
        Sandbox.host.recorded (script.map Step.beside)
    (Peers recruit traced ∧ List.Forall₂ Step.Alike script script') ∧
      (play traced script').1 = (play recruit script).1 ∧
      (play traced script').2.world = (play recruit script).2.world ∧
      (play traced script').1 = [.status .success, .stunned true, .nothing, .status .running] ∧
      (play traced script').2.brain.recorder.log =
        some ⟨[⟨70, "enemy.label", 2, 0⟩, ⟨3, "enemy.stun", 0, 0⟩, ⟨2, "enemy.label", 3, 2⟩]⟩ := by
  intro traced script script' play
  have peers : Peers recruit traced := ⟨rfl, rfl, rfl, rfl⟩
  have alike : List.Forall₂ Step.Alike script script' :=
    .cons (.tick (by decide +kernel)) (.cons (.stun _ _) (.cons (.change _)
      (.cons (.tick (by decide +kernel)) .nil)))
  obtain ⟨-, ⟨reports, -, worlds⟩, -⟩ :=
    frames_and_recorders_decide_nothing Sandbox.host peers neighbours alike
  exact ⟨⟨peers, alike⟩, reports, worlds, by decide +kernel, by decide +kernel⟩

end Enemy

end Sentry
