import Sentry.Proofs.Enemy.Effects
import Sentry.Proofs.Timer.Clock

/-! A run of an enemy cut into beats. A beat is one alarm handled, one
evaluation of the tree, or one request to be stunned. Between two beats only
the clock of the alarms moves, so what every beat keeps holds of every run. -/
namespace Sentry.Enemy
open Timer

variable {α τ ω : Type}

/-! ## Beats -/

/-- What makes an enemy act. -/
inductive Cause where
  | alarm (alarm : Alarm)
  | evaluation
  | stun
  deriving DecidableEq

/-- A cause, and everything as it is when the enemy acts. In the queue of an
enemy that handles an alarm the alarm is no longer pending. -/
structure Beat (α ω : Type) where
  cause : Cause
  frame : Frame
  brain : Brain α
  world : ω

/-- What the enemy and the world are after a beat. -/
def Beat.act (host : Host α τ ω) (beat : Beat α ω) : Brain α × ω :=
  match beat.cause with
  | .alarm alarm => beat.brain.handle host beat.frame alarm beat.world
  | .evaluation =>
    let done := beat.brain.decide host beat.frame beat.world
    (done.node, done.around)
  | .stun => (beat.brain.requestStun host beat.frame beat.world).2

/-- The state of the enemy after a beat. -/
def Beat.after (host : Host α τ ω) (beat : Beat α ω) : State :=
  (beat.act host).1.state

/-- The clock that an enemy reads during a beat. -/
def Beat.clock (beat : Beat α ω) : Float :=
  beat.brain.state.alarms.now

/-- What a host asks of an enemy, in a world of its choice. -/
inductive Call (ω : Type) where
  | tick (frame : Frame) (world : ω)
  | stun (frame : Frame) (world : ω)

namespace Brain

/-- The beats in which the alarms that are due are handled. -/
def trail (host : Host α τ ω) (frame : Frame) (b : Brain α) (world : ω) : List (Beat α ω) :=
  match _popped : b.state.alarms.popDue with
  | (none, _) => []
  | (some alarm, popped) =>
    ⟨.alarm alarm, frame, b.withAlarms popped, world⟩ ::
      trail host frame ((b.withAlarms popped).handle host frame alarm world).1
        ((b.withAlarms popped).handle host frame alarm world).2
termination_by load b.state.alarms
decreasing_by exact load_handle host frame b world (by assumption)

/-- The brain at the beginning of a frame, before alarms are handled. -/
def woken (b : Brain α) (frame : Frame) : Brain α :=
  b.withAlarms (b.state.alarms.advance frame.dt)

/-- The brain and the world as a tick evaluates the tree. -/
def settled (host : Host α τ ω) (frame : Frame) (b : Brain α) (world : ω) : Brain α × ω :=
  (b.woken frame).settle host frame world

/-- The brain and the world after a call. -/
def call (host : Host α τ ω) (b : Brain α) : Call ω → Brain α × ω
  | .tick frame world =>
    let done := b.tick host frame world
    (done.node, done.around)
  | .stun frame world => (b.requestStun host frame world).2

/-- The beat in which a tick evaluates the tree. -/
def evaluation (host : Host α τ ω) (frame : Frame) (b : Brain α) (world : ω) : Beat α ω :=
  let (ready, after) := b.settled host frame world
  ⟨.evaluation, frame, ready, after⟩

/-- The beats of a call, in order. -/
def beats (host : Host α τ ω) (b : Brain α) : Call ω → List (Beat α ω)
  | .tick frame world =>
    (b.woken frame).trail host frame world ++ [b.evaluation host frame world]
  | .stun frame world => [⟨.stun, frame, b, world⟩]

/-- The brain after several calls. -/
def run (host : Host α τ ω) (b : Brain α) (calls : List (Call ω)) : Brain α :=
  calls.foldl (fun b call => (b.call host call).1) b

/-- The beats of several calls, in order. -/
def journal (host : Host α τ ω) (b : Brain α) : List (Call ω) → List (Beat α ω)
  | [] => []
  | call :: rest => b.beats host call ++ (b.call host call).1.journal host rest

end Brain

section
variable (host : Host α τ ω) (b : Brain α)

theorem run_append (first second : List (Call ω)) :
    b.run host (first ++ second) = (b.run host first).run host second :=
  List.foldl_append

theorem journal_append (first second : List (Call ω)) :
    b.journal host (first ++ second) =
      b.journal host first ++ (b.run host first).journal host second := by
  induction first generalizing b with
  | nil => rfl
  | cons call rest ih =>
    have later := ih (b.call host call).1
    simp only [List.cons_append, Brain.journal, List.append_assoc, later]
    rfl

end

/-! ## Regular brains -/

/-- A brain that still has the tree of its settings, whatever its state. -/
structure Equipped (agent : α) (config : Config) (b : Brain α) : Prop where
  root : b.decider.root = some (policy config)
  agent : b.agent = agent
  config : b.config = config

/-- A brain that still has the tree of its settings and a sound queue. -/
structure Regular (agent : α) (config : Config) (b : Brain α) : Prop where
  root : b.decider.root = some (policy config)
  sound : Queue.Sound b.state.alarms
  agent : b.agent = agent
  config : b.config = config

variable {host : Host α τ ω} {agent : α} {config : Config} {b fresh : Brain α} {frame : Frame}
  {world : ω}

theorem create_regular (created : Brain.create agent config = .ok fresh) :
    Regular agent config fresh ∧ fresh.state = {} ∧ config.isValid := by
  unfold Brain.create at created
  split at created
  · cases created
  next valid =>
    cases created
    refine ⟨⟨rfl, Queue.sound_empty, rfl, rfl⟩, rfl, ?_⟩
    rw [Config.isValid, valid]
    rfl

theorem regular_equipped (regular : Regular agent config b) : Equipped agent config b :=
  ⟨regular.root, regular.agent, regular.config⟩

theorem regular_withAlarms (regular : Regular agent config b) {alarms : Queue Alarm}
    (sound : Queue.Sound alarms) : Regular agent config (b.withAlarms alarms) :=
  ⟨regular.root, sound, regular.agent, regular.config⟩

/-! What a beat of a regular brain does to its state. -/

section
variable (host) (frame) (world)

theorem alarm_after (regular : Regular agent config b) (alarm : Alarm) :
    (Beat.mk (.alarm alarm) frame b world).after host = b.state.ring config alarm := by
  rw [← regular.config]
  exact ring_state host b.agent b.config ⟨world, b.state⟩ alarm

/-- An evaluation of the tree of the settings is a response. -/
theorem decide_responds (equipped : Equipped agent config b) :
    let response := (Scene.respond host agent config ⟨world, b.state⟩).2
    let done := b.decide host frame world
    done.node.state = response.state ∧ done.around = response.world ∧
      Equipped agent config done.node := by
  unfold Brain.decide Decider.evaluate
  simp only [equipped.root, policy_tick, equipped.agent]
  split <;> exact ⟨rfl, trivial, rfl, rfl, equipped.config⟩

theorem decide_eq (regular : Regular agent config b) :
    (b.decide host frame world).node.state =
        (Scene.respond host agent config ⟨world, b.state⟩).2.state ∧
      (b.decide host frame world).node.decider.root = some (policy config) ∧
      (b.decide host frame world).node.agent = agent ∧
      (b.decide host frame world).node.config = config := by
  obtain ⟨state, -, root, same_agent, same_config⟩ :=
    decide_responds host frame world (regular_equipped regular)
  exact ⟨state, root, same_agent, same_config⟩

/-- An evaluation leaves attacks and stuns alone, or it begins an attack. -/
theorem evaluation_after (regular : Regular agent config b) :
    Alike b.state ((Beat.mk .evaluation frame b world).after host) ∨
      (b.state.isStunned = false ∧ b.state.canAttack = true ∧ b.state.phase = .idle) ∧
        Alike (b.state.launch config) ((Beat.mk .evaluation frame b world).after host) := by
  change Alike b.state (b.decide host frame world).node.state ∨
    _ ∧ Alike (b.state.launch config) (b.decide host frame world).node.state
  rw [(decide_eq host frame world regular).1]
  exact respond_state host agent config ⟨world, b.state⟩

theorem stun_after (regular : Regular agent config b) :
    (Beat.mk .stun frame b world).after host =
      if b.state.isStunned then b.state else b.state.stun config := by
  rw [← regular.config]
  have stunned := (requestStun_state host b.agent b.config ⟨world, b.state⟩).2
  unfold Beat.after Beat.act Brain.requestStun
  dsimp only
  split <;> exact stunned

/-- No beat touches the clock or the horizon. -/
theorem act_clock (regular : Regular agent config b) (cause : Cause) :
    let after := (Beat.mk cause frame b world).after host
    Queue.Sound after.alarms ∧ after.alarms.now = b.state.alarms.now ∧
      after.alarms.horizon = b.state.alarms.horizon := by
  intro after
  have same : Queue.Sound b.state.alarms := regular.sound
  cases cause with
  | alarm alarm =>
    have rung : after = b.state.ring config alarm := alarm_after host frame world regular alarm
    rw [rung]
    cases alarm with
    | hit => exact ⟨Queue.schedule_sound same _ _, rfl, rfl⟩
    | ready => exact ⟨same, rfl, rfl⟩
    | recovered => exact ⟨same, rfl, rfl⟩
  | evaluation =>
    rcases evaluation_after host frame world regular with
      alike | ⟨-, alike⟩
    · rw [show after.alarms = b.state.alarms from alike.alarms]
      exact ⟨same, rfl, rfl⟩
    · rw [show after.alarms = (b.state.launch config).alarms from alike.alarms]
      exact ⟨Queue.schedule_sound same _ _, rfl, rfl⟩
  | stun =>
    have stunned : after = _ := stun_after host frame world regular
    rw [stunned]
    split
    · exact ⟨same, rfl, rfl⟩
    · exact ⟨Queue.schedule_sound same _ _, rfl, rfl⟩

end

theorem act_equipped (equipped : Equipped agent config b) (cause : Cause) :
    Equipped agent config ((Beat.mk cause frame b world).act host).1 := by
  cases cause with
  | alarm alarm => exact ⟨equipped.root, equipped.agent, equipped.config⟩
  | evaluation => exact (decide_responds host frame world equipped).2.2
  | stun =>
    unfold Beat.act Brain.requestStun
    dsimp only
    split <;> exact ⟨equipped.root, equipped.agent, equipped.config⟩

theorem act_regular (regular : Regular agent config b) (cause : Cause) :
    Regular agent config ((Beat.mk cause frame b world).act host).1 := by
  have equipped : Equipped agent config ((Beat.mk cause frame b world).act host).1 :=
    act_equipped (regular_equipped regular) cause
  exact ⟨equipped.root, (act_clock host frame world regular cause).1, equipped.agent,
    equipped.config⟩

/-! ## What every beat keeps -/

/-- A property of the beats so far and the brain that any beat keeps, and any
movement of the clock. A tree is evaluated only when nothing is due, and a stun
requested only when the clock has caught up. -/
structure Kept (host : Host α τ ω) (agent : α) (config : Config)
    (holds : List (Beat α ω) → Brain α → Prop) : Prop where
  moves : ∀ past {b alarms}, Regular agent config b → holds past b → Queue.Sound alarms →
    alarms.pending = b.state.alarms.pending → b.state.alarms.now ≤ alarms.now →
      holds past (b.withAlarms alarms)
  rings : ∀ past {b popped alarm} (frame : Frame) (world : ω), Regular agent config b →
    holds past b → b.state.alarms.popDue = (some alarm, popped) →
      holds (past ++ [⟨.alarm alarm, frame, b.withAlarms popped, world⟩])
        ((Beat.mk (.alarm alarm) frame (b.withAlarms popped) world).act host).1
  decides : ∀ past {b} (frame : Frame) (world : ω), Regular agent config b → holds past b →
    Queue.Settled b.state.alarms →
      holds (past ++ [⟨.evaluation, frame, b, world⟩])
        ((Beat.mk .evaluation frame b world).act host).1
  stuns : ∀ past {b} (frame : Frame) (world : ω), Regular agent config b → holds past b →
    b.state.alarms.now = b.state.alarms.horizon →
      holds (past ++ [⟨.stun, frame, b, world⟩]) ((Beat.mk .stun frame b world).act host).1

variable {holds : List (Beat α ω) → Brain α → Prop} (past : List (Beat α ω))

/-- What every beat keeps of the state holds after each of the beats. -/
theorem kept_after {good : State → Prop} (kept : Kept host agent config fun _ b => good b.state) :
    Kept host agent config fun past b =>
      good b.state ∧ ∀ beat ∈ past, good (beat.after host) := by
  constructor
  case moves =>
    rintro past b alarms regular ⟨before, earlier⟩ sound same forward
    exact ⟨kept.moves past regular before sound same forward, earlier⟩
  case rings =>
    rintro past b popped alarm frame world regular ⟨before, earlier⟩ pops
    have now := kept.rings past frame world regular before pops
    refine ⟨now, ?_⟩
    rw [List.forall_mem_append, List.forall_mem_singleton]
    exact ⟨earlier, now⟩
  case decides =>
    rintro past b frame world regular ⟨before, earlier⟩ settled
    have now := kept.decides past frame world regular before settled
    refine ⟨now, ?_⟩
    rw [List.forall_mem_append, List.forall_mem_singleton]
    exact ⟨earlier, now⟩
  case stuns =>
    rintro past b frame world regular ⟨before, earlier⟩ caught
    have now := kept.stuns past frame world regular before caught
    refine ⟨now, ?_⟩
    rw [List.forall_mem_append, List.forall_mem_singleton]
    exact ⟨earlier, now⟩

theorem settle_quiet {quiet : Queue Alarm} (pops : b.state.alarms.popDue = (none, quiet)) :
    b.settle host frame world = (b.withAlarms quiet, world) := by
  rw [Brain.settle]
  split
  next pops' =>
    rw [pops] at pops'
    cases pops'
    rfl
  next pops' =>
    rw [pops] at pops'
    cases pops'

theorem settle_rings {alarm : Alarm} {popped : Queue Alarm}
    (pops : b.state.alarms.popDue = (some alarm, popped)) :
    let handled := (b.withAlarms popped).handle host frame alarm world
    b.settle host frame world = handled.1.settle host frame handled.2 := by
  rw [Brain.settle]
  split
  next pops' =>
    rw [pops] at pops'
    cases pops'
  next pops' =>
    rw [pops] at pops'
    cases pops'
    rfl

theorem trail_quiet {quiet : Queue Alarm} (pops : b.state.alarms.popDue = (none, quiet)) :
    b.trail host frame world = [] := by
  rw [Brain.trail]
  split
  next => rfl
  next pops' =>
    rw [pops] at pops'
    cases pops'

theorem trail_rings {alarm : Alarm} {popped : Queue Alarm}
    (pops : b.state.alarms.popDue = (some alarm, popped)) :
    let handled := (b.withAlarms popped).handle host frame alarm world
    b.trail host frame world = ⟨.alarm alarm, frame, b.withAlarms popped, world⟩ ::
      handled.1.trail host frame handled.2 := by
  rw [Brain.trail]
  split
  next pops' =>
    rw [pops] at pops'
    cases pops'
  next pops' =>
    rw [pops] at pops'
    cases pops'
    rfl

/-- Handling what is due keeps what every alarm keeps, and leaves nothing due. -/
theorem settle_keeps (kept : Kept host agent config holds) (regular : Regular agent config b)
    (start : holds past b) :
    let done := b.settle host frame world
    holds (past ++ b.trail host frame world) done.1 ∧ Regular agent config done.1 ∧
      Queue.Settled done.1.state.alarms ∧
      done.1.state.alarms.horizon = b.state.alarms.horizon := by
  fun_induction Brain.trail host frame b world generalizing past with
  | case1 b world quiet pops =>
    obtain ⟨shape, settled⟩ := Queue.popDue_settled pops
    have sound := Queue.popDue_sound regular.sound pops
    rw [settle_quiet pops, List.append_nil]
    refine ⟨kept.moves past regular start sound ?_ ?_, regular_withAlarms regular sound, settled,
      ?_⟩
    · rw [shape]
    · rw [shape]
      exact regular.sound.behind
    · rw [Brain.withAlarms, shape]
  | case2 b world alarm popped pops ih =>
    have sound := Queue.popDue_sound regular.sound pops
    have ready := regular_withAlarms regular sound
    have rung := kept.rings past frame world regular start pops
    obtain ⟨holds_after, regular_after, settled, horizon⟩ :=
      ih _ (act_regular ready (.alarm alarm)) rung
    have still := (act_clock host frame world ready (.alarm alarm)).2.2
    rw [settle_rings pops, List.append_cons]
    refine ⟨holds_after, regular_after, settled, horizon.trans (still.trans ?_)⟩
    exact (Queue.popDue_clock regular.sound pops).1

theorem woken_keeps (kept : Kept host agent config holds) (regular : Regular agent config b)
    (start : holds past b) (frame : Frame) :
    holds past (b.woken frame) ∧ Regular agent config (b.woken frame) := by
  have sound := Queue.advance_sound regular.sound frame.dt
  refine ⟨kept.moves past regular start sound ?_ ?_, regular_withAlarms regular sound⟩
  · exact Queue.advance_pending _ _
  · exact Queue.now_le_advance regular.sound _

/-- The clock of a frame: that of the frame before, moved by the length of the
frame. -/
theorem settled_keeps (kept : Kept host agent config holds) (regular : Regular agent config b)
    (start : holds past b) (frame : Frame) (world : ω) :
    let ready := (b.settled host frame world).1
    holds (past ++ (b.woken frame).trail host frame world) ready ∧
      Regular agent config ready ∧ Queue.Settled ready.state.alarms ∧
      ready.state.alarms.horizon = (b.state.alarms.advance frame.dt).horizon := by
  obtain ⟨moved, woken⟩ := woken_keeps past kept regular start frame
  exact settle_keeps past kept woken moved

/-- The horizon after a call. -/
def Call.horizon (call : Call ω) (before : Float) : Float :=
  match call with
  | .tick frame _ => if Queue.isStep frame.dt then before + widen frame.dt else before
  | .stun _ _ => before

/-- A call keeps what every beat keeps, and the clock catches up. -/
theorem call_keeps (kept : Kept host agent config holds) (regular : Regular agent config b)
    (caught : b.state.alarms.now = b.state.alarms.horizon) (start : holds past b)
    (call : Call ω) :
    let after := (b.call host call).1
    holds (past ++ b.beats host call) after ∧ Regular agent config after ∧
      after.state.alarms.now = after.state.alarms.horizon ∧
      after.state.alarms.horizon = call.horizon b.state.alarms.horizon := by
  cases call with
  | tick frame world =>
    obtain ⟨ready, regular_ready, settled, horizon⟩ :=
      settled_keeps past kept regular start frame world
    have decided := kept.decides _ frame (b.settled host frame world).2 regular_ready ready settled
    obtain ⟨-, now_still, horizon_still⟩ := act_clock host frame
      (b.settled host frame world).2 regular_ready .evaluation
    refine ⟨?_, act_regular regular_ready .evaluation, ?_, ?_⟩
    · rw [Brain.beats, ← List.append_assoc]
      exact decided
    · exact now_still.trans (settled.caught.trans horizon_still.symm)
    · rw [Call.horizon, ← Queue.advance_horizon]
      exact horizon_still.trans horizon
  | stun frame world =>
    have stunned := kept.stuns past frame world regular start caught
    obtain ⟨-, now_still, horizon_still⟩ := act_clock host frame world regular
      .stun
    exact ⟨stunned, act_regular regular .stun, now_still.trans (caught.trans horizon_still.symm),
      horizon_still⟩

/-- The clock after several calls: the lengths of all frames added up. -/
def clockAfter (calls : List (Call ω)) (before : Float) : Float :=
  calls.foldl (fun clock call => call.horizon clock) before

/-- A run keeps what every beat keeps. -/
theorem run_keeps (kept : Kept host agent config holds) (regular : Regular agent config b)
    (caught : b.state.alarms.now = b.state.alarms.horizon) (start : holds past b)
    (calls : List (Call ω)) :
    let after := b.run host calls
    holds (past ++ b.journal host calls) after ∧ Regular agent config after ∧
      after.state.alarms.now = after.state.alarms.horizon ∧
      after.state.alarms.horizon = clockAfter calls b.state.alarms.horizon := by
  induction calls generalizing b past with
  | nil =>
    rw [Brain.journal, List.append_nil]
    exact ⟨start, regular, caught, rfl⟩
  | cons call rest ih =>
    obtain ⟨first, regular_after, caught_after, horizon⟩ :=
      call_keeps past kept regular caught start call
    obtain ⟨later, regular_end, caught_end, horizon_end⟩ := ih _ regular_after caught_after first
    rw [Brain.journal, ← List.append_assoc]
    refine ⟨later, regular_end, caught_end, horizon_end.trans ?_⟩
    rw [horizon]
    rfl

end Sentry.Enemy
