import Sentry.Proofs.Enemy.Timeline

/-! The course of an attack. Which alarms of an attack a frame handles, and how far
the attack has then come, depends on how far it had come before and on the horizon
of the frame, and on nothing else. Only an evaluation that begins an attack puts an
enemy on another course. -/
namespace Sentry.Enemy
open Timer

variable {α τ ω : Type}

/-! ## The course of an attack -/

/-- How far an attack has come, and when it goes on. -/
inductive Course where
  | idle
  | windup (hit : Float)
  | cooldown (ready : Float)

namespace Course

/-- The course of an attack in a given phase. -/
def of (phase : Phase) (hit ready : Float) : Course :=
  match phase with
  | .idle => .idle
  | .windup => .windup hit
  | .cooldown => .cooldown ready

/-- The phase of a course. -/
def phase : Course → Phase
  | .idle => .idle
  | .windup _ => .windup
  | .cooldown _ => .cooldown

/-- What is handled of a cooldown by a horizon, and what then becomes of it. -/
def rest (horizon ready : Float) : List (Alarm × Float) × Course :=
  if ready ≤ horizon then ([(.ready, ready)], .idle) else ([], .cooldown ready)

/-- What is handled of an attack by a horizon, each alarm with its clock, and how
far the attack has then come. -/
def pass (config : Config) (horizon : Float) : Course → List (Alarm × Float) × Course
  | .idle => ([], .idle)
  | .windup hit =>
    if hit ≤ horizon then
      let later := rest horizon (hit + Queue.effectiveDelay config.attackCooldown)
      ((.hit, hit) :: later.1, later.2)
    else ([], .windup hit)
  | .cooldown ready => rest horizon ready

theorem phase_of (phase : Phase) (hit ready : Float) : (of phase hit ready).phase = phase := by
  cases phase <;> rfl

end Course

/-- The state is armed for the course of its attack. -/
def State.IsOn (s : State) (course : Course) : Prop :=
  ∃ hit ready release, Armed s hit ready release ∧ course = .of s.phase hit ready

/-- The alarms of attacks among what is handled at a clock. -/
def Alarm.strokes (alarm : Alarm) (clock : Float) : List (Alarm × Float) :=
  if alarm = .recovered then [] else [(alarm, clock)]

/-- The alarms of attacks that are handled, with their clocks. -/
def strokes (past : List (Beat α ω)) : List (Alarm × Float) :=
  past.flatMap fun beat =>
    match beat.cause with
    | .alarm alarm => alarm.strokes beat.clock
    | _ => []

theorem strokes_append (first second : List (Beat α ω)) :
    strokes (first ++ second) = strokes first ++ strokes second :=
  List.flatMap_append

section
variable {s s' : State} {course : Course} {config : Config}

theorem on_phase (on : s.IsOn course) : s.phase = course.phase := by
  obtain ⟨hit, ready, release, -, rfl⟩ := on
  exact (Course.phase_of s.phase hit ready).symm

theorem on_permission (on : s.IsOn course) : s.canAttack = decide (course.phase ≠ .cooldown) := by
  rw [← on_phase on]
  obtain ⟨hit, ready, release, armed, -⟩ := on
  exact armed.permission

theorem exists_course (is_armed : s.isArmed) : ∃ course, s.IsOn course := by
  obtain ⟨hit, ready, release, armed⟩ := is_armed
  exact ⟨_, hit, ready, release, armed, rfl⟩

theorem armed_of_on (on : s.IsOn course) : s.isArmed := by
  obtain ⟨hit, ready, release, armed, -⟩ := on
  exact ⟨hit, ready, release, armed⟩

theorem on_moves (on : s.IsOn course) {alarms : Queue Alarm}
    (same : alarms.pending = s.alarms.pending) : (s.popping alarms).IsOn course := by
  obtain ⟨hit, ready, release, armed, rfl⟩ := on
  exact ⟨hit, ready, release, armed_moves armed same, rfl⟩

theorem on_alike (on : s.IsOn course) (alike : Alike s s') : s'.IsOn course := by
  obtain ⟨hit, ready, release, armed, rfl⟩ := on
  refine ⟨hit, ready, release, armed_alike armed alike, ?_⟩
  rw [alike.phase]

theorem on_launch (on : s.IsOn course) (idle : s.phase = .idle) :
    (s.launch config).IsOn
      (.windup (s.alarms.now + Queue.effectiveDelay config.attackWindup)) := by
  obtain ⟨hit, ready, release, armed, -⟩ := on
  exact ⟨_, ready, release, armed_launch armed idle, rfl⟩

/-- A stun leaves an attack on its course. -/
theorem on_stun (on : s.IsOn course) (awake : s.isStunned = false) :
    (s.stun config).IsOn course := by
  obtain ⟨hit, ready, release, armed, rfl⟩ := on
  exact ⟨hit, ready, _, armed_stun armed awake, rfl⟩

/-- Handling an alarm begins what is handled by the horizon. -/
theorem on_rings (config : Config) (on : s.IsOn course) (sound : Queue.Sound s.alarms)
    {alarm : Alarm} {popped : Queue Alarm} (pops : s.alarms.popDue = (some alarm, popped)) :
    ∃ next, ((s.popping popped).ring config alarm).IsOn next ∧
      course.pass config s.alarms.horizon =
        (alarm.strokes popped.now ++ (next.pass config s.alarms.horizon).1,
          (next.pass config s.alarms.horizon).2) := by
  obtain ⟨hit, ready, release, armed, rfl⟩ := on
  obtain ⟨-, -, due⟩ := Queue.popDue_clock sound pops
  cases alarm with
  | hit =>
    obtain ⟨⟨winding, now⟩, armed'⟩ := armed_hit config armed sound pops
    refine ⟨_, ⟨_, _, _, armed', rfl⟩, ?_⟩
    rw [now] at due ⊢
    rw [winding]
    exact if_pos due
  | ready =>
    obtain ⟨⟨cooling, now⟩, armed'⟩ := armed_ready config armed sound pops
    refine ⟨_, ⟨_, _, _, armed', rfl⟩, ?_⟩
    rw [now] at due ⊢
    rw [cooling]
    exact if_pos due
  | recovered =>
    obtain ⟨-, armed'⟩ := armed_recovered config armed sound pops
    exact ⟨_, ⟨_, _, _, armed', rfl⟩, rfl⟩

/-- When nothing is due the attack has come as far as it can. -/
theorem on_settled (config : Config) (on : s.IsOn course) (sound : Queue.Sound s.alarms)
    (settled : Queue.Settled s.alarms) :
    course.pass config s.alarms.horizon = ([], course) := by
  obtain ⟨hit, ready, release, armed, rfl⟩ := on
  have waits : ∀ {alarm due}, due ∈ s.alarms.dues alarm → ¬ due ≤ s.alarms.horizon := by
    intro alarm due member
    obtain ⟨moment, later⟩ := Queue.horizon_lt_dues sound settled member
    exact (not_le_iff_lt moment sound.horizon).mpr later
  cases phase : s.phase with
  | idle => rfl
  | windup =>
    have pending : hit ∈ s.alarms.dues .hit := by simp [armed.windup, phase]
    exact if_neg (waits pending)
  | cooldown =>
    have pending : ready ∈ s.alarms.dues .ready := by simp [armed.cooldown, phase]
    exact if_neg (waits pending)

end

/-! ## A tick -/

section
variable {host : Host α τ ω} {agent : α} {config : Config} {b : Brain α} {course : Course}
  {clock : Float}

theorem settle_course (host : Host α τ ω) (regular : Regular agent config b)
    (on : b.state.IsOn course) (frame : Frame) (world : ω) :
    let passed := course.pass config b.state.alarms.horizon
    let done := (b.settle host frame world).1
    strokes (b.trail host frame world) = passed.1 ∧ done.state.IsOn passed.2 := by
  fun_induction Brain.trail host frame b world generalizing course with
  | case1 b world quiet pops =>
    obtain ⟨rfl, settled⟩ := Queue.popDue_settled pops
    have on_quiet : (b.state.popping { b.state.alarms with now := b.state.alarms.horizon }).IsOn
        course := on_moves on rfl
    have passed := on_settled config on_quiet (Queue.popDue_sound regular.sound pops)
      settled
    change course.pass config b.state.alarms.horizon = _ at passed
    rw [settle_quiet pops, passed]
    exact ⟨rfl, on_quiet⟩
  | case2 b world alarm popped pops ih =>
    have sound := Queue.popDue_sound regular.sound pops
    have ready := regular_withAlarms regular sound
    obtain ⟨next, on_next, passed⟩ := on_rings config on regular.sound pops
    have after := alarm_after host frame world ready alarm
    have still := (act_clock host frame world ready (.alarm alarm)).2.2
    have horizon : ((b.withAlarms popped).handle host frame alarm world).1.state.alarms.horizon =
        b.state.alarms.horizon := still.trans (Queue.popDue_clock regular.sound pops).1
    obtain ⟨struck, on_done⟩ := ih (act_regular ready (.alarm alarm)) (after ▸ on_next)
    rw [horizon] at struck on_done
    rw [settle_rings pops, passed]
    refine ⟨?_, on_done⟩
    rw [← struck]
    rfl

theorem settle_awake (awake : b.state.isStunned = false) (frame : Frame) (world : ω) :
    (b.settle host frame world).1.state.isStunned = false := by
  fun_induction Brain.trail host frame b world with
  | case1 b world quiet pops =>
    rw [settle_quiet pops]
    exact awake
  | case2 b world alarm popped pops ih =>
    rw [settle_rings pops]
    apply ih
    have rung := congrArg State.isStunned
      (ring_state host b.agent b.config ⟨world, (b.withAlarms popped).state⟩ alarm)
    refine rung.trans ?_
    cases alarm with
    | hit => exact awake
    | ready => exact awake
    | recovered => rfl

/-- The enemy may attack, and its target is in reach. -/
def State.Strikes (s : State) (config : Config) (distance : Float32) : Prop :=
  (s.isStunned = false ∧ s.canAttack = true) ∧
    (Band.mk 0 config.attackRange).contains distance = true

/-- An evaluation begins an attack if the enemy strikes and no attack is in flight,
and leaves its phase alone if not. -/
theorem respond_phase (host : Host α τ ω) (agent : α) (config : Config) (scene : Scene ω) :
    let strikes := scene.state.Strikes config (host.targetDistance agent scene.world)
    let after := (scene.respond host agent config).2.state
    (strikes → scene.state.phase = .idle → after.phase = .windup) ∧
      (¬ strikes → after.phase = scene.state.phase) := by
  intro strikes after
  unfold after Scene.respond
  dsimp only
  split
  next stunned =>
    refine ⟨?_, fun _ => (enter_alike host agent scene .stunned).phase⟩
    rintro ⟨⟨awake, -⟩, -⟩
    rw [awake] at stunned
    cases stunned
  next awake =>
    split
    next reach =>
      rw [Bool.and_eq_true] at reach
      have attacked := attack_alike host agent config (scene.enter host agent .attack)
      rw [(enter_alike host agent scene .attack).phase] at attacked
      constructor
      · intro _ idle
        rw [if_pos idle] at attacked
        exact attacked.phase
      · intro apart
        exact absurd ⟨⟨by simpa using awake, reach.2⟩, reach.1⟩ apart
    next reach =>
      have apart : ¬ strikes := by
        rintro ⟨⟨-, able⟩, near⟩
        exact reach (by rw [near, able]; rfl)
      refine ⟨fun both => absurd both apart, fun _ => ?_⟩
      split
      · exact (chase_alike host agent (scene.enter host agent .chase) _).phase.trans
          (enter_alike host agent scene .chase).phase
      · exact (patrol_alike host agent (scene.enter host agent .patrol) _ _ _).phase.trans
          (enter_alike host agent scene .patrol).phase

theorem launches_iff (host : Host α τ ω) (regular : Regular agent config b) (frame : Frame)
    (world : ω) :
    (Beat.mk .evaluation frame b world).launches host ↔
      b.state.phase = .idle ∧ b.state.Strikes config (host.targetDistance agent world) := by
  have after : (Beat.mk .evaluation frame b world).after host = _ :=
    (decide_eq host frame world regular).1
  obtain ⟨begins, leaves⟩ := respond_phase host agent config ⟨world, b.state⟩
  constructor
  · rintro ⟨-, idle, winding⟩
    refine ⟨idle, ?_⟩
    by_contra apart
    have still := leaves apart
    rw [← after, winding] at still
    exact absurd (still.trans idle) (by decide)
  · rintro ⟨idle, strikes⟩
    refine ⟨rfl, idle, ?_⟩
    rw [after]
    exact begins strikes idle

/-- An evaluation begins an attack, or it leaves the attack on its course. -/
theorem evaluation_course (host : Host α τ ω) (regular : Regular agent config b)
    (on : b.state.IsOn course) (frame : Frame) (world : ω) :
    let beat := Beat.mk .evaluation frame b world
    (beat.launches host → (beat.after host).IsOn
        (.windup (b.state.alarms.now + Queue.effectiveDelay config.attackWindup))) ∧
      (¬ beat.launches host → (beat.after host).IsOn course) := by
  intro beat
  rcases evaluation_after host frame world regular with alike | ⟨⟨-, -, idle⟩, alike⟩
  · refine ⟨?_, fun _ => on_alike on alike⟩
    rintro ⟨-, idle, winding⟩
    have still : (beat.after host).phase = .idle := alike.phase.trans idle
    rw [still] at winding
    cases winding
  · refine ⟨fun _ => on_alike (on_launch on idle) alike, ?_⟩
    intro apart
    exact absurd ⟨rfl, idle, alike.phase⟩ apart

theorem evaluation_awake (host : Host α τ ω) (regular : Regular agent config b)
    (awake : b.state.isStunned = false) (frame : Frame) (world : ω) :
    ((Beat.mk .evaluation frame b world).after host).isStunned = false := by
  rcases evaluation_after host frame world regular with alike | ⟨-, alike⟩
  · exact alike.isStunned.trans awake
  · exact alike.isStunned.trans awake

/-- A brain whose clock shows a given time, with its attack on a given course. -/
structure Underway (agent : α) (config : Config) (course : Course) (clock : Float) (b : Brain α) :
    Prop where
  regular : Regular agent config b
  now : b.state.alarms.now = clock
  horizon : b.state.alarms.horizon = clock
  on : b.state.IsOn course

/-- A frame first handles what is left of the attack up to its clock. -/
theorem underway_settled (host : Host α τ ω) (underway : Underway agent config course clock b)
    (frame : Frame) (world : ω) :
    let next := (Call.tick frame world).horizon clock
    strokes (b.beats host (.tick frame world)) = (course.pass config next).1 ∧
      Underway agent config (course.pass config next).2 next (b.settled host frame world).1 := by
  intro next
  have later : (b.state.alarms.advance frame.dt).horizon = next := by
    rw [Queue.advance_horizon, underway.horizon]
    rfl
  have sound := Queue.advance_sound underway.regular.sound frame.dt
  have woken : Regular agent config (b.woken frame) := regular_withAlarms underway.regular sound
  have on_woken : (b.woken frame).state.IsOn course :=
    on_moves underway.on (Queue.advance_pending _ _)
  obtain ⟨struck, after⟩ := settle_course host woken on_woken frame world
  rw [show (b.woken frame).state.alarms.horizon = next from later] at struck after
  obtain ⟨-, regular, settled, still⟩ := settled_keeps [] (armed_kept host agent config)
    underway.regular (armed_of_on underway.on) frame world
  have ready := still.trans later
  refine ⟨?_, regular, settled.caught.trans ready, ready, after⟩
  rw [Brain.beats, strokes_append, struck]
  exact List.append_nil _

/-- Then it begins an attack, or leaves the attack on its course. -/
theorem underway_evaluated (host : Host α τ ω) (underway : Underway agent config course clock b)
    (frame : Frame) (world : ω) :
    let beat := Beat.mk .evaluation frame b world
    (beat.launches host → Underway agent config
        (.windup (clock + Queue.effectiveDelay config.attackWindup)) clock (beat.act host).1) ∧
      (¬ beat.launches host → Underway agent config course clock (beat.act host).1) := by
  intro beat
  obtain ⟨-, now, horizon⟩ := act_clock host frame world underway.regular .evaluation
  have stays : ∀ {next}, (beat.after host).IsOn next →
      Underway agent config next clock (beat.act host).1 := by
    intro next on
    exact ⟨act_regular underway.regular .evaluation, now.trans underway.now,
      horizon.trans underway.horizon, on⟩
  obtain ⟨begun, kept⟩ := evaluation_course host underway.regular underway.on frame world
  rw [underway.now] at begun
  exact ⟨fun launches => stays (begun launches), fun apart => stays (kept apart)⟩

end

end Sentry.Enemy
