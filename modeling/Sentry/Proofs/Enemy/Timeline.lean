import Sentry.Proofs.Enemy.Wait

/-! The timeline of attacks and stuns. The clock of a frame alone tells which
part of an attack an enemy is in, and whether it is stunned: an attack is in its
windup before the hit test is due, in its cooldown before attacks are allowed
again, and over from then on. -/
namespace Sentry.Enemy
open Timer

variable {α τ ω : Type} {host : Host α τ ω} {agent : α} {config : Config}

/-! ## Attacks -/

/-- The beat begins an attack. -/
def Beat.launches (host : Host α τ ω) (beat : Beat α ω) : Prop :=
  beat.cause = .evaluation ∧ beat.brain.state.phase = .idle ∧ (beat.after host).phase = .windup

/-- An attack whose hit test and end have given times has been begun, and none
since. -/
structure Attacking (hit ready : Float) (s : State) : Prop where
  armed : ∃ release, Armed s hit ready release
  struck : s.phase ≠ .windup → hit ≤ s.alarms.now
  rested : s.phase = .idle → ready ≤ s.alarms.now

section
variable {s : State} {hit ready : Float} {popped : Queue Alarm} {alarm : Alarm}

theorem attacking_moves (attacking : Attacking hit ready s) (sound : Queue.Sound s.alarms)
    (moment : IsMoment hit) (ready_moment : IsMoment ready) {alarms : Queue Alarm}
    (sound' : Queue.Sound alarms) (same : alarms.pending = s.alarms.pending)
    (forward : s.alarms.now ≤ alarms.now) : Attacking hit ready (s.popping alarms) := by
  obtain ⟨release, armed⟩ := attacking.armed
  refine ⟨⟨release, armed_moves armed same⟩, ?_, ?_⟩
  · intro later
    exact moment_le_trans moment sound.now sound'.now (attacking.struck later) forward
  · intro idle
    exact moment_le_trans ready_moment sound.now sound'.now (attacking.rested idle) forward

/-- Handling an alarm goes on with the attack, and the hit test is handled at
its time in the windup. -/
theorem attacking_rings (attacking : Attacking hit ready s) (sound : Queue.Sound s.alarms)
    (moment : IsMoment hit) (delay : IsDelay (Queue.effectiveDelay config.attackCooldown))
    (chained : ready = hit + Queue.effectiveDelay config.attackCooldown)
    (pops : s.alarms.popDue = (some alarm, popped)) :
    let after := (s.popping popped).ring config alarm
    Attacking hit ready after ∧
      if alarm = .hit then
        (s.phase == .windup) = true ∧ popped.now = hit ∧ (after.phase == .windup) = false
      else (after.phase == .windup) = (s.phase == .windup) := by
  obtain ⟨release, armed⟩ := attacking.armed
  have sound' := Queue.popDue_sound sound pops
  have ready_moment : IsMoment ready := chained ▸ moment_add moment delay
  have order : hit ≤ ready := chained ▸ le_add moment delay
  obtain ⟨-, forward, -⟩ := Queue.popDue_clock sound pops
  cases alarm with
  | hit =>
    obtain ⟨⟨winding, now⟩, armed'⟩ := armed_hit config armed sound pops
    rw [← chained] at armed'
    refine ⟨⟨⟨release, armed'⟩, ?_, ?_⟩, ?_⟩
    · intro _
      change hit ≤ popped.now
      rw [now]
      exact moment_le_refl moment
    · intro idle
      cases idle
    · exact ⟨by rw [winding]; rfl, now, rfl⟩
  | ready =>
    obtain ⟨⟨cooling, now⟩, armed'⟩ := armed_ready config armed sound pops
    refine ⟨⟨⟨release, armed'⟩, ?_, ?_⟩, ?_⟩
    · intro _
      change hit ≤ popped.now
      rw [now]
      exact order
    · intro _
      change ready ≤ popped.now
      rw [now]
      exact moment_le_refl ready_moment
    · rw [cooling]
      rfl
  | recovered =>
    obtain ⟨-, armed'⟩ := armed_recovered config armed sound pops
    refine ⟨⟨⟨release, armed'⟩, ?_, ?_⟩, rfl⟩
    · intro later
      exact moment_le_trans moment sound.now sound'.now (attacking.struck later) forward
    · intro idle
      exact moment_le_trans ready_moment sound.now sound'.now (attacking.rested idle) forward

theorem attacking_alike {s' : State} (attacking : Attacking hit ready s) (alike : Alike s s') :
    Attacking hit ready s' := by
  obtain ⟨release, armed⟩ := attacking.armed
  refine ⟨⟨release, armed_alike armed alike⟩, ?_, ?_⟩
  · rw [alike.phase, alike.alarms]
    exact attacking.struck
  · rw [alike.phase, alike.alarms]
    exact attacking.rested

theorem attacking_stun (attacking : Attacking hit ready s) (awake : s.isStunned = false) :
    Attacking hit ready (s.stun config) := by
  obtain ⟨release, armed⟩ := attacking.armed
  exact ⟨⟨_, armed_stun armed awake⟩, attacking.struck, attacking.rested⟩

/-- The part of an attack that a clock tells. -/
structure OnSchedule (s : State) (clock hit ready : Float) : Prop where
  windup : s.phase = .windup ↔ clock < hit
  cooldown : s.phase = .cooldown ∧ s.canAttack = false ↔ hit ≤ clock ∧ clock < ready
  idle : s.phase = .idle ∧ s.canAttack = true ↔ ready ≤ clock

theorem attacking_on_schedule (attacking : Attacking hit ready s) (sound : Queue.Sound s.alarms)
    (settled : Queue.Settled s.alarms) (moment : IsMoment hit) (ready_moment : IsMoment ready)
    (order : hit ≤ ready) : OnSchedule s s.alarms.horizon hit ready := by
  obtain ⟨release, armed⟩ := attacking.armed
  have permission := armed.permission
  have struck := attacking.struck
  have rested := attacking.rested
  rw [settled.caught] at struck rested
  -- What ends the present phase is pending, so it lies beyond the horizon.
  have before_hit : s.phase = .windup → s.alarms.horizon < hit := by
    intro winding
    have pending : hit ∈ s.alarms.dues .hit := by simp [armed.windup, winding]
    exact (Queue.horizon_lt_dues sound settled pending).2
  have before_ready : s.phase = .cooldown → s.alarms.horizon < ready := by
    intro cooling
    have pending : ready ∈ s.alarms.dues .ready := by simp [armed.cooldown, cooling]
    exact (Queue.horizon_lt_dues sound settled pending).2
  rw [le_iff_word moment sound.horizon] at struck
  rw [le_iff_word ready_moment sound.horizon] at rested
  rw [lt_iff_word sound.horizon moment] at before_hit
  rw [lt_iff_word sound.horizon ready_moment] at before_ready
  rw [le_iff_word moment ready_moment] at order
  refine ⟨?_, ?_, ?_⟩
  · rw [lt_iff_word sound.horizon moment]
    refine ⟨before_hit, ?_⟩
    intro early
    by_contra later
    exact absurd (struck later) (by omega)
  · rw [le_iff_word moment sound.horizon, lt_iff_word sound.horizon ready_moment]
    cases phase : s.phase with
    | windup =>
      have early := before_hit phase
      simp [early]
    | cooldown =>
      have late := struck (by simp [phase])
      simp [permission, phase, late, before_ready phase]
    | idle =>
      have late := rested phase
      simp [late]
  · rw [le_iff_word ready_moment sound.horizon]
    cases phase : s.phase with
    | windup =>
      have early := before_hit phase
      simp
      omega
    | cooldown =>
      have early := before_ready phase
      simp [early]
    | idle =>
      simp [permission, phase, rested phase]

end

theorem attacking_acts {hit ready : Float} {b : Brain α} {cause : Cause} (frame : Frame)
    (world : ω) (attacking : Attacking hit ready b.state) (regular : Regular agent config b)
    (silent : ∀ rung, cause ≠ .alarm rung)
    (calm : ¬ (Beat.mk cause frame b world).launches host) :
    let after := (Beat.mk cause frame b world).after host
    Attacking hit ready after ∧ (after.phase == .windup) = (b.state.phase == .windup) := by
  cases cause with
  | alarm rung => exact absurd rfl (silent rung)
  | evaluation =>
    rcases evaluation_after host frame world regular with
      alike | ⟨⟨-, -, idle⟩, alike⟩
    · refine ⟨attacking_alike attacking alike, ?_⟩
      rw [alike.phase]
    · exact absurd ⟨rfl, idle, alike.phase⟩ calm
  | stun =>
    intro after
    rw [show after = _ from stun_after host frame world regular]
    cases awake : b.state.isStunned with
    | true => exact ⟨attacking, rfl⟩
    | false => exact ⟨attacking_stun attacking awake, rfl⟩

/-- The windup is a wait for the hit test. -/
theorem attack_wait (host : Host α τ ω) (agent : α) {hit ready : Float} (moment : IsMoment hit)
    (delay : IsDelay (Queue.effectiveDelay config.attackCooldown))
    (chained : ready = hit + Queue.effectiveDelay config.attackCooldown) :
    Wait host agent config .hit hit (·.phase == .windup) (Attacking hit ready)
      (Beat.launches host : Beat α ω → Prop) := by
  have ready_moment : IsMoment ready := chained ▸ moment_add moment delay
  have order : hit ≤ ready := chained ▸ le_add moment delay
  constructor
  case moment => exact moment
  case moves =>
    intro s alarms attacking sound sound' same forward
    exact ⟨attacking_moves attacking sound moment ready_moment sound' same forward, rfl⟩
  case rings =>
    intro s rung popped attacking sound pops
    exact attacking_rings attacking sound moment delay chained pops
  case acts =>
    intro b cause frame world attacking regular silent calm
    exact attacking_acts frame world attacking regular silent calm
  case tells =>
    intro s attacking sound settled
    rw [beq_iff_eq]
    exact (attacking_on_schedule attacking sound settled moment ready_moment order).windup
  case separate =>
    rintro beat ⟨cause, -⟩ alarm
    rw [cause]
    exact Cause.noConfusion

/-! ## Stuns -/

/-- The beat stuns the enemy. -/
def Beat.stuns (beat : Beat α ω) : Prop :=
  beat.cause = .stun ∧ beat.brain.state.isStunned = false

/-- A stun that ends at a given time has been accepted, and none since. -/
structure Stunned (release : Float) (s : State) : Prop where
  armed : ∃ hit ready, Armed s hit ready release
  released : s.isStunned = false → release ≤ s.alarms.now

section
variable {s : State} {release : Float} {popped : Queue Alarm} {alarm : Alarm}

/-- Handling an alarm goes on with the stun, and the stun ends at its time. -/
theorem stunned_rings (stunned : Stunned release s) (sound : Queue.Sound s.alarms)
    (moment : IsMoment release) (pops : s.alarms.popDue = (some alarm, popped)) :
    let after := (s.popping popped).ring config alarm
    Stunned release after ∧
      if alarm = .recovered then
        s.isStunned = true ∧ popped.now = release ∧ after.isStunned = false
      else after.isStunned = s.isStunned := by
  obtain ⟨hit, ready, armed⟩ := stunned.armed
  have sound' := Queue.popDue_sound sound pops
  obtain ⟨-, forward, -⟩ := Queue.popDue_clock sound pops
  have later : s.isStunned = false → release ≤ popped.now := by
    intro awake
    exact moment_le_trans moment sound.now sound'.now (stunned.released awake) forward
  cases alarm with
  | hit =>
    obtain ⟨-, armed'⟩ := armed_hit config armed sound pops
    exact ⟨⟨⟨_, _, armed'⟩, later⟩, rfl⟩
  | ready =>
    obtain ⟨-, armed'⟩ := armed_ready config armed sound pops
    exact ⟨⟨⟨_, _, armed'⟩, later⟩, rfl⟩
  | recovered =>
    obtain ⟨⟨still, now⟩, armed'⟩ := armed_recovered config armed sound pops
    refine ⟨⟨⟨_, _, armed'⟩, ?_⟩, still, now, rfl⟩
    intro _
    change release ≤ popped.now
    rw [now]
    exact moment_le_refl moment

theorem stunned_alike {s' : State} (stunned : Stunned release s) (alike : Alike s s') :
    Stunned release s' := by
  obtain ⟨hit, ready, armed⟩ := stunned.armed
  refine ⟨⟨hit, ready, armed_alike armed alike⟩, ?_⟩
  rw [alike.isStunned, alike.alarms]
  exact stunned.released

theorem stunned_launch (stunned : Stunned release s) (idle : s.phase = .idle) :
    Stunned release (s.launch config) := by
  obtain ⟨hit, ready, armed⟩ := stunned.armed
  exact ⟨⟨_, _, armed_launch armed idle⟩, stunned.released⟩

/-- A clock tells whether an enemy is stunned. -/
theorem stunned_iff_clock (stunned : Stunned release s) (sound : Queue.Sound s.alarms)
    (settled : Queue.Settled s.alarms) (moment : IsMoment release) :
    s.isStunned = true ↔ s.alarms.horizon < release := by
  obtain ⟨hit, ready, armed⟩ := stunned.armed
  constructor
  · intro still
    have pending : release ∈ s.alarms.dues .recovered := by simp [armed.stun, still]
    exact (Queue.horizon_lt_dues sound settled pending).2
  · intro early
    by_contra awake
    have late := stunned.released (by simpa using awake)
    rw [settled.caught] at late
    exact (not_le_iff_lt moment sound.horizon).mpr early late

end

theorem stunned_acts {release : Float} {b : Brain α} {cause : Cause} (frame : Frame) (world : ω)
    (stunned : Stunned release b.state) (regular : Regular agent config b)
    (silent : ∀ rung, cause ≠ .alarm rung) (calm : ¬ (Beat.mk cause frame b world).stuns) :
    let after := (Beat.mk cause frame b world).after host
    Stunned release after ∧ after.isStunned = b.state.isStunned := by
  cases cause with
  | alarm rung => exact absurd rfl (silent rung)
  | evaluation =>
    rcases evaluation_after host frame world regular with
      alike | ⟨⟨-, -, idle⟩, alike⟩
    · exact ⟨stunned_alike stunned alike, alike.isStunned⟩
    · exact ⟨stunned_alike (stunned_launch stunned idle) alike, alike.isStunned⟩
  | stun =>
    intro after
    rw [show after = _ from stun_after host frame world regular]
    cases awake : b.state.isStunned with
    | true => exact ⟨stunned, awake⟩
    | false => exact absurd ⟨rfl, awake⟩ calm

/-- A stun is a wait for its end. -/
theorem stun_wait (host : Host α τ ω) (agent : α) (config : Config) {release : Float}
    (moment : IsMoment release) :
    Wait host agent config .recovered release (·.isStunned) (Stunned release)
      (Beat.stuns : Beat α ω → Prop) := by
  constructor
  case moment => exact moment
  case moves =>
    rintro s alarms ⟨⟨hit, ready, armed⟩, released⟩ sound sound' same forward
    refine ⟨⟨⟨hit, ready, armed_moves armed same⟩, ?_⟩, rfl⟩
    intro awake
    exact moment_le_trans moment sound.now sound'.now (released awake) forward
  case rings =>
    intro s rung popped stunned sound pops
    exact stunned_rings stunned sound moment pops
  case acts =>
    intro b cause frame world stunned regular silent calm
    exact stunned_acts frame world stunned regular silent calm
  case tells =>
    intro s stunned sound settled
    exact stunned_iff_clock stunned sound settled moment
  case separate =>
    rintro beat ⟨cause, -⟩ alarm
    rw [cause]
    exact Cause.noConfusion

/-! ## Runs of a fresh brain -/

/-- Accepted durations are delays, and are waited out in full. -/
theorem accepted_delay (valid : config.isValid = true) (setting : Magnitude) :
    IsDelay (widen (setting.value config)) ∧
      Queue.effectiveDelay (setting.value config) = widen (setting.value config) := by
  have faultless : config.fault? = none := by simpa [Config.isValid] using valid
  unfold Config.fault? at faultless
  rw [Option.orElse_eq_none, Config.magnitudeFault?, Option.map_eq_none_iff,
    List.find?_eq_none] at faultless
  have listed : setting ∈ Magnitude.all := by cases setting <;> decide
  have accepted := faultless.1 setting listed
  simp only [Bool.not_eq_true', Bool.not_eq_false, Config.isMagnitude, Bool.and_eq_true,
    decide_eq_false_iff_not] at accepted
  exact ⟨widen_delay accepted.1 accepted.2, effectiveDelay_of_nonneg accepted.1 accepted.2⟩

section
variable {fresh b : Brain α}

/-- What holds of a fresh brain after any calls. -/
theorem fresh_run (host : Host α τ ω) (created : Brain.create agent config = .ok fresh)
    (calls : List (Call ω)) :
    let after := fresh.run host calls
    after.state.isArmed ∧ Regular agent config after ∧
      after.state.alarms.now = after.state.alarms.horizon ∧
      after.state.alarms.horizon = clockAfter calls 0 := by
  obtain ⟨regular, shape, -⟩ := create_regular created
  have start : fresh.state.isArmed := by
    rw [shape]
    exact ⟨0, 0, 0, armed_start 0 0 0⟩
  have caught : fresh.state.alarms.now = fresh.state.alarms.horizon := by rw [shape]
  obtain ⟨armed, regular_after, caught_after, horizon⟩ :=
    run_keeps [] (armed_kept host agent config) regular caught start calls
  rw [shape] at horizon
  exact ⟨armed, regular_after, caught_after, horizon⟩

/-- A tick that launches an attack begins a windup. -/
theorem launch_begins {frame : Frame} {world : ω} (armed : b.state.isArmed)
    (regular : Regular agent config b)
    (caught : b.state.alarms.now = b.state.alarms.horizon)
    (launches : (b.evaluation host frame world).launches host) (ready : Float) :
    let launched := (b.call host (.tick frame world)).1
    let clock := (Call.tick frame world).horizon b.state.alarms.horizon
    let hit := clock + Queue.effectiveDelay config.attackWindup
    launched.state.alarms.horizon = clock ∧
      Begun agent config (·.phase == .windup) (Attacking hit ready) launched := by
  intro launched clock hit
  have kept := armed_kept host agent config
  obtain ⟨⟨_, _, release, armed_ready⟩, regular_ready, settled, horizon⟩ :=
    settled_keeps [] kept regular armed frame world
  obtain ⟨-, regular_after, caught_after, horizon_after⟩ :=
    call_keeps [] kept regular caught armed (.tick frame world)
  obtain ⟨-, idle, winding⟩ := launches
  change launched.state.phase = .windup at winding
  refine ⟨horizon_after, regular_after, caught_after, ?_, beq_iff_eq.mpr winding⟩
  rcases evaluation_after host frame (b.settled host frame world).2 regular_ready with
    alike | ⟨-, alike⟩
  · have still : launched.state.phase = .idle := alike.phase.trans idle
    rw [still] at winding
    cases winding
  · change Alike _ launched.state at alike
    obtain ⟨windup, cooldown, stun, permission⟩ :=
      armed_alike (armed_launch armed_ready idle) alike
    have now : (b.settled host frame world).1.state.alarms.now = clock := by
      rw [settled.caught, horizon, Queue.advance_horizon]
      rfl
    rw [now] at windup
    rw [winding] at cooldown
    refine ⟨⟨release, windup, ?_, stun, permission⟩, ?_, ?_⟩
    · rw [winding]
      exact cooldown
    · intro later
      exact absurd winding later
    · intro resting
      rw [winding] at resting
      cases resting

/-- A request that is accepted begins a stun. -/
theorem stun_begins {frame : Frame} {world : ω} (armed : b.state.isArmed)
    (regular : Regular agent config b)
    (caught : b.state.alarms.now = b.state.alarms.horizon)
    (accepted : (b.requestStun host frame world).1 = true) :
    let stunned := (b.call host (.stun frame world)).1
    let release := b.state.alarms.horizon + Queue.effectiveDelay config.stunDuration
    stunned.state.alarms.horizon = b.state.alarms.horizon ∧
      Begun agent config (·.isStunned) (Stunned release) stunned := by
  intro stunned release
  obtain ⟨hit, ready, _, was_armed⟩ := armed
  obtain ⟨-, regular_after, caught_after, horizon_after⟩ :=
    call_keeps [] (armed_kept host agent config) regular caught ⟨_, _, _, was_armed⟩
      (.stun frame world)
  have awake : b.state.isStunned = false := by
    have answer := (requestStun_state host b.agent b.config ⟨world, b.state⟩).1
    simpa using answer.symm.trans accepted
  have after : stunned.state = b.state.stun config := by
    have stuns := stun_after host frame world regular
    rw [awake] at stuns
    exact stuns
  have is_stunned : stunned.state.isStunned = true := by
    rw [after]
    rfl
  refine ⟨horizon_after, regular_after, caught_after, ⟨?_, ?_⟩, is_stunned⟩
  · rw [after]
    have rearmed : Armed (b.state.stun config) _ _ _ := armed_stun was_armed awake
    rw [caught] at rearmed
    exact ⟨_, _, rearmed⟩
  · rw [is_stunned]
    exact Bool.noConfusion

/-- From its launch on the clock tells how far an attack has come. -/
theorem attack_follows_clock {launched : Brain α} {t : Float} {between : List (Call ω)}
    (valid : config.isValid = true) (at_launch : launched.state.alarms.horizon = t)
    (begun : Begun agent config (·.phase == .windup) (Attacking (t + widen config.attackWindup)
      (t + widen config.attackWindup + widen config.attackCooldown)) launched)
    (undisturbed : ∀ beat ∈ launched.journal host between, ¬ beat.launches host)
    (later : Frame) (world : ω) :
    let hit := t + widen config.attackWindup
    let ready := hit + widen config.attackCooldown
    let clock := clockAfter (between ++ [.tick later world]) t
    OnSchedule ((launched.run host between).settled host later world).1.state clock hit ready ∧
      launched.state.alarms.dues .hit = [hit] ∧
      firings .hit ((launched.run host between).beats host (.tick later world)) =
        if hit ≤ clock ∧ ∀ earlier ∈ tickClocks t between, earlier < hit then [hit] else [] := by
  intro hit ready clock
  obtain ⟨windup_delay, -⟩ := accepted_delay valid .attackWindup
  obtain ⟨cooldown_delay, cooldown⟩ := accepted_delay valid .attackCooldown
  have moment : IsMoment hit :=
    moment_add (at_launch ▸ begun.regular.sound.horizon) windup_delay
  have delay : IsDelay (Queue.effectiveDelay config.attackCooldown) :=
    effectiveDelay_is_delay config.attackCooldown
  have chained : ready = hit + Queue.effectiveDelay config.attackCooldown :=
    congrArg (hit + ·) cooldown.symm
  have wait := attack_wait host agent moment delay chained
  obtain ⟨⟨regular_ready, settled⟩, clock_ready, attacking, -⟩ :=
    wait_settled wait begun undisturbed later world
  rw [at_launch] at clock_ready
  refine ⟨?_, ?_, ?_⟩
  · have told := attacking_on_schedule attacking regular_ready.sound settled moment
      (moment_add moment cooldown_delay) (le_add moment cooldown_delay)
    rw [clock_ready] at told
    exact told
  · obtain ⟨release, launched_armed⟩ := begun.holds.armed
    rw [launched_armed.windup, if_pos (beq_iff_eq.mp begun.waits)]
  · have handled := firings_in_tick wait begun undisturbed later world
    rw [at_launch] at handled
    exact handled

/-- Once a stun has begun the clock tells whether it lasts. -/
theorem stun_follows_clock {stunned : Brain α} {t : Float} {between : List (Call ω)}
    (valid : config.isValid = true) (at_stun : stunned.state.alarms.horizon = t)
    (begun : Begun agent config (·.isStunned) (Stunned (t + widen config.stunDuration)) stunned)
    (undisturbed : ∀ beat ∈ stunned.journal host between, ¬ beat.stuns)
    (later : Frame) (world : ω) :
    let release := t + widen config.stunDuration
    let clock := clockAfter (between ++ [.tick later world]) t
    (((stunned.run host between).settled host later world).1.state.isStunned = true ↔
        clock < release) ∧
      firings .recovered ((stunned.run host between).beats host (.tick later world)) =
        if release ≤ clock ∧ ∀ earlier ∈ tickClocks t between, earlier < release
          then [release] else [] := by
  intro release clock
  obtain ⟨stun_delay, -⟩ := accepted_delay valid .stunDuration
  have moment : IsMoment release :=
    moment_add (at_stun ▸ begun.regular.sound.horizon) stun_delay
  have wait := stun_wait host agent config moment
  have told := waits_iff_clock wait begun undisturbed later world
  have handled := firings_in_tick wait begun undisturbed later world
  rw [at_stun] at told handled
  exact ⟨told, handled⟩

end

/-- The timeline of a fresh brain. If a tick with clock `t` launches an attack,
then until the next launch the clock of a tick tells the phase at its
evaluation, and the hit test is handled once, in the first later tick that
reaches its time. If a request is accepted after a tick with clock `t`, then
until the next one is accepted the clock tells whether the enemy is stunned, and
the end of the stun is handled once, in the first tick that reaches its time. -/
theorem clock_tells_attacks_and_stuns {fresh : Brain α} (host : Host α τ ω)
    (created : Brain.create agent config = .ok fresh) (before between : List (Call ω))
    (frame later : Frame) (world world' : ω) :
    let b := fresh.run host before
    ((b.evaluation host frame world).launches host →
      let launched := (b.call host (.tick frame world)).1
      (∀ beat ∈ launched.journal host between, ¬ beat.launches host) →
      let t := clockAfter (before ++ [.tick frame world]) 0
      let hit := t + widen config.attackWindup
      let ready := hit + widen config.attackCooldown
      let clock := clockAfter (between ++ [.tick later world']) t
      OnSchedule ((launched.run host between).settled host later world').1.state clock hit ready ∧
        launched.state.alarms.dues .hit = [hit] ∧
        firings .hit ((launched.run host between).beats host (.tick later world')) =
          if hit ≤ clock ∧ ∀ earlier ∈ tickClocks t between, earlier < hit then [hit] else []) ∧
    ((b.requestStun host frame world).1 = true →
      let stunned := (b.call host (.stun frame world)).1
      (∀ beat ∈ stunned.journal host between, ¬ beat.stuns) →
      let t := clockAfter before 0
      let release := t + widen config.stunDuration
      let clock := clockAfter (between ++ [.tick later world']) t
      (((stunned.run host between).settled host later world').1.state.isStunned = true ↔
          clock < release) ∧
        firings .recovered ((stunned.run host between).beats host (.tick later world')) =
          if release ≤ clock ∧ ∀ earlier ∈ tickClocks t between, earlier < release
            then [release] else []) := by
  intro b
  obtain ⟨-, -, valid⟩ := create_regular created
  obtain ⟨armed, regular, caught, horizon⟩ := fresh_run host created before
  constructor
  · intro launches launched undisturbed t hit ready clock
    obtain ⟨now, begun⟩ := launch_begins armed regular caught launches ready
    have at_launch : launched.state.alarms.horizon = t := by
      rw [now, horizon]
      exact (clockAfter_append before [.tick frame world] 0).symm
    have at_hit : (Call.tick frame world).horizon b.state.alarms.horizon +
        Queue.effectiveDelay config.attackWindup = hit := by
      rw [← now, at_launch]
      exact congrArg (t + ·) (accepted_delay valid .attackWindup).2
    rw [at_hit] at begun
    exact attack_follows_clock valid at_launch begun undisturbed later world'
  · intro accepted stunned undisturbed t release clock
    obtain ⟨now, begun⟩ := stun_begins armed regular caught accepted
    have at_stun : stunned.state.alarms.horizon = t := now.trans horizon
    have at_release : b.state.alarms.horizon + Queue.effectiveDelay config.stunDuration =
        release := by
      rw [← now, at_stun]
      exact congrArg (t + ·) (accepted_delay valid .stunDuration).2
    rw [at_release] at begun
    exact stun_follows_clock valid at_stun begun undisturbed later world'

/-- A brain with default settings. -/
def recruit : Brain UInt64 where
  agent := 7
  config := {}
  decider := .ofTree (policy {})

theorem create_recruit : Brain.create 7 {} = .ok recruit := by
  have faultless : ({} : Config).fault? = none := by decide +kernel
  unfold Brain.create
  rw [faultless]
  rfl

/-- Half a second after a launch, and half a second into a stun. -/
theorem recruit_follows_clock :
    let launched := (recruit.call Sandbox.host (.tick ⟨0, 0.5, 0⟩ neighbours)).1
    let stunned := (recruit.call Sandbox.host (.stun ⟨0, 0.5, 0⟩ neighbours)).1
    (launched.settled Sandbox.host ⟨1, 0.5, 0⟩ neighbours).1.state.phase = .cooldown ∧
      (stunned.settled Sandbox.host ⟨1, 0.5, 0⟩ neighbours).1.state.isStunned = true := by
  have told := clock_tells_attacks_and_stuns Sandbox.host create_recruit [] []
    ⟨0, 0.5, 0⟩ ⟨1, 0.5, 0⟩ neighbours neighbours
  have launches : (recruit.evaluation Sandbox.host ⟨0, 0.5, 0⟩ neighbours).launches Sandbox.host :=
    ⟨rfl, by decide +kernel, by decide +kernel⟩
  have attack := (told.1 launches (by simp [Brain.journal])).1
  have stun := (told.2 (by decide +kernel) (by simp [Brain.journal])).1
  exact ⟨(attack.cooldown.mpr (by decide +kernel)).1, stun.mpr (by decide +kernel)⟩

end Sentry.Enemy
