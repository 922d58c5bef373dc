import Sentry.Proofs.Enemy.Beats

/-! Which alarms are pending, and for when. Attack phase, stun and permission
to attack say it all: the alarm that ends a phase is pending exactly during that
phase, and no alarm is pending twice. -/
namespace Sentry.Enemy
open Timer

/-- The alarms that are pending are those that end the present phase and the
present stun, each once and at its time. -/
structure Armed (s : State) (hit ready release : Float) : Prop where
  windup : s.alarms.dues .hit = if s.phase = .windup then [hit] else []
  cooldown : s.alarms.dues .ready = if s.phase = .cooldown then [ready] else []
  stun : s.alarms.dues .recovered = if s.isStunned then [release] else []
  permission : s.canAttack = decide (s.phase ≠ .cooldown)

variable {s s' : State} {hit ready release : Float} {config : Config} {popped : Queue Alarm}
  {alarm : Alarm}

theorem armed_start (hit ready release : Float) : Armed {} hit ready release :=
  ⟨rfl, rfl, rfl, rfl⟩

theorem armed_alike (armed : Armed s hit ready release) (alike : Alike s s') :
    Armed s' hit ready release := by
  constructor
  · rw [alike.alarms, alike.phase]
    exact armed.windup
  · rw [alike.alarms, alike.phase]
    exact armed.cooldown
  · rw [alike.alarms, alike.isStunned]
    exact armed.stun
  · rw [alike.canAttack, alike.phase]
    exact armed.permission

theorem armed_few (armed : Armed s hit ready release) (alarm : Alarm) :
    (s.alarms.dues alarm).length ≤ 1 := by
  cases alarm with
  | hit =>
    rw [armed.windup]
    split <;> simp
  | ready =>
    rw [armed.cooldown]
    split <;> simp
  | recovered =>
    rw [armed.stun]
    split <;> simp

/-! ## What is scheduled -/

theorem armed_launch (armed : Armed s hit ready release) (idle : s.phase = .idle) :
    Armed (s.launch config) (s.alarms.now + Queue.effectiveDelay config.attackWindup)
      ready release := by
  constructor
  · have none_pending : s.alarms.dues .hit = [] := by simp [armed.windup, idle]
    simp [State.launch, Queue.dues_schedule, none_pending]
  · have none_pending : s.alarms.dues .ready = [] := by simp [armed.cooldown, idle]
    simp [State.launch, Queue.dues_schedule, none_pending]
  · have others : (s.launch config).alarms.dues .recovered = s.alarms.dues .recovered := by
      simp [State.launch, Queue.dues_schedule]
    exact others.trans armed.stun
  · simp [State.launch, armed.permission, idle]

theorem armed_stun (armed : Armed s hit ready release) (awake : s.isStunned = false) :
    Armed (s.stun config) hit ready
      (s.alarms.now + Queue.effectiveDelay config.stunDuration) := by
  have others : ∀ alarm ≠ .recovered, (s.stun config).alarms.dues alarm = s.alarms.dues alarm := by
    intro alarm differs
    simp [State.stun, Queue.dues_schedule, differs.symm]
  constructor
  · exact (others .hit (by simp)).trans armed.windup
  · exact (others .ready (by simp)).trans armed.cooldown
  · have none_pending : s.alarms.dues .recovered = [] := by simp [armed.stun, awake]
    simp [State.stun, Queue.dues_schedule, none_pending]
  · exact armed.permission

/-! ## What is popped -/

/-- The state in which an alarm that has been popped is handled. -/
def State.popping (s : State) (popped : Queue Alarm) : State :=
  { s with alarms := popped }

theorem armed_others (armed : Armed s hit ready release) (sound : Queue.Sound s.alarms)
    (pops : s.alarms.popDue = (some alarm, popped)) {other : Alarm} (differs : alarm ≠ other) :
    popped.dues other = s.alarms.dues other :=
  Queue.dues_popDue_other sound pops differs (armed_few armed other)

/-- A hit test comes at its time in the windup, and begins the cooldown. -/
theorem armed_hit (config : Config) (armed : Armed s hit ready release)
    (sound : Queue.Sound s.alarms) (pops : s.alarms.popDue = (some .hit, popped)) :
    (s.phase = .windup ∧ popped.now = hit) ∧
      Armed ((s.popping popped).ring config .hit) hit
        (hit + Queue.effectiveDelay config.attackCooldown) release := by
  have pending := Queue.dues_ne_nil_of_popDue sound pops
  rw [armed.windup] at pending
  have winding : s.phase = .windup := by
    by_contra other
    simp [other] at pending
  obtain ⟨now, gone⟩ := Queue.popDue_only sound pops (by rw [armed.windup, if_pos winding])
  have no_ready : popped.dues .ready = [] := by
    rw [armed_others armed sound pops (by simp), armed.cooldown, winding]
    rfl
  have stun : popped.dues .recovered = _ :=
    (armed_others armed sound pops (by simp)).trans armed.stun
  have others : (popped.schedule config.attackCooldown .ready).dues .recovered =
      popped.dues .recovered := by
    simp [Queue.dues_schedule]
  refine ⟨⟨winding, now⟩, ?_, ?_, others.trans stun, rfl⟩
  · simp [State.ring, State.popping, Queue.dues_schedule, gone]
  · simp [State.ring, State.popping, Queue.dues_schedule, no_ready, now]

/-- A cooldown ends at its time. -/
theorem armed_ready (config : Config) (armed : Armed s hit ready release)
    (sound : Queue.Sound s.alarms) (pops : s.alarms.popDue = (some .ready, popped)) :
    (s.phase = .cooldown ∧ popped.now = ready) ∧
      Armed ((s.popping popped).ring config .ready) hit ready release := by
  have pending := Queue.dues_ne_nil_of_popDue sound pops
  rw [armed.cooldown] at pending
  have cooling : s.phase = .cooldown := by
    by_contra other
    simp [other] at pending
  obtain ⟨now, gone⟩ := Queue.popDue_only sound pops (by rw [armed.cooldown, if_pos cooling])
  have no_hit : popped.dues .hit = [] := by
    rw [armed_others armed sound pops (by simp), armed.windup, cooling]
    rfl
  have stun : popped.dues .recovered = _ :=
    (armed_others armed sound pops (by simp)).trans armed.stun
  exact ⟨⟨cooling, now⟩, no_hit, gone, stun, rfl⟩

/-- A stun ends at its time. -/
theorem armed_recovered (config : Config) (armed : Armed s hit ready release)
    (sound : Queue.Sound s.alarms) (pops : s.alarms.popDue = (some .recovered, popped)) :
    (s.isStunned = true ∧ popped.now = release) ∧
      Armed ((s.popping popped).ring config .recovered) hit ready release := by
  have pending := Queue.dues_ne_nil_of_popDue sound pops
  rw [armed.stun] at pending
  have stunned : s.isStunned = true := by
    by_contra awake
    simp [awake] at pending
  obtain ⟨now, gone⟩ := Queue.popDue_only sound pops (by rw [armed.stun, if_pos stunned])
  have windup : popped.dues .hit = _ :=
    (armed_others armed sound pops (by simp)).trans armed.windup
  have cooldown : popped.dues .ready = _ :=
    (armed_others armed sound pops (by simp)).trans armed.cooldown
  exact ⟨⟨stunned, now⟩, windup, cooldown, gone, armed.permission⟩

/-- A movement of the clock leaves everything armed as it was. -/
theorem armed_moves (armed : Armed s hit ready release) {alarms : Queue Alarm}
    (same : alarms.pending = s.alarms.pending) :
    Armed (s.popping alarms) hit ready release := by
  have dues : ∀ alarm, alarms.dues alarm = s.alarms.dues alarm := by
    intro alarm
    rw [Queue.dues, same]
    rfl
  exact ⟨(dues .hit).trans armed.windup, (dues .ready).trans armed.cooldown,
    (dues .recovered).trans armed.stun, armed.permission⟩

/-- The state is armed for some times. -/
def State.isArmed (s : State) : Prop :=
  ∃ hit ready release, Armed s hit ready release

/-- Every beat leaves a brain armed. -/
theorem armed_kept {α τ ω : Type} (host : Host α τ ω) (agent : α) (config : Config) :
    Kept host agent config fun _ b => b.state.isArmed := by
  constructor
  case moves =>
    rintro past b alarms - ⟨hit, ready, release, armed⟩ - same -
    exact ⟨hit, ready, release, armed_moves armed same⟩
  case rings =>
    rintro past b popped alarm frame world regular ⟨hit, ready, release, armed⟩ pops
    have sound := Queue.popDue_sound regular.sound pops
    change (Beat.after host _).isArmed
    rw [alarm_after host frame world (regular_withAlarms regular sound)]
    cases alarm with
    | hit => exact ⟨_, _, _, (armed_hit config armed regular.sound pops).2⟩
    | ready => exact ⟨_, _, _, (armed_ready config armed regular.sound pops).2⟩
    | recovered => exact ⟨_, _, _, (armed_recovered config armed regular.sound pops).2⟩
  case decides =>
    rintro past b frame world regular ⟨hit, ready, release, armed⟩ -
    rcases evaluation_after host frame world regular with
      alike | ⟨⟨-, -, idle⟩, alike⟩
    · exact ⟨_, _, _, armed_alike armed alike⟩
    · exact ⟨_, _, _, armed_alike (armed_launch armed idle) alike⟩
  case stuns =>
    rintro past b frame world regular ⟨hit, ready, release, armed⟩ -
    change (Beat.after host _).isArmed
    rw [stun_after host frame world regular]
    cases awake : b.state.isStunned with
    | true => exact ⟨_, _, _, armed⟩
    | false => exact ⟨_, _, _, armed_stun armed awake⟩

end Sentry.Enemy
