import Sentry.Proofs.Enemy.Accounting
import Sentry.Proofs.Enemy.Equipped
import Sentry.Proofs.Enemy.Records
import Sentry.Proofs.Number.Lengths

/-! Movement. Whatever places a host reports, an enemy asks only for movement that
a body can be put in: along a direction, at one of the speeds of its settings. -/
namespace Sentry.Enemy

variable {α τ ω : Type}

/-- A movement that a body can be put in. It is standing still, or it has one of
the speeds of the settings. -/
structure Config.Drives (config : Config) (direction : Vec) (speed : Float32) : Prop where
  along : direction.IsDirection
  pace : direction = Vec.zero ∧ speed = 0 ∨ speed = config.chaseSpeed ∨ speed = config.patrolSpeed
  finite : speed.isFinite = true
  nonneg : 0 ≤ speed

/-- All that is asked of a host about movement is about one agent, and can be done. -/
def Driven (agent : α) (config : Config) (requests : List (Request α τ)) : Prop :=
  ∀ who direction speed, .command (.move who direction speed) ∈ requests →
    who = agent ∧ config.Drives direction speed

section
variable {agent : α} {config : Config} {direction : Vec} {speed : Float32}

/-- A magnitude that has been accepted is a speed. -/
theorem magnitude_is_speed (accepted : config.fault? = none) (setting : Magnitude) :
    (setting.value config).isFinite = true ∧ 0 ≤ setting.value config := by
  have magnitude := ((Config.fault_eq_none_iff config).mp accepted).1 setting
  simp only [Config.isMagnitude, Bool.and_eq_true, Bool.not_eq_true',
    decide_eq_false_iff_not] at magnitude
  exact ⟨magnitude.1, nonneg_of_not_neg magnitude.1 magnitude.2⟩

theorem drives_still (config : Config) : config.Drives Vec.zero 0 :=
  ⟨zero_is_direction, .inl ⟨rfl, rfl⟩, by decide, by decide⟩

theorem drives_of_steers (accepted : config.fault? = none) (steers : config.Steers direction speed) :
    config.Drives direction speed := by
  rcases steers with chasing | patrolling
  · cases chasing with
    | still => exact drives_still config
    | toward own goal =>
      obtain ⟨finite, nonneg⟩ := magnitude_is_speed accepted .chaseSpeed
      exact ⟨unit_is_direction _, .inr (.inl rfl), finite, nonneg⟩
  · cases patrolling with
    | still => exact drives_still config
    | toward own goal =>
      obtain ⟨finite, nonneg⟩ := magnitude_is_speed accepted .patrolSpeed
      exact ⟨unit_is_direction _, .inr (.inr rfl), finite, nonneg⟩

theorem driven_append {first second : List (Request α τ)} (left : Driven agent config first)
    (right : Driven agent config second) : Driven agent config (first ++ second) := by
  intro who direction speed member
  rcases List.mem_append.mp member with early | late
  · exact left who direction speed early
  · exact right who direction speed late

theorem driven_strike (host : Host α τ ω) (agent : α) (config : Config) (state : State) (world : ω) :
    Driven agent config (strike host agent config state world) := by
  unfold strike Driven
  split
  · simp
  · dsimp only
    split <;> simp

/-- One movement after an announcement, and nothing else about movement. -/
theorem driven_commands {label old : Label} {others : List (Command α τ)}
    (drives : config.Drives direction speed)
    (shown : others = [] ∨ others = [.trigger agent .attack, .sound agent .attack]) :
    Driven agent config ((announce agent old label ++
      Command.move agent direction speed :: others).map Request.command) := by
  intro who direction' speed' member
  have moved : (.move who direction' speed' : Command α τ) = .move agent direction speed := by
    unfold announce at member
    rcases shown with rfl | rfl <;> split at member <;> simpa using member
  cases moved
  exact ⟨rfl, drives⟩

/-! ## A beat and a run -/

theorem beat_driven (host : Host α τ ω) (accepted : config.fault? = none) {beat : Beat α ω}
    (equipped : Equipped agent config beat.brain) :
    Driven agent config (beat.requests host) := by
  obtain ⟨cause, frame, b, world⟩ := beat
  cases cause with
  | alarm alarm =>
    by_cases strikes : alarm = .hit
    · subst strikes
      have hits := driven_strike host b.agent b.config b.state world
      rw [strike_requests, ← equipped.agent, ← equipped.config]
      exact hits
    · rw [other_alarm_requests host frame world strikes]
      simp [Driven]
  | evaluation =>
    obtain ⟨label, direction, speed, steers, told⟩ := evaluation_requests host frame world equipped
    have drives := drives_of_steers accepted steers
    rcases told with ⟨-, asked⟩ | ⟨-, asked⟩
    · rw [asked]
      exact driven_commands drives (.inl rfl)
    · rw [asked]
      exact driven_commands drives (.inr rfl)
  | stun =>
    rw [stun_requests]
    split
    · simp [Driven]
    · intro who direction speed member
      have moved : (.move who direction speed : Command α τ) = .stop b.agent := by
        simpa using member
      cases moved
      exact ⟨equipped.agent, drives_still config⟩

theorem driven_carried (host : Host α τ ω) (accepted : config.fault? = none) :
    Carried host agent config fun past _ =>
      Driven agent config (past.flatMap (Beat.requests host)) := by
  constructor
  case moves => exact fun past b alarms driven => driven
  case acts =>
    intro past b cause frame world equipped driven
    rw [List.flatMap_append, List.flatMap_singleton]
    exact driven_append driven (beat_driven host accepted equipped)

/-- Every movement of every run is well formed, whatever the state of the enemy
has been set to and whatever its host reports. So is every direction, of any
vector and between any two points. -/
theorem movement_is_well_formed {b : Brain α} (host : Host α τ ω)
    (accepted : config.fault? = none) (equipped : Equipped agent config b)
    (calls : List (Call ω)) :
    (∀ who direction speed,
      .command (.move who direction speed) ∈ (b.recordedRun host calls).2 →
        who = agent ∧ config.Drives direction speed) ∧
      (∀ v : Vec, v.unit.IsDirection) ∧ ∀ own goal : Vec, (own.toward goal).IsDirection := by
  refine ⟨?_, unit_is_direction, fun own goal => unit_is_direction (goal - own)⟩
  obtain ⟨driven, -⟩ := run_carries [] (driven_carried host accepted) equipped
    (by simp [Driven]) calls
  rw [recordedRun_eq]
  exact driven

end

/-- A target in sight, out of reach. -/
def meadow : Sandbox where
  positions := [(7, ⟨0, 0⟩)]
  targets := [(7, ⟨3, 4⟩)]

/-- A recruit that sees its target runs straight for it. -/
theorem recruit_runs :
    let direction : Vec := ⟨0.6, 0.8⟩
    .command (.move 7 direction recruit.config.chaseSpeed) ∈
        (recruit.recordedRun Sandbox.host [.tick ⟨0, 0.5, 0⟩ meadow]).2 ∧
      recruit.config.Drives direction recruit.config.chaseSpeed := by
  intro direction
  have accepted : recruit.config.fault? = none := by decide +kernel
  have equipped : Equipped 7 recruit.config recruit := create_equipped create_recruit
  have asked : .command (.move 7 direction recruit.config.chaseSpeed) ∈
      (recruit.recordedRun Sandbox.host [.tick ⟨0, 0.5, 0⟩ meadow]).2 := by decide +kernel
  obtain ⟨driven, -⟩ := movement_is_well_formed Sandbox.host accepted equipped
    [.tick ⟨0, 0.5, 0⟩ meadow]
  exact ⟨asked, (driven 7 direction recruit.config.chaseSpeed asked).2⟩

end Sentry.Enemy
