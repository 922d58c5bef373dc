import Sentry.Enemy.Brain
import Sentry.Proofs.Enemy.Verdict

/-! What an enemy's acts do to the part of its state that attacks and stuns
run on. No answer of the host enters into it, so each effect is a function of
the state alone. -/
namespace Sentry.Enemy

variable {α τ ω : Type}

/-! ## The effects -/

/-- The state after an alarm. -/
def State.ring (config : Config) (alarm : Alarm) (s : State) : State :=
  match alarm with
  | .hit =>
    { s with
      canAttack := false, phase := .cooldown
      alarms := s.alarms.schedule config.attackCooldown .ready }
  | .ready => { s with canAttack := true, phase := .idle }
  | .recovered => { s with isStunned := false }

/-- The state after an attack has begun. -/
def State.launch (config : Config) (s : State) : State :=
  { s with phase := .windup, alarms := s.alarms.schedule config.attackWindup .hit }

/-- The state after a stun has been accepted. -/
def State.stun (config : Config) (s : State) : State :=
  { s with isStunned := true, alarms := s.alarms.schedule config.stunDuration .recovered }

/-- Two states differ in label, waypoint and facing at most. -/
structure Alike (s s' : State) : Prop where
  isStunned : s'.isStunned = s.isStunned
  canAttack : s'.canAttack = s.canAttack
  phase : s'.phase = s.phase
  alarms : s'.alarms = s.alarms

variable {s s' s'' : State}

theorem alike_refl (s : State) : Alike s s :=
  ⟨rfl, rfl, rfl, rfl⟩

theorem alike_trans (first : Alike s s') (second : Alike s' s'') : Alike s s'' :=
  ⟨second.isStunned.trans first.isStunned, second.canAttack.trans first.canAttack,
    second.phase.trans first.phase, second.alarms.trans first.alarms⟩

/-! ## Alarms and stuns -/

section
variable (host : Host α τ ω) (agent : α) (config : Config) (scene : Scene ω)

theorem ring_state (alarm : Alarm) :
    (scene.ring host agent config alarm).state = scene.state.ring config alarm := by
  cases alarm with
  | hit =>
    simp only [Scene.ring, State.ring, resolveHit_state]
  | ready => rfl
  | recovered => rfl

theorem requestStun_state : (scene.requestStun host agent config).1 = !scene.state.isStunned ∧
    (scene.requestStun host agent config).2.state =
      if scene.state.isStunned then scene.state else scene.state.stun config := by
  unfold Scene.requestStun
  cases scene.state.isStunned <;> exact ⟨rfl, rfl⟩

/-! ## Responses -/

theorem enter_alike (label : Label) : Alike scene.state (scene.enter host agent label).state := by
  rw [enter_eq]
  exact ⟨rfl, rfl, rfl, rfl⟩

theorem face_alike (direction : Vec) : Alike scene.state (scene.face direction).state := by
  rw [face_eq]
  exact ⟨rfl, rfl, rfl, rfl⟩

theorem chase_alike (speed : Float32) :
    Alike scene.state (scene.chase host agent speed).state := by
  unfold Scene.chase
  split
  · exact face_alike scene _
  · exact alike_refl scene.state

theorem patrol_alike (route : List Vec) (speed tolerance : Float32) :
    Alike scene.state (scene.patrol host agent route speed tolerance).state := by
  unfold Scene.patrol
  split
  · exact alike_refl scene.state
  next own _ =>
    dsimp only
    split
    · exact alike_refl scene.state
    next point _ =>
      have aimed := face_alike ⟨scene.world, { scene.state with
        waypoint := Scene.nextWaypoint route tolerance own scene.state.waypoint }⟩
        (own.toward point)
      exact ⟨aimed.isStunned, aimed.canAttack, aimed.phase, aimed.alarms⟩

private theorem launchAttack_alike {aimed : Scene ω} (same : Alike scene.state aimed.state) :
    Alike (if scene.state.phase = .idle then scene.state.launch config else scene.state)
      (aimed.launchAttack host agent config.attackWindup).state := by
  rw [launchAttack_eq, same.phase]
  split
  · refine ⟨same.isStunned, same.canAttack, rfl, ?_⟩
    exact congrArg (·.schedule config.attackWindup .hit) same.alarms
  · exact same

/-- An attack action begins an attack exactly if none is in flight. -/
theorem attack_alike :
    Alike (if scene.state.phase = .idle then scene.state.launch config else scene.state)
      (scene.attack host agent config.attackWindup).state := by
  unfold Scene.attack
  apply launchAttack_alike
  split
  · exact face_alike scene _
  · exact alike_refl scene.state

/-- A response leaves attacks and stuns alone, or it begins an attack. It does
so only if the enemy is not stunned, may attack, and has no attack in flight. -/
theorem respond_state : Alike scene.state (scene.respond host agent config).2.state ∨
    (scene.state.isStunned = false ∧ scene.state.canAttack = true ∧ scene.state.phase = .idle) ∧
      Alike (scene.state.launch config) (scene.respond host agent config).2.state := by
  unfold Scene.respond
  dsimp only
  split
  · exact .inl (enter_alike host agent scene .stunned)
  next awake =>
    split
    next reach =>
      have entered := enter_alike host agent scene .attack
      have attacked := attack_alike host agent config (scene.enter host agent .attack)
      rw [entered.phase] at attacked
      by_cases idle : scene.state.phase = .idle
      · right
        rw [if_pos idle] at attacked
        rw [Bool.and_eq_true] at reach
        refine ⟨⟨by simpa using awake, reach.2, idle⟩, alike_trans ?_ attacked⟩
        refine ⟨entered.isStunned, entered.canAttack, rfl, ?_⟩
        exact congrArg (·.schedule config.attackWindup .hit) entered.alarms
      · left
        rw [if_neg idle] at attacked
        exact alike_trans entered attacked
    next =>
      split
      · exact .inl (alike_trans (enter_alike host agent scene .chase) (chase_alike host agent _ _))
      · exact .inl (alike_trans (enter_alike host agent scene .patrol)
          (patrol_alike host agent _ _ _ _))

end

end Sentry.Enemy
