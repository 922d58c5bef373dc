import Sentry.Enemy.Config
import Sentry.Enemy.Host

/-! Attack and stun. Both run on timers and outside the decision tree: a launch or
a stun schedules an alarm, and when the alarm is due its effect is applied before
the tree is evaluated. Nothing ever cancels an alarm. -/
namespace Sentry.Enemy

/-- A world and the state of the enemy that acts in it. -/
structure Scene (ω : Type) where
  world : ω
  state : State

/-- Centre of the hit test for an enemy at a position. -/
def attackAnchor (config : Config) (position : Vec) (state : State) : Vec :=
  position + ⟨config.attackOffset.x * state.facing.sign, config.attackOffset.y⟩

namespace Scene

variable {α τ ω : Type}

def perform (host : Host α τ ω) (command : Command α τ) (scene : Scene ω) : Scene ω :=
  { scene with world := host.perform command scene.world }

def stop (host : Host α τ ω) (agent : α) (scene : Scene ω) : Scene ω :=
  scene.perform host (.stop agent)

/-- The enemy stands still, and begins an attack if none is in flight. -/
def launchAttack (host : Host α τ ω) (agent : α) (windup : Float32) (scene : Scene ω) : Scene ω :=
  let still := scene.stop host agent
  if still.state.phase = .idle then
    let shown := (still.perform host (.trigger agent .attack)).perform host (.sound agent .attack)
    { shown with
      state := { shown.state with
        phase := .windup
        alarms := shown.state.alarms.schedule windup .hit } }
  else still

/-- An enemy that is not stunned becomes so; the answer says whether it did. -/
def requestStun (host : Host α τ ω) (agent : α) (config : Config) (scene : Scene ω) :
    Bool × Scene ω :=
  if scene.state.isStunned then (false, scene)
  else
    let shown := (scene.stop host agent).perform host (.sound agent .stun)
    (true, { shown with
      state := { shown.state with
        isStunned := true
        alarms := shown.state.alarms.schedule config.stunDuration .recovered } })

/-- The hit test: at most one target is damaged. An enemy that is nowhere hits nothing. -/
def resolveHit (host : Host α τ ω) (agent : α) (config : Config) (scene : Scene ω) : Scene ω :=
  match host.position scene.world agent with
  | none => scene
  | some position =>
    let (found, world) := host.query
      ⟨attackAnchor config position scene.state, config.attackRadius, config.targetLayer⟩
      scene.world
    let asked := { scene with world }
    match found with
    | some target => asked.perform host (.damage target config.attackDamage)
    | none => asked

def ring (host : Host α τ ω) (agent : α) (config : Config) (alarm : Alarm) (scene : Scene ω) :
    Scene ω :=
  match alarm with
  | .hit =>
    let struck := scene.resolveHit host agent config
    { struck with
      state := { struck.state with
        canAttack := false
        phase := .cooldown
        alarms := struck.state.alarms.schedule config.attackCooldown .ready } }
  | .ready => { scene with state := { scene.state with canAttack := true, phase := .idle } }
  | .recovered => { scene with state := { scene.state with isStunned := false } }

end Scene

end Sentry.Enemy
