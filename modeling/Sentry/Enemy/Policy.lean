import Sentry.Enemy.Combat
import Sentry.Tree.Band
import Sentry.Tree.Decider

/-! The decision tree of an enemy: a selector of four branches, the most urgent
first. The enemy holds still while stunned, attacks a target in reach, chases a
target in sight, or walks its patrol route. The last branch has no guard, so the
tree never fails. Guards are tested anew in every frame. -/
namespace Sentry.Enemy

/-- A test or an action. -/
inductive Leaf where
  /-- The enemy is stunned. -/
  | isStunned
  /-- The cooldown of the last attack is over. -/
  | canAttack
  /-- The distance to the target lies in a band. -/
  | targetWithin (band : Band)
  /-- Hold still. -/
  | endure
  /-- Attack, with a given windup. -/
  | attack (windup : Float32)
  /-- Run after the target, at a given speed. -/
  | chase (speed : Float32)
  /-- Walk along a route. -/
  | patrol (route : List Vec) (speed tolerance : Float32)
  deriving DecidableEq

namespace Scene

variable {α τ ω : Type}

/-- The label is set. Observers are told if it is a new one. -/
def enter (host : Host α τ ω) (agent : α) (label : Label) (scene : Scene ω) : Scene ω :=
  let labelled := { scene with state := { scene.state with label } }
  if scene.state.label = label then labelled
  else labelled.perform host (.animate agent label)

/-- The enemy looks along a direction, or as before if the direction is vertical. -/
def face (direction : Vec) (scene : Scene ω) : Scene ω :=
  match Facing.ofHorizontal? direction.x with
  | some facing => { scene with state := { scene.state with facing } }
  | none => scene

/-- The enemy looks along a direction and moves along it. -/
def go (host : Host α τ ω) (agent : α) (direction : Vec) (speed : Float32) (scene : Scene ω) :
    Scene ω :=
  (scene.face direction).perform host (.move agent direction speed)

/-- The enemy looks at its target if both can be seen, and attacks. -/
def attack (host : Host α τ ω) (agent : α) (windup : Float32) (scene : Scene ω) : Scene ω :=
  let turned :=
    match host.position scene.world agent, host.targetPosition scene.world agent with
    | some own, some target => scene.face (target - own)
    | _, _ => scene
  turned.launchAttack host agent windup

/-- The enemy runs toward its target, or stands still if either cannot be seen. -/
def chase (host : Host α τ ω) (agent : α) (speed : Float32) (scene : Scene ω) : Scene ω :=
  match host.position scene.world agent, host.targetPosition scene.world agent with
  | some own, some target => scene.go host agent (own.toward target) speed
  | _, _ => scene.stop host agent

/-- The index of the waypoint to walk to: the current one, or the one after it if the enemy has
come near enough. Indices wrap around the route. -/
def nextWaypoint (route : List Vec) (tolerance : Float32) (own : Vec) (index : Nat) : Nat :=
  let current := index % route.length
  match route[current]? with
  | some point => if own.distance point ≤ tolerance then (current + 1) % route.length else current
  | none => current

/-- The enemy walks to its waypoint, or stands still if it is nowhere or has no route. -/
def patrol (host : Host α τ ω) (agent : α) (route : List Vec) (speed tolerance : Float32)
    (scene : Scene ω) : Scene ω :=
  match host.position scene.world agent with
  | none => scene.stop host agent
  | some own =>
    let index := nextWaypoint route tolerance own scene.state.waypoint
    match route[index]? with
    | none => scene.stop host agent
    | some point =>
      let aimed := { scene with state := { scene.state with waypoint := index } }
      aimed.go host agent (own.toward point) speed

end Scene

/-- What tests and actions do for an agent. Tests change nothing. -/
def Leaf.run {α τ ω : Type} (host : Host α τ ω) (agent : α) : Runner Leaf (Scene ω) :=
  fun leaf scene =>
    match leaf with
    | .isStunned => ⟨.ofBool scene.state.isStunned, leaf, scene⟩
    | .canAttack => ⟨.ofBool scene.state.canAttack, leaf, scene⟩
    | .targetWithin band =>
      ⟨.ofBool (band.contains (host.targetDistance agent scene.world)), leaf, scene⟩
    | .endure => ⟨.running, leaf, (scene.enter host agent .stunned).stop host agent⟩
    | .attack windup => ⟨.success, leaf, (scene.enter host agent .attack).attack host agent windup⟩
    | .chase speed => ⟨.running, leaf, (scene.enter host agent .chase).chase host agent speed⟩
    | .patrol route speed tolerance =>
      ⟨.running, leaf, (scene.enter host agent .patrol).patrol host agent route speed tolerance⟩

/-! ## Branches -/

def stunnedBranch : Tree Leaf :=
  .composite .sequence [.leaf .isStunned, .leaf .endure]

def attackBranch (range windup : Float32) : Tree Leaf :=
  .composite .sequence [.leaf (.targetWithin ⟨0, range⟩), .leaf .canAttack, .leaf (.attack windup)]

def chaseBranch (range speed : Float32) : Tree Leaf :=
  .composite .sequence [.leaf (.targetWithin ⟨0, range⟩), .leaf (.chase speed)]

def patrolBranch (route : List Vec) (speed tolerance : Float32) : Tree Leaf :=
  .composite .sequence [.leaf (.patrol route speed tolerance)]

def policy (config : Config) : Tree Leaf :=
  .composite .selector
    [stunnedBranch,
      attackBranch config.attackRange config.attackWindup,
      chaseBranch config.detectionRange config.chaseSpeed,
      patrolBranch config.route config.patrolSpeed config.waypointTolerance]

end Sentry.Enemy
