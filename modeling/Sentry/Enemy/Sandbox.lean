import Sentry.Enemy.Host

/-! The smallest world that answers everything an enemy asks: agents and targets
that move, and bodies that can be hit. -/
namespace Sentry.Enemy

/-- Vectors by number, the numbers rising. -/
abbrev Chart := List (UInt64 × Vec)

namespace Chart

def find? (chart : Chart) (id : UInt64) : Option Vec :=
  chart.lookup id

def set (id : UInt64) (vec : Vec) : Chart → Chart
  | [] => [(id, vec)]
  | (other, old) :: rest =>
    if id < other then (id, vec) :: (other, old) :: rest
    else if id = other then (id, vec) :: rest
    else (other, old) :: set id vec rest

def put (chart : Chart) (id : UInt64) : Option Vec → Chart
  | some vec => chart.set id vec
  | none => chart.filter (·.1 != id)

/-- The positions after some time at the velocities. What has no velocity stays. -/
def drift (positions velocities : Chart) (dt : Float32) : Chart :=
  positions.map fun (id, position) =>
    match velocities.find? id with
    | some velocity => (id, position + velocity * dt)
    | none => (id, position)

end Chart

structure Hittable where
  id : UInt64
  position : Vec
  layer : Faction
  health : UInt32
  deriving DecidableEq

structure Sandbox where
  positions : Chart := []
  velocities : Chart := []
  /-- Where the target of each agent is. -/
  targets : Chart := []
  targetVelocities : Chart := []
  /-- Bodies in the order in which queries look at them. -/
  hittables : List Hittable := []
  deriving DecidableEq

namespace Sandbox

/-- The first body in an area and on one of its layers. -/
def find (area : AreaQuery) (sandbox : Sandbox) : Option UInt64 :=
  (sandbox.hittables.find? fun body =>
    body.layer.intersects area.layer && body.position.distance area.center ≤ area.radius).map
      (·.id)

/-- Damage takes no more health than there is. -/
def hurt (amount : UInt32) (body : Hittable) : Hittable :=
  { body with health := if body.health ≤ amount then 0 else body.health - amount }

/-- The first body with a number is hurt. -/
def hurtFirst (id : UInt64) (amount : UInt32) : List Hittable → List Hittable
  | [] => []
  | body :: rest =>
    if body.id = id then hurt amount body :: rest else body :: hurtFirst id amount rest

/-- The world after a command. Bodies without health are removed when one is damaged. -/
def perform (command : Command UInt64 UInt64) (sandbox : Sandbox) : Sandbox :=
  match command with
  | .move agent direction speed =>
    { sandbox with velocities := sandbox.velocities.set agent (direction * speed) }
  | .damage target amount =>
    { sandbox with
      hittables := (hurtFirst target amount sandbox.hittables).filter (·.health != 0) }
  | _ => sandbox

/-- What enemies see of the world and do to it. -/
def host : Host UInt64 UInt64 Sandbox where
  position sandbox agent := sandbox.positions.find? agent
  targetPosition sandbox agent := sandbox.targets.find? agent
  query area sandbox := (sandbox.find area, sandbox)
  perform := perform

def drift (dt : Float32) (sandbox : Sandbox) : Sandbox :=
  { sandbox with
    positions := sandbox.positions.drift sandbox.velocities dt
    targets := sandbox.targets.drift sandbox.targetVelocities dt }

end Sandbox

end Sentry.Enemy
