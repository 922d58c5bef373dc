import Sentry.Enemy.Faction
import Sentry.Enemy.State
import Sentry.Vec

/-! Hosts. An enemy neither moves bodies nor draws nor plays sounds. It asks the
host where things are and tells it what should happen. The world behind the host
may be of any type. -/
namespace Sentry.Enemy

/-- What an animation or a sound is about. -/
inductive Cue where
  | attack
  | stun
  deriving DecidableEq, Inhabited

def Cue.name : Cue → String
  | .attack => "attack"
  | .stun => "stun"

/-- What an enemy tells the host to do. Agents have type `α` and whatever can be hit type `τ`. -/
inductive Command (α τ : Type) where
  /-- Drive an agent along a direction, at a speed in units per second. -/
  | move (agent : α) (direction : Vec) (speed : Float32)
  /-- Show that an agent does something new. -/
  | animate (agent : α) (label : Label)
  /-- Start a one-shot animation. -/
  | trigger (agent : α) (cue : Cue)
  /-- Play a sound. -/
  | sound (agent : α) (cue : Cue)
  /-- Damage what a query has found. -/
  | damage (target : τ) (amount : UInt32)
  deriving DecidableEq

/-- Standing still is moving nowhere at no speed. -/
def Command.stop {α τ : Type} (agent : α) : Command α τ :=
  .move agent Vec.zero 0

/-- A search for something to hit in a circle. -/
structure AreaQuery where
  center : Vec
  radius : Float32
  layer : Faction
  deriving DecidableEq

/-- A world of type `ω`, as seen by enemies. -/
structure Host (α τ ω : Type) where
  /-- Where an agent is, if it is in the world. -/
  position : ω → α → Option Vec
  /-- Where the target of an agent is, if it has one. -/
  targetPosition : ω → α → Option Vec
  /-- Something in an area that can be hit. The world may take note of being asked. -/
  query : AreaQuery → ω → Option τ × ω
  /-- The world after a command. -/
  perform : Command α τ → ω → ω

/-- What passes from an enemy to its host. -/
inductive Request (α τ : Type) where
  | command (command : Command α τ)
  | query (query : AreaQuery)
  deriving DecidableEq

namespace Host

variable {α τ ω : Type}

/-- The distance from an agent to its target; infinite if either is unknown. -/
def targetDistance (host : Host α τ ω) (agent : α) (world : ω) : Float32 :=
  match host.position world agent, host.targetPosition world agent with
  | some own, some target => own.distance target
  | _, _ => Float32.ofBits 0x7F800000

/-- The same host, keeping a list of all queries and commands in order. -/
def recorded (host : Host α τ ω) : Host α τ (ω × List (Request α τ)) where
  position world agent := host.position world.1 agent
  targetPosition world agent := host.targetPosition world.1 agent
  query area world :=
    let (found, after) := host.query area world.1
    (found, (after, world.2 ++ [.query area]))
  perform command world := (host.perform command world.1, world.2 ++ [.command command])

end Host

end Sentry.Enemy
