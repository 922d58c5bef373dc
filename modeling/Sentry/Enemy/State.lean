import Sentry.Timer.Queue
import Sentry.Json.Value

/-! What one enemy remembers between frames. Its decision tree and its timers
write it. The label is for observers, and no decision reads it. -/
namespace Sentry.Enemy

/-! ## Label -/

/-- What observers are told the enemy is doing. -/
inductive Label where
  | patrol
  | chase
  | attack
  | stunned
  | retreat
  deriving DecidableEq, Inhabited

namespace Label

def name : Label → String
  | .patrol => "Patrol"
  | .chase => "Chase"
  | .attack => "Attack"
  | .stunned => "Stunned"
  | .retreat => "Retreat"

def code : Label → UInt64
  | .patrol => 0
  | .chase => 1
  | .attack => 2
  | .stunned => 3
  | .retreat => 4

def ofName? : String → Option Label
  | "Patrol" => some .patrol
  | "Chase" => some .chase
  | "Attack" => some .attack
  | "Stunned" => some .stunned
  | "Retreat" => some .retreat
  | _ => none

theorem ofName?_name (label : Label) : ofName? label.name = some label := by
  cases label <;> rfl

/-- The label that a JSON value spells: its name as a string, or as the only name of an object, with
nothing in it. -/
def ofJson? : Json.Value → Option Label
  | .string (some name) => ofName? name
  | .object [(some name, .null)] => ofName? name
  | _ => none

def toJson (label : Label) : Json.Value :=
  .ofText label.name

end Label

/-! ## Facing -/

/-- The side an enemy looks to. -/
inductive Facing where
  | left
  | right
  deriving DecidableEq, Inhabited

namespace Facing

/-- Horizontal components up to this size are none. -/
def threshold : Float32 :=
  Float32.ofBits 0x34000000

/-- The side of a horizontal component; none if there is no such component to speak of. -/
def ofHorizontal? (dx : Float32) : Option Facing :=
  if threshold < dx then some .right else if dx < -threshold then some .left else none

def sign : Facing → Float32
  | .left => -1
  | .right => 1

def name : Facing → String
  | .left => "Left"
  | .right => "Right"

def ofName? : String → Option Facing
  | "Left" => some .left
  | "Right" => some .right
  | _ => none

end Facing

/-! ## Attack -/

/-- How far an attack is: none in flight, before its hit test, or after it. -/
inductive Phase where
  | idle
  | windup
  | cooldown
  deriving DecidableEq, Inhabited

namespace Phase

def name : Phase → String
  | .idle => "Idle"
  | .windup => "Windup"
  | .cooldown => "Cooldown"

def ofName? : String → Option Phase
  | "Idle" => some .idle
  | "Windup" => some .windup
  | "Cooldown" => some .cooldown
  | _ => none

end Phase

/-- What an enemy waits for. -/
inductive Alarm where
  /-- The windup is over: the hit test is due. -/
  | hit
  /-- The cooldown is over: attacks are allowed again. -/
  | ready
  /-- The stun is over. -/
  | recovered
  deriving DecidableEq, Inhabited

namespace Alarm

def code : Alarm → UInt64
  | .hit => 0
  | .ready => 1
  | .recovered => 2

def name : Alarm → String
  | .hit => "AttackHit"
  | .ready => "AttackReady"
  | .recovered => "StunOver"

end Alarm

/-! ## State -/

/-- What one enemy remembers between frames. -/
structure State where
  label : Label := .patrol
  isStunned : Bool := false
  /-- Cleared by a hit test, set again when the cooldown is over. -/
  canAttack : Bool := true
  /-- Index of the current waypoint; it may lie beyond the route and is then taken modulo its
  length. -/
  waypoint : Nat := 0
  facing : Facing := .right
  phase : Phase := .idle
  alarms : Timer.Queue Alarm := {}
  deriving DecidableEq

/-- An attack is in flight. -/
def State.isAttacking (s : State) : Bool :=
  s.phase != .idle

end Sentry.Enemy
