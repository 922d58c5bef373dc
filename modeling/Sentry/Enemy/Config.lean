import Sentry.Decimal.Layout
import Sentry.Enemy.Faction
import Sentry.Vec

/-! The tuning of an enemy. One record of ranges, speeds and durations stands for
a kind of enemy, and a test sees to it that no enemy is driven with values that
make no sense. -/
namespace Sentry.Enemy

/-- Tuning for one kind of enemy. -/
structure Config where
  /-- Upper bound of the attack band. -/
  attackRange : Float32 := 1.5
  /-- Upper bound of the chase band. -/
  detectionRange : Float32 := 8
  patrolSpeed : Float32 := 2
  chaseSpeed : Float32 := 3.5
  /-- Distance at which a waypoint counts as reached. -/
  waypointTolerance : Float32 := 0.5
  /-- Time from the launch of an attack to its hit test. -/
  attackWindup : Float32 := 0.4
  /-- Time from a hit test until attacks are allowed again. -/
  attackCooldown : Float32 := 1
  attackDamage : UInt32 := 10
  /-- Radius of the hit test. -/
  attackRadius : Float32 := 0.6
  /-- Centre of the hit test relative to an enemy that looks to the right. -/
  attackOffset : Vec := ⟨0.8, 0⟩
  stunDuration : Float32 := 1.5
  /-- What the hit test looks for. -/
  targetLayer : Faction := .player
  /-- Waypoints, visited in order and then again from the first. -/
  route : List Vec := []
  deriving DecidableEq

/-- The settings that may be zero but neither negative nor infinite. -/
inductive Magnitude where
  | attackRange
  | detectionRange
  | patrolSpeed
  | chaseSpeed
  | attackWindup
  | attackCooldown
  | attackRadius
  | stunDuration
  deriving DecidableEq

namespace Magnitude

/-- All of them, in the order in which they are tested. -/
def all : List Magnitude :=
  [.attackRange, .detectionRange, .patrolSpeed, .chaseSpeed, .attackWindup, .attackCooldown,
    .attackRadius, .stunDuration]

def key : Magnitude → String
  | .attackRange => "attack_range"
  | .detectionRange => "detection_range"
  | .patrolSpeed => "patrol_speed"
  | .chaseSpeed => "chase_speed"
  | .attackWindup => "attack_windup_seconds"
  | .attackCooldown => "attack_cooldown_seconds"
  | .attackRadius => "attack_radius"
  | .stunDuration => "stun_seconds"

def value (config : Config) : Magnitude → Float32
  | .attackRange => config.attackRange
  | .detectionRange => config.detectionRange
  | .patrolSpeed => config.patrolSpeed
  | .chaseSpeed => config.chaseSpeed
  | .attackWindup => config.attackWindup
  | .attackCooldown => config.attackCooldown
  | .attackRadius => config.attackRadius
  | .stunDuration => config.stunDuration

end Magnitude

/-- A violation. -/
inductive ConfigFault where
  /-- A setting is negative or not finite. -/
  | magnitude (setting : Magnitude) (value : Float32)
  /-- The tolerance is not positive or not finite. -/
  | tolerance (value : Float32)
  /-- The attack offset is not finite. -/
  | offset
  /-- A waypoint is not finite. -/
  | waypoint (index : Nat)
  deriving DecidableEq

namespace ConfigFault

/-- Numbers in messages have no exponent, whole ones no point, and the larger of two equally near
decimals is taken. -/
def layout : Layout where
  above := none
  upTo := none
  keepsPoint := false
  tie := .up
  nan := "NaN"
  infinity := "inf"

def message : ConfigFault → String
  | .magnitude setting value =>
    setting.key ++ " must be finite and non-negative (got " ++ layout.single value ++ ")"
  | .tolerance value =>
    "waypoint_tolerance must be positive (got " ++ layout.single value ++ ")"
  | .offset => "attack_offset must be finite"
  | .waypoint index => "patrol point " ++ toString index ++ " is not finite"

end ConfigFault

namespace Config

/-- A setting is neither negative nor infinite nor a NaN; a negative zero is a zero. -/
def isMagnitude (value : Float32) : Bool :=
  value.isFinite && !(value < 0)

/-- A tolerance is positive and finite. -/
def isTolerance (value : Float32) : Bool :=
  value.isFinite && !(value ≤ 0)

/-- The first violation among the magnitudes. -/
def magnitudeFault? (config : Config) : Option ConfigFault :=
  (Magnitude.all.find? fun setting => !isMagnitude (setting.value config)).map fun setting =>
    .magnitude setting (setting.value config)

/-- The first violation: of a magnitude, of the tolerance, of the offset, or of the route. -/
def fault? (config : Config) : Option ConfigFault :=
  config.magnitudeFault? <|>
  (if isTolerance config.waypointTolerance then none
    else some (.tolerance config.waypointTolerance)) <|>
  (if config.attackOffset.isFinite then none else some .offset) <|>
  (config.route.findIdx? fun point => !point.isFinite).map .waypoint

def isValid (config : Config) : Bool :=
  config.fault?.isNone

/-- All settings are equal as numbers. -/
def agrees (a b : Config) : Bool :=
  Magnitude.all.all (fun setting => setting.value a == setting.value b) &&
  a.waypointTolerance == b.waypointTolerance &&
  a.attackDamage == b.attackDamage &&
  a.attackOffset.agrees b.attackOffset &&
  a.targetLayer == b.targetLayer &&
  a.route.length == b.route.length &&
  (a.route.zip b.route).all fun pair => pair.1.agrees pair.2

end Config

end Sentry.Enemy
