import Sentry.Proofs.Enemy.Route
import Sentry.Proofs.Number.Directions

/-! How an enemy goes to a waypoint it has not reached. Two bounds have a say:
the tolerance decides whether the waypoint is near, and the shortest length
whether there is a direction to it. Between them, and where the distance runs
off the format, the enemy is told to walk and stays where it is. -/
namespace Sentry.Enemy

variable {α τ ω : Type} {agent : α} {config : Config} {b : Brain α}

/-- The approach to a waypoint that is not near, for a brain whose state a host
may have set to anything. The tick keeps the waypoint and moves toward it. There
is a direction unless the distance is too short to have one or no finite number,
so with a tolerance that is not too short itself only such a distance is left. -/
theorem far_waypoint_is_approached (host : Host α τ ω) (equipped : Equipped agent config b)
    (frame : Frame) (world : ω) {own point : Vec}
    (walks : (b.evaluation host frame world).walksFrom? host = some own)
    (aims : config.route[b.state.waypoint % config.route.length]? = some point)
    (far : ¬ own.distance point ≤ config.waypointTolerance) :
    let beat := b.evaluation host frame world
    let direction := own.toward point
    (b.call host (.tick frame world)).1.state = beat.after host ∧
      (beat.after host).waypoint = b.state.waypoint % config.route.length ∧
      beat.requests host = (announce agent beat.brain.state.label .patrol ++
        [Command.move agent direction config.patrolSpeed]).map Request.command ∧
      (direction.agrees Vec.zero = true ↔
        own.distance point ≤ Vec.shortest ∨ (own.distance point).isFinite = false) ∧
      (Vec.shortest ≤ config.waypointTolerance → (own.distance point).isFinite = true →
        direction.agrees Vec.zero = false) := by
  intro beat direction
  obtain ⟨same, ready⟩ := settled_waypoint host equipped frame world
  have strides : Strides host agent config b.state.waypoint beat := by
    have evaluated := evaluation_strides host frame (b.settled host frame world).2 ready
    rwa [same] at evaluated
  obtain ⟨current, goal, at_current, at_goal, turns, asked⟩ := strides.walks own walks
  obtain rfl : point = current := by
    rw [aims] at at_current
    exact Option.some.inj at_current
  rw [if_neg far] at turns
  rw [heading_eq] at asked
  obtain rfl : point = goal := by
    rw [turns, aims] at at_goal
    exact Option.some.inj at_goal
  refine ⟨rfl, turns, asked, unit_vanishes_iff _, ?_⟩
  intro long finite
  exact unit_present long finite far

/-- Off its post the walker sees its first point at a distance. -/
def astray : Sandbox where
  positions := [(7, ⟨0, 0⟩)]

/-- The walker goes back to its first point. -/
theorem walker_returns :
    let beat := walker.evaluation Sandbox.host ⟨0, 0.5, 0⟩ astray
    beat.walksFrom? Sandbox.host = some ⟨0, 0⟩ ∧ (beat.after Sandbox.host).waypoint = 0 ∧
      ((Vec.mk 0 0).toward ⟨3, 0⟩).agrees Vec.zero = false := by
  have equipped : Equipped 7 walker.config walker := ⟨rfl, rfl, rfl⟩
  have walks : (walker.evaluation Sandbox.host ⟨0, 0.5, 0⟩ astray).walksFrom? Sandbox.host =
      some ⟨0, 0⟩ := by decide +kernel
  obtain ⟨-, kept, -, -, present⟩ := far_waypoint_is_approached Sandbox.host equipped ⟨0, 0.5, 0⟩
    astray walks rfl (by decide +kernel)
  exact ⟨walks, kept, present (by decide +kernel) (by decide +kernel)⟩

/-- A tick in which an enemy walks to a waypoint beyond its tolerance, and is
told to go nowhere. -/
structure Stalls (host : Host α τ ω) (b : Brain α) (frame : Frame) (world : ω) (own point : Vec) :
    Prop where
  accepted : b.config.fault? = none
  walks : (b.evaluation host frame world).walksFrom? host = some own
  finite : own.isFinite = true
  aims : b.config.route[b.state.waypoint % b.config.route.length]? = some point
  beyond : b.config.waypointTolerance < own.distance point
  keeps : ((b.evaluation host frame world).after host).waypoint =
    b.state.waypoint % b.config.route.length
  nowhere : ((b.evaluation host frame world).requests host).getLast? =
    some (.command (.move b.agent Vec.zero b.config.patrolSpeed))

/-- A recruit with one point to walk to. -/
def pilgrim (waypointTolerance : Float32) (point : Vec) : Brain UInt64 :=
  let config := { waypointTolerance, route := [point] }
  { agent := 7, config, decider := .ofTree (policy config) }

/-- A recruit stalls before a point that is not near but closer than the shortest
length, and before one so far away that the square of the distance is infinite. -/
theorem pilgrims_stall :
    Stalls Sandbox.host (pilgrim 1e-10 ⟨1e-8, 0⟩) ⟨0, 0.5, 0⟩ astray ⟨0, 0⟩ ⟨1e-8, 0⟩ ∧
      Stalls Sandbox.host (pilgrim 0.5 ⟨1e20, 0⟩) ⟨0, 0.5, 0⟩ astray ⟨0, 0⟩ ⟨1e20, 0⟩ := by
  constructor <;> constructor <;> decide +kernel

end Sentry.Enemy
