import Sentry.Enemy.Policy
import Sentry.Frame
import Sentry.Timer.Lemmas
import Sentry.Trace.Recorder

/-! A brain drives one enemy. In each frame it first handles every alarm that is
due, and then evaluates the decision tree once, so the tree never sees alarms half
handled. Only the alarm of a hit test brings a new one, and the alarm it brings
brings none, so handling them comes to an end. -/
namespace Sentry.Enemy

/-- What drives one enemy. -/
structure Brain (α : Type) where
  agent : α
  config : Config
  state : State := {}
  decider : Decider Leaf
  recorder : Trace.Recorder := {}

/-- How many alarms can be handled before the queue is empty, at most: every pending one, and one
more for each pending hit test. -/
def load (alarms : Timer.Queue Alarm) : Nat :=
  alarms.pending.length + (alarms.pending.map (·.event)).count .hit

namespace Brain

variable {α τ ω : Type}

/-- A brain for an agent, or the first violation in its settings. -/
def create (agent : α) (config : Config) : Except ConfigFault (Brain α) :=
  match config.fault? with
  | some fault => .error fault
  | none => .ok { agent, config, decider := .ofTree (policy config) }

def lastStatus (b : Brain α) : Option Status :=
  b.decider.last

def emit (b : Brain α) (event : Trace.Event) : Brain α :=
  { b with recorder := b.recorder.emit event }

/-- An alarm that has just been taken out of the queue is traced, and its effect applied. -/
def handle (host : Host α τ ω) (frame : Frame) (alarm : Alarm) (b : Brain α) (world : ω) :
    Brain α × ω :=
  let noted := b.emit { tick := frame.tick, tag := "enemy.timer", a := alarm.code }
  let scene := Scene.ring host b.agent b.config alarm ⟨world, b.state⟩
  ({ noted with state := scene.state }, scene.world)

def withAlarms (b : Brain α) (alarms : Timer.Queue Alarm) : Brain α :=
  { b with state := { b.state with alarms } }

end Brain

/-! ## The load falls with every alarm handled -/

theorem load_schedule_ready (alarms : Timer.Queue Alarm) (delay : Float32) :
    load (alarms.schedule delay .ready) = load alarms + 1 := by
  simp [load, Timer.Queue.schedule]
  omega

theorem load_popDue {alarms popped : Timer.Queue Alarm} {alarm : Alarm}
    (h : alarms.popDue = (some alarm, popped)) :
    load alarms = load popped + (if alarm = .hit then 2 else 1) := by
  obtain ⟨entry, rfl, -, perm, -⟩ := Timer.Queue.popDue_eq_some h
  have events := (perm.map (·.event)).count_eq .hit
  have size := perm.length_eq
  simp only [load, events, size, List.map_cons, List.length_cons, List.count_cons]
  cases entry.event <;> simp <;> omega

theorem resolveHit_state {α τ ω : Type} (host : Host α τ ω) (agent : α) (config : Config)
    (scene : Scene ω) : (scene.resolveHit host agent config).state = scene.state := by
  unfold Scene.resolveHit
  split
  · rfl
  · dsimp only
    split <;> rfl

theorem ring_alarms {α τ ω : Type} (host : Host α τ ω) (agent : α) (config : Config)
    (alarm : Alarm) (scene : Scene ω) :
    (scene.ring host agent config alarm).state.alarms =
      if alarm = .hit then scene.state.alarms.schedule config.attackCooldown .ready
      else scene.state.alarms := by
  cases alarm <;> simp [Scene.ring, resolveHit_state]

namespace Brain

variable {α τ ω : Type}

theorem load_handle (host : Host α τ ω) (frame : Frame) (b : Brain α) (world : ω)
    {alarm : Alarm} {popped : Timer.Queue Alarm}
    (h : b.state.alarms.popDue = (some alarm, popped)) :
    load ((b.withAlarms popped).handle host frame alarm world).1.state.alarms <
      load b.state.alarms := by
  simp only [handle, withAlarms, ring_alarms, load_popDue h]
  split
  · rw [load_schedule_ready]; omega
  · omega

/-- All alarms that are due are handled, the first one first. -/
def settle (host : Host α τ ω) (frame : Frame) (b : Brain α) (world : ω) : Brain α × ω :=
  match _popped : b.state.alarms.popDue with
  | (none, settled) => (b.withAlarms settled, world)
  | (some alarm, popped) =>
    let handled := (b.withAlarms popped).handle host frame alarm world
    settle host frame handled.1 handled.2
termination_by load b.state.alarms
decreasing_by exact load_handle host frame b world (by assumption)

/-- One evaluation of the tree. A change of label is traced. -/
def decide (host : Host α τ ω) (frame : Frame) (b : Brain α) (world : ω) :
    Outcome (Brain α) ω :=
  let done := b.decider.evaluate (Leaf.run host b.agent) ⟨world, b.state⟩
  let decided := { b with decider := done.node, state := done.around.state }
  let before := b.state.label
  let after := decided.state.label
  let traced :=
    if after = before then decided
    else decided.emit { tick := frame.tick, tag := "enemy.label", a := after.code, b := before.code }
  ⟨done.status, traced, done.around.world⟩

/-- One frame: the clock moves, due alarms are handled, and the tree is evaluated once. -/
def tick (host : Host α τ ω) (frame : Frame) (b : Brain α) (world : ω) : Outcome (Brain α) ω :=
  let (settled, after) :=
    (b.withAlarms (b.state.alarms.advance frame.dt)).settle host frame world
  settled.decide host frame after

/-- The enemy is stunned if it is not yet; the answer says whether it was stunned now. An attack in
flight goes on. -/
def requestStun (host : Host α τ ω) (frame : Frame) (b : Brain α) (world : ω) :
    Bool × Brain α × ω :=
  let (armed, scene) := Scene.requestStun host b.agent b.config ⟨world, b.state⟩
  let stunned := { b with state := scene.state }
  (armed,
    if armed then stunned.emit { tick := frame.tick, tag := "enemy.stun" } else stunned,
    scene.world)

end Brain

end Sentry.Enemy
