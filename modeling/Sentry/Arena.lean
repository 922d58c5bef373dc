import Sentry.Enemy.Brain
import Sentry.Enemy.ConfigFile

/-! The arena, a world without a screen. One enemy patrols; a player walks in, is
chased and attacked, and the enemy is stunned once. -/
namespace Sentry

open Enemy

/-- Something that moves. -/
structure Body where
  position : Vec := .zero
  velocity : Vec := .zero
  deriving DecidableEq

def Body.drift (body : Body) (dt : Float32) : Body :=
  { body with position := body.position + body.velocity * dt }

/-- One enemy and the player. -/
structure Arena where
  enemy : Body := {}
  player : Body
  health : UInt32
  deriving DecidableEq

namespace Arena

def enemyId : UInt64 := 1

def playerId : UInt32 := 100

def initial : Arena where
  player := { position := ⟨20, 0⟩, velocity := ⟨-1.5, 0⟩ }
  health := 50

/-- The player can be seen and hit as long as it has health left. -/
def playerAlive (arena : Arena) : Bool :=
  arena.health != 0

/-- Damage takes no more health than there is. -/
def hurt (arena : Arena) (amount : UInt32) : Arena :=
  { arena with health := if arena.health ≤ amount then 0 else arena.health - amount }

/-- The only target in an area is the player. -/
def find (area : AreaQuery) (arena : Arena) : Option UInt32 :=
  if area.layer.contains .player && arena.playerAlive &&
      arena.player.position.distance area.center ≤ area.radius
  then some playerId else none

/-- The arena after a command. Animations and sounds leave no trace. -/
def perform (command : Command UInt64 UInt32) (arena : Arena) : Arena :=
  match command with
  | .move agent direction speed =>
    if agent = enemyId then
      { arena with enemy := { arena.enemy with velocity := direction * speed } }
    else arena
  | .damage _ amount => arena.hurt amount
  | _ => arena

/-- What the enemy sees of the arena and does to it. -/
def host : Host UInt64 UInt32 Arena where
  position arena agent := if agent = enemyId then some arena.enemy.position else none
  targetPosition arena _ := if arena.playerAlive then some arena.player.position else none
  query area arena := (arena.find area, arena)
  perform := perform

def drift (arena : Arena) (dt : Float32) : Arena :=
  { arena with enemy := arena.enemy.drift dt, player := arena.player.drift dt }

/-- The player stops once it has reached the patrol route. -/
def halt (arena : Arena) : Arena :=
  if arena.player.position.x ≤ 2 then
    { arena with player := { arena.player with velocity := .zero } }
  else arena

/-- Number of the frame in which the enemy is stunned. -/
def stunTick : UInt64 := 400

def frames : Nat := 600

def step : Float32 := 1.0 / 30.0

/-- Settings of a run without a file. -/
def standard : Config :=
  { route := [⟨-4, 0⟩, ⟨4, 0⟩] }

/-- A run: the world, the enemy's brain, and the frame that comes next. -/
structure Run (ω : Type) where
  world : ω
  brain : Brain UInt64
  frame : Frame

namespace Run

def start (config : Config) : Except ConfigFault (Run Arena) :=
  (Brain.create enemyId config).map fun brain =>
    { world := initial
      brain := { brain with recorder := Trace.Recorder.withLog {} }
      frame := .fixedStep 0 Arena.step }

/-- One frame: perhaps a stun, the player's move, the enemy's decision, and the drift of all
bodies. -/
def step (run : Run Arena) : Run Arena :=
  let (brain, world) :=
    if run.frame.tick = stunTick then (run.brain.requestStun host run.frame run.world).2
    else (run.brain, run.world)
  let done := brain.tick host run.frame world.halt
  { world := done.around.drift run.frame.dt, brain := done.node, frame := run.frame.next }

def after (run : Run Arena) (count : Nat) : Run Arena :=
  count.repeat step run

def eventLine (event : Trace.Event) : String :=
  "[tick=" ++ toString event.tick.toNat ++ "] " ++ event.tag ++ " a=" ++ toString event.a.toNat
    ++ " b=" ++ toString event.b.toNat

/-- The lines that a run prints: its trace, and how it has ended. -/
def report (run : Run Arena) : List String :=
  ((run.brain.recorder.log.map (·.events)).getD []).map eventLine ++
    ["final: label=" ++ run.brain.state.label.name ++ " player_health="
      ++ toString run.world.health.toNat]

end Run

/-- The lines of a whole run, or what is wrong with its settings. -/
def report (config : Config) : Except ConfigFault (List String) :=
  (Run.start config).map fun run => (run.after frames).report

end Arena

end Sentry
