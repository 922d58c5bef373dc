import Sentry.Proofs.Enemy.Peers
import Sentry.Proofs.Enemy.Requests

/-! What enemies uphold. A property of worlds that is kept by commands about an
enemy and by its hit tests holds throughout every script whose changes keep it.
Worlds may have notes beside them, such as all requests with the worlds they were
made in, so this also says when an enemy asks for something. -/
namespace Sentry.Enemy

variable {α τ ω : Type}

/-! ## Watched hosts -/

/-- The same host, keeping a list of all queries and commands in order, each with
the world in which it was made. -/
def Host.watched (host : Host α τ ω) : Host α τ (ω × List (Request α τ × ω)) where
  position world agent := host.position world.1 agent
  targetPosition world agent := host.targetPosition world.1 agent
  query area world :=
    let (found, after) := host.query area world.1
    (found, (after, world.2 ++ [(.query area, world.1)]))
  perform command world :=
    (host.perform command world.1, world.2 ++ [(.command command, world.1)])

/-- A watched host mirrors the host that is watched. -/
theorem watched_mirrors (host : Host α τ ω) : Mirrors host.watched host Prod.fst :=
  ⟨fun _ _ => rfl, fun _ _ => rfl, fun _ _ => rfl, fun _ _ => rfl⟩

/-! ## Upkeep -/

/-- Commands about an enemy keep a property of worlds, and so do its hit tests. -/
structure Upheld (host : Host α τ ω) (agent : α) (config : Config) (good : ω → Prop) : Prop where
  directs : ∀ {command world}, command.agent? = some agent → good world →
    good (host.perform command world)
  strikes : ∀ {world} (state : State), good world →
    good (Scene.resolveHit host agent config ⟨world, state⟩).world

section
variable {host : Host α τ ω} {agent : α} {config : Config} {good : ω → Prop} {b : Brain α}
  {world : ω}

theorem upheld_directs (upheld : Upheld host agent config good) {after : ω}
    (directs : host.Directs agent world after) (start : good world) : good after := by
  obtain ⟨commands, rfl, named⟩ := directs
  induction commands generalizing world with
  | nil => exact start
  | cons first rest ih =>
    rw [List.forall_mem_cons] at named
    exact ih (upheld.directs named.1 start) named.2

theorem upheld_handle (upheld : Upheld host agent config good) (is_agent : b.agent = agent)
    (has_config : b.config = config) (frame : Frame) (alarm : Alarm) (start : good world) :
    good (b.handle host frame alarm world).2 := by
  subst is_agent has_config
  cases alarm with
  | hit => exact upheld.strikes b.state start
  | ready => exact start
  | recovered => exact start

theorem upheld_settle (upheld : Upheld host agent config good) (is_agent : b.agent = agent)
    (has_config : b.config = config) (frame : Frame) (start : good world) :
    good (b.settle host frame world).2 := by
  fun_induction Brain.trail host frame b world with
  | case1 b world quiet pops =>
    rw [settle_quiet pops]
    exact start
  | case2 b world alarm popped pops ih =>
    have handled : good ((b.withAlarms popped).handle host frame alarm world).2 :=
      upheld_handle (b := b.withAlarms popped) upheld is_agent has_config frame alarm start
    rw [settle_rings pops]
    exact ih is_agent has_config handled

/-- A tick upholds the property, and so do the alarms before its evaluation. -/
theorem upheld_tick (upheld : Upheld host agent config good) (is_agent : b.agent = agent)
    (has_config : b.config = config) (frame : Frame) (start : good world) :
    good (b.settled host frame world).2 ∧ good (b.tick host frame world).around := by
  have settled : good (b.settled host frame world).2 :=
    upheld_settle (b := b.woken frame) upheld is_agent has_config frame start
  obtain ⟨-, same_agent, -, -⟩ := settle_spares host frame (b.woken frame) world
  have named : (b.settled host frame world).1.agent = agent := same_agent.trans is_agent
  have directs := decide_directs host frame (b.settled host frame world).1
    (b.settled host frame world).2
  rw [named] at directs
  exact ⟨settled, upheld_directs upheld directs settled⟩

theorem upheld_stun (upheld : Upheld host agent config good) (is_agent : b.agent = agent)
    (frame : Frame) (start : good world) : good (b.requestStun host frame world).2.2 := by
  subst is_agent
  cases stunned : b.state.isStunned with
  | true => simpa [Brain.requestStun, Scene.requestStun, stunned] using start
  | false =>
    have stopped : good (host.perform (.stop b.agent) world) := upheld.directs rfl start
    have sounded : good (host.perform (.sound b.agent .stun) _) := upheld.directs rfl stopped
    simpa [Brain.requestStun, Scene.requestStun, stunned, Scene.stop, Scene.perform] using sounded

theorem call_spares (host : Host α τ ω) (b : Brain α) (call : Call ω) :
    (b.call host call).1.agent = b.agent ∧ (b.call host call).1.config = b.config := by
  cases call with
  | tick frame world =>
    have settled := (settle_spares host frame (b.woken frame) world).2.2.1
    have decided : (b.call host (.tick frame world)).1.config =
        (b.settled host frame world).1.config := by
      unfold Brain.call Brain.tick Brain.decide
      dsimp only
      split <;> rfl
    exact ⟨tick_agent host frame b world, decided.trans settled⟩
  | stun frame world =>
    unfold Brain.call Brain.requestStun
    dsimp only
    constructor <;> split <;> rfl

/-- A script upholds what each of its changes keeps. -/
theorem upheld_play (upheld : Upheld host agent config good) {script : List (Step ω)}
    (changes : ∀ effect, .change effect ∈ script → ∀ {world}, good world → good (effect world))
    {stage : Stage α ω} (is_agent : stage.brain.agent = agent)
    (has_config : stage.brain.config = config) (start : good stage.world) :
    good (stage.play host script).2.world := by
  induction script generalizing stage with
  | nil => exact start
  | cons step rest ih =>
    have later : ∀ effect, .change effect ∈ rest → ∀ {world}, good world → good (effect world) :=
      fun effect member => changes effect (List.mem_cons_of_mem step member)
    cases step with
    | tick frame =>
      obtain ⟨same_agent, same_config⟩ := call_spares host stage.brain (.tick frame stage.world)
      exact ih later (same_agent.trans is_agent) (same_config.trans has_config)
        (upheld_tick upheld is_agent has_config frame start).2
    | stun frame =>
      obtain ⟨same_agent, same_config⟩ := call_spares host stage.brain (.stun frame stage.world)
      exact ih later (same_agent.trans is_agent) (same_config.trans has_config)
        (upheld_stun upheld is_agent frame start)
    | change effect =>
      exact ih later is_agent has_config (changes effect List.mem_cons_self start)

end

end Sentry.Enemy
