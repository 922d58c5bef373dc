import Sentry.Proofs.Enemy.Beats

/-! Settling the alarms of a frame. Only a hit test schedules another alarm, and
that alarm schedules none, so each round of the loop takes one from the load of
the queue, whatever is pending and however short the delays are. -/
namespace Sentry.Enemy
open Timer

variable {α τ ω : Type}

/-- The loop that handles what is due. In each round an alarm is popped and
handled, and the loop ends when none is due. The number counts the rounds. -/
inductive Settles (host : Host α τ ω) (frame : Frame) : Nat → Brain α × ω → Brain α × ω → Prop where
  | quiet {b settled world} (pops : b.state.alarms.popDue = (none, settled)) :
    Settles host frame 0 (b, world) (b.withAlarms settled, world)
  | rings {rounds b alarm popped world ready}
    (pops : b.state.alarms.popDue = (some alarm, popped))
    (later : Settles host frame rounds ((b.withAlarms popped).handle host frame alarm world) ready) :
    Settles host frame (rounds + 1) (b, world) ready

/-! ## One round -/

section
variable (host : Host α τ ω) (frame : Frame) {b : Brain α} (world : ω) {alarm : Alarm}
  {popped : Queue Alarm}

theorem handle_alarms : ((b.withAlarms popped).handle host frame alarm world).1.state.alarms =
    if alarm = .hit then popped.schedule b.config.attackCooldown .ready else popped :=
  ring_alarms host b.agent b.config alarm ⟨world, (b.withAlarms popped).state⟩

/-- A round takes one from the load. -/
theorem load_rings (pops : b.state.alarms.popDue = (some alarm, popped)) :
    load ((b.withAlarms popped).handle host frame alarm world).1.state.alarms + 1 =
      load b.state.alarms := by
  rw [handle_alarms, load_popDue pops]
  split
  · rw [load_schedule_ready]
  · rfl

theorem horizon_rings (pops : b.state.alarms.popDue = (some alarm, popped)) :
    ((b.withAlarms popped).handle host frame alarm world).1.state.alarms.horizon =
      b.state.alarms.horizon := by
  obtain ⟨_, -, -, -, shape⟩ := Queue.popDue_eq_some pops
  have kept : popped.horizon = b.state.alarms.horizon := by rw [shape]
  rw [handle_alarms]
  split
  · exact kept
  · exact kept

end

/-! ## The loop -/

section
variable {host : Host α τ ω} {frame : Frame} {start ready ready' : Brain α × ω}
  {rounds rounds' : Nat}

theorem settles_load (settles : Settles host frame rounds start ready) :
    rounds + load ready.1.state.alarms = load start.1.state.alarms := by
  induction settles with
  | @quiet b settled world pops =>
    obtain ⟨rfl, -⟩ := Queue.popDue_settled pops
    exact Nat.zero_add _
  | @rings rounds b alarm popped world ready pops later ih =>
    have falls := load_rings host frame world pops
    dsimp only
    omega

/-- The loop ends with nothing due, at the horizon it began with. -/
theorem settles_settled (settles : Settles host frame rounds start ready) :
    Queue.Settled ready.1.state.alarms ∧
      ready.1.state.alarms.horizon = start.1.state.alarms.horizon := by
  induction settles with
  | quiet pops =>
    obtain ⟨rfl, settled⟩ := Queue.popDue_settled pops
    exact ⟨settled, rfl⟩
  | @rings rounds b alarm popped world ready pops later ih =>
    exact ⟨ih.1, ih.2.trans (horizon_rings host frame world pops)⟩

theorem settles_unique (settles : Settles host frame rounds start ready)
    (settles' : Settles host frame rounds' start ready') : rounds' = rounds ∧ ready' = ready := by
  induction settles generalizing rounds' with
  | quiet pops =>
    cases settles' with
    | quiet pops' =>
      rw [pops] at pops'
      cases pops'
      exact ⟨rfl, rfl⟩
    | rings pops' later' =>
      rw [pops] at pops'
      cases pops'
  | rings pops later ih =>
    cases settles' with
    | quiet pops' =>
      rw [pops] at pops'
      cases pops'
    | rings pops' later' =>
      rw [pops] at pops'
      cases pops'
      obtain ⟨same, same_ready⟩ := ih later'
      exact ⟨congrArg (· + 1) same, same_ready⟩

end

/-- What a brain makes of the alarms that are due is where the loop ends, after
one round for each beat. -/
theorem settles_settle (host : Host α τ ω) (frame : Frame) (b : Brain α) (world : ω) :
    Settles host frame (b.trail host frame world).length (b, world)
      (b.settle host frame world) := by
  fun_induction Brain.trail host frame b world with
  | case1 b world quiet pops =>
    rw [settle_quiet pops]
    exact .quiet pops
  | case2 b world alarm popped pops ih =>
    rw [settle_rings pops]
    exact .rings pops ih

/-- The alarms of a frame are settled, whatever is pending and whatever the state
and the settings of the enemy are. The loop has one end, which it reaches in as
many rounds as the load falls: at most one for each pending alarm, and one more
for each pending hit test. There nothing is due and the clock stands at the
horizon of the frame, and from there the tree is evaluated. -/
theorem alarms_are_settled (host : Host α τ ω) (frame : Frame) (b : Brain α) (world : ω) :
    let pending := b.state.alarms.pending.map (·.event)
    ∃ rounds ready,
      (∀ rounds' ready', Settles host frame rounds' (b.woken frame, world) ready' ↔
        rounds' = rounds ∧ ready' = ready) ∧
      rounds ≤ pending.length + pending.count .hit ∧
      rounds + load ready.1.state.alarms = load b.state.alarms ∧
      Queue.Settled ready.1.state.alarms ∧
      ready.1.state.alarms.horizon = (b.state.alarms.advance frame.dt).horizon ∧
      b.tick host frame world = ready.1.decide host frame ready.2 := by
  intro pending
  have settles := settles_settle host frame (b.woken frame) world
  have falls := settles_load settles
  obtain ⟨settled, horizon⟩ := settles_settled settles
  have same : load (b.woken frame).state.alarms = load b.state.alarms := by
    simp only [load, Brain.woken, Brain.withAlarms, Queue.advance_pending]
  rw [same] at falls
  have bound : load b.state.alarms = pending.length + pending.count .hit := by
    rw [load, List.length_map]
  refine ⟨_, _, ?_, by omega, falls, settled, horizon, rfl⟩
  intro rounds' ready'
  constructor
  · exact settles_unique settles
  · rintro ⟨rfl, rfl⟩
    exact settles

end Sentry.Enemy
