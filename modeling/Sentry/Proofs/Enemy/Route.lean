import Sentry.Proofs.Enemy.Equipped
import Sentry.Proofs.Enemy.Labels

/-! The patrol route. An enemy that walks its route keeps to its waypoint until
it comes near, and then takes the one after it. Nothing else touches the
waypoint, so a walk that is interrupted goes on where it was, and the waypoints
of a run follow the route around. -/
namespace Sentry.Enemy

variable {α τ ω : Type}

/-! ## Who walks -/

/-- The enemy is not stunned, and its target neither in reach nor in sight. -/
def Scene.patrols (host : Host α τ ω) (agent : α) (config : Config) (scene : Scene ω) : Bool :=
  let distance := host.targetDistance agent scene.world
  !scene.state.isStunned &&
    !((Band.mk 0 config.attackRange).contains distance && scene.state.canAttack) &&
    !(Band.mk 0 config.detectionRange).contains distance

/-- Where a patrolling enemy is once it has entered the label, if it has a
route to walk. -/
def Scene.walksFrom? (host : Host α τ ω) (agent : α) (config : Config) (scene : Scene ω) :
    Option Vec :=
  if scene.patrols host agent config && !config.route.isEmpty then
    host.position (scene.enter host agent .patrol).world agent
  else none

/-- A waypoint is followed by itself or by the one after it on the route. -/
def FollowsOn (config : Config) (i j : Nat) : Prop :=
  j = i ∨ j = (i + 1) % config.route.length

/-! ## A response -/

section
variable (host : Host α τ ω) (agent : α) {config : Config} (scene : Scene ω)

theorem nextWaypoint_turns {route : List Vec} (inhabited : route ≠ []) (tolerance : Float32)
    (own : Vec) (index : Nat) :
    let current := index % route.length
    let next := Scene.nextWaypoint route tolerance own index
    ∃ point goal, route[current]? = some point ∧ route[next]? = some goal ∧
      next = if own.distance point ≤ tolerance then (current + 1) % route.length else current := by
  intro current next
  have long : 0 < route.length := List.length_pos_of_ne_nil inhabited
  have known : current < route.length := Nat.mod_lt index long
  have turns : next = if own.distance route[current] ≤ tolerance then
      (current + 1) % route.length else current := by
    exact nextWaypoint_known (List.getElem?_eq_getElem known) tolerance own
  have aimed : next < route.length := by
    rw [turns]
    split
    · exact Nat.mod_lt _ long
    · exact known
  exact ⟨route[current], route[next], List.getElem?_eq_getElem known,
    List.getElem?_eq_getElem aimed, turns⟩

theorem respond_patrols (patrols : scene.patrols host agent config = true) :
    (scene.respond host agent config).2 =
      (scene.enter host agent .patrol).patrol host agent config.route config.patrolSpeed
        config.waypointTolerance := by
  simp only [Scene.patrols, Bool.and_eq_true, Bool.not_eq_true'] at patrols
  obtain ⟨⟨awake, away⟩, unseen⟩ := patrols
  simp [Scene.respond, awake, away, unseen]

/-- An enemy that walks takes its waypoint or the next one, and goes there. -/
theorem respond_walks {own : Vec} (walks : scene.walksFrom? host agent config = some own) :
    let after := (scene.respond host agent config).2
    let current := scene.state.waypoint % config.route.length
    after.state.label = .patrol ∧
      ∃ point goal, config.route[current]? = some point ∧
        config.route[after.state.waypoint]? = some goal ∧
        (after.state.waypoint = if own.distance point ≤ config.waypointTolerance then
          (current + 1) % config.route.length else current) ∧
        after.world = host.performAll (announce agent scene.state.label .patrol ++
          [.move agent (heading own goal) config.patrolSpeed]) scene.world := by
  unfold Scene.walksFrom? at walks
  split at walks
  next able =>
    simp only [Bool.and_eq_true, Bool.not_eq_true', List.isEmpty_eq_false_iff] at able
    obtain ⟨point, goal, at_point, at_goal, turns⟩ := nextWaypoint_turns able.2
      config.waypointTolerance own scene.state.waypoint
    dsimp only
    rw [respond_patrols host agent scene able.1, patrol_label]
    have moved : (scene.enter host agent .patrol).patrol host agent config.route
        config.patrolSpeed config.waypointTolerance =
          Scene.go host agent (own.toward goal) config.patrolSpeed
            { scene.enter host agent .patrol with state :=
              { (scene.enter host agent .patrol).state with
                waypoint := Scene.nextWaypoint config.route config.waypointTolerance own
                  scene.state.waypoint } } := by
      simp only [enter_eq] at walks ⊢
      simp only [Scene.patrol, walks, at_goal]
    rw [moved, Scene.go, face_eq, enter_eq, ← heading_eq]
    refine ⟨rfl, point, goal, at_point, at_goal, turns, ?_⟩
    rw [performAll_append]
    rfl
  next => cases walks

/-- A patrol without a place or a route is a stop. -/
theorem respond_stands (patrols : scene.patrols host agent config = true)
    (nowhere : scene.walksFrom? host agent config = none) :
    let after := (scene.respond host agent config).2
    after.state.label = .patrol ∧ after.state.waypoint = scene.state.waypoint ∧
      after.world = host.performAll
        (announce agent scene.state.label .patrol ++ [.stop agent]) scene.world := by
  have stops : (scene.enter host agent .patrol).patrol host agent config.route
      config.patrolSpeed config.waypointTolerance =
        (scene.enter host agent .patrol).stop host agent := by
    unfold Scene.patrol
    split
    · rfl
    next own found =>
      have empty : config.route = [] := by
        by_contra inhabited
        have able : (!config.route.isEmpty) = true := by simpa using inhabited
        rw [Scene.walksFrom?, patrols, able, Bool.and_true, if_pos rfl, found] at nowhere
        cases nowhere
      simp [empty]
  dsimp only
  rw [respond_patrols host agent scene patrols, stops, enter_eq, performAll_append]
  exact ⟨rfl, rfl, rfl⟩

/-- Any other response leaves the waypoint alone, and enters another label. -/
theorem respond_elsewhere (busy : scene.patrols host agent config = false) :
    let after := (scene.respond host agent config).2
    after.state.label ≠ .patrol ∧ after.state.waypoint = scene.state.waypoint := by
  simp only [Scene.patrols, Bool.and_eq_false_iff, Bool.not_eq_false'] at busy
  unfold Scene.respond
  dsimp only
  split
  · simp [enter_eq, Scene.stop, Scene.perform]
  next awake =>
    split
    · obtain ⟨label, waypoint⟩ :=
        attack_keeps host agent (scene.enter host agent .attack) config.attackWindup
      rw [label, waypoint, enter_eq]
      exact ⟨Label.noConfusion, rfl⟩
    next away =>
      split
      · obtain ⟨label, waypoint⟩ :=
          chase_keeps host agent (scene.enter host agent .chase) config.chaseSpeed
        rw [label, waypoint, enter_eq]
        exact ⟨Label.noConfusion, rfl⟩
      next unseen =>
        rcases busy with (stunned | reach) | sight
        · exact absurd stunned awake
        · exact absurd reach away
        · exact absurd sight unseen

end

/-! ## A beat -/

/-- The beat evaluates the tree, and the patrol is what it comes to. -/
def Beat.patrols (host : Host α τ ω) (beat : Beat α ω) : Bool :=
  beat.cause = .evaluation &&
    Scene.patrols host beat.brain.agent beat.brain.config ⟨beat.world, beat.brain.state⟩

/-- Where an enemy is that walks its route in a beat. In other beats there is
no such place. -/
def Beat.walksFrom? (host : Host α τ ω) (beat : Beat α ω) : Option Vec :=
  if beat.cause = .evaluation then
    Scene.walksFrom? host beat.brain.agent beat.brain.config ⟨beat.world, beat.brain.state⟩
  else none

/-- What an evaluation makes of a waypoint. A walk takes the waypoint, brought
into the route, or the next one if it is near, and moves toward it. Nothing else
changes the waypoint, and a patrol that is no walk is a stop. -/
structure Strides (host : Host α τ ω) (agent : α) (config : Config) (old : Nat)
    (beat : Beat α ω) : Prop where
  shown : (beat.after host).label = .patrol ↔ beat.patrols host = true
  walks : ∀ own, beat.walksFrom? host = some own →
    let current := old % config.route.length
    let new := (beat.after host).waypoint
    ∃ point goal, config.route[current]? = some point ∧ config.route[new]? = some goal ∧
      (new = if own.distance point ≤ config.waypointTolerance then
        (current + 1) % config.route.length else current) ∧
      beat.requests host = (announce agent beat.brain.state.label .patrol ++
        [Command.move agent (heading own goal) config.patrolSpeed]).map Request.command
  keeps : beat.walksFrom? host = none → (beat.after host).waypoint = old
  stands : beat.patrols host = true → beat.walksFrom? host = none →
    beat.requests host = (announce agent beat.brain.state.label .patrol ++
      [Command.stop agent]).map Request.command

section
variable (host : Host α τ ω) {agent : α} {config : Config} {b : Brain α} (frame : Frame)
  (world : ω)

/-- Only evaluations touch the waypoint. -/
theorem other_waypoint {cause : Cause} (other : cause ≠ .evaluation) :
    ((Beat.mk cause frame b world).after host).waypoint = b.state.waypoint := by
  cases cause with
  | alarm alarm =>
    have rung := ring_state host b.agent b.config ⟨world, b.state⟩ alarm
    refine (congrArg State.waypoint rung).trans ?_
    cases alarm <;> rfl
  | evaluation => exact absurd rfl other
  | stun =>
    have stunned := (requestStun_state host b.agent b.config ⟨world, b.state⟩).2
    have same : (Scene.requestStun host b.agent b.config ⟨world, b.state⟩).2.state.waypoint =
        b.state.waypoint := by
      rw [stunned]
      split <;> rfl
    simp only [Beat.after, Beat.act, Brain.requestStun]
    split <;> exact same

theorem evaluation_strides (equipped : Equipped agent config b) :
    Strides host agent config b.state.waypoint ⟨.evaluation, frame, b, world⟩ := by
  obtain ⟨state, asked⟩ := evaluation_recorded host frame world equipped
  let scene : Scene (ω × List (Request α τ)) := ⟨(world, []), b.state⟩
  have patrols : (Beat.mk .evaluation frame b world).patrols host =
      scene.patrols host.recorded agent config := by
    rw [← equipped.agent, ← equipped.config]
    exact Bool.true_and _
  have walksFrom : (Beat.mk .evaluation frame b world).walksFrom? host =
      scene.walksFrom? host.recorded agent config := by
    rw [← equipped.agent, ← equipped.config]
    simp only [Beat.walksFrom?, Scene.walksFrom?, enter_eq, scene, performAll_recorded]
    rfl
  constructor
  case shown =>
    rw [state, patrols]
    cases busy : scene.patrols host.recorded agent config with
    | true =>
      have label : (scene.respond host.recorded agent config).2.state.label = .patrol := by
        rw [respond_patrols host.recorded agent scene busy, patrol_label, enter_eq]
      exact iff_of_true label rfl
    | false =>
      have other := (respond_elsewhere host.recorded agent scene busy).1
      exact iff_of_false other Bool.false_ne_true
  case walks =>
    intro own walks
    rw [walksFrom] at walks
    obtain ⟨-, point, goal, at_point, at_goal, turns, told⟩ :=
      respond_walks host.recorded agent scene walks
    rw [performAll_recorded] at told
    rw [state, asked]
    exact ⟨point, goal, at_point, at_goal, turns, congrArg Prod.snd told⟩
  case keeps =>
    intro nowhere
    rw [walksFrom] at nowhere
    rw [state]
    cases busy : scene.patrols host.recorded agent config with
    | true => exact (respond_stands host.recorded agent scene busy nowhere).2.1
    | false => exact (respond_elsewhere host.recorded agent scene busy).2
  case stands =>
    intro busy nowhere
    rw [patrols] at busy
    rw [walksFrom] at nowhere
    have told := (respond_stands host.recorded agent scene busy nowhere).2.2
    rw [performAll_recorded] at told
    rw [asked]
    exact congrArg Prod.snd told

end

/-! ## A run -/

/-- The waypoints that are walked to in some beats, in order. -/
def waypoints (host : Host α τ ω) (beats : List (Beat α ω)) : List Nat :=
  (beats.filter fun beat => (beat.walksFrom? host).isSome).map fun beat =>
    (beat.after host).waypoint

/-- The waypoints so far follow the route around from where the enemy began,
and the enemy keeps the latest one. -/
structure Around (config : Config) (start : Nat) (walked : List Nat) (now : Nat) : Prop where
  known : ∀ waypoint ∈ walked, waypoint < config.route.length
  chain : (start % config.route.length :: walked).IsChain (FollowsOn config)
  latest : now = walked.getLastD start

section
variable {config : Config} {start now new : Nat} {walked : List Nat}

theorem around_start : Around config start [] start :=
  ⟨by simp, List.isChain_singleton _, rfl⟩

theorem around_walks (around : Around config start walked now)
    (known : new < config.route.length)
    (follows : FollowsOn config (now % config.route.length) new) :
    Around config start (walked ++ [new]) new := by
  refine ⟨?_, ?_, by simp⟩
  · intro waypoint member
    rcases List.mem_append.mp member with old | fresh
    · exact around.known waypoint old
    · rw [List.mem_singleton.mp fresh]
      exact known
  · rw [← List.cons_append, List.isChain_append]
    refine ⟨around.chain, List.isChain_singleton new, ?_⟩
    intro before last next first
    obtain rfl : new = next := by simpa using first
    rw [around.latest] at follows
    cases walked using List.reverseRecOn with
    | nil =>
      obtain rfl : start % config.route.length = before := by simpa using last
      exact follows
    | append_singleton earlier waypoint =>
      obtain rfl : waypoint = before := by simpa [List.getLast?_cons] using last
      have short := around.known waypoint (by simp)
      have latest : (earlier ++ [waypoint]).getLastD start = waypoint := by simp
      rw [latest, Nat.mod_eq_of_lt short] at follows
      exact follows

end

section
variable {host : Host α τ ω} {agent : α} {config : Config}

theorem waypoints_append (first second : List (Beat α ω)) :
    waypoints host (first ++ second) = waypoints host first ++ waypoints host second := by
  simp [waypoints]

theorem around_carried (host : Host α τ ω) (agent : α) (config : Config) (start : Nat) :
    Carried host agent config fun past b =>
      Around config start (waypoints host past) b.state.waypoint := by
  constructor
  case moves => exact fun past b alarms around => around
  case acts =>
    intro past b cause frame world equipped around
    rw [waypoints_append]
    change Around config start _ ((Beat.mk cause frame b world).after host).waypoint
    cases walks : (Beat.mk cause frame b world).walksFrom? host with
    | none =>
      have still : ((Beat.mk cause frame b world).after host).waypoint = b.state.waypoint := by
        by_cases evaluates : cause = .evaluation
        · subst evaluates
          exact (evaluation_strides host frame world equipped).keeps walks
        · exact other_waypoint host frame world evaluates
      simpa [waypoints, walks, still] using around
    | some own =>
      obtain rfl : cause = .evaluation := by
        by_contra other
        rw [Beat.walksFrom?, if_neg other] at walks
        cases walks
      obtain ⟨point, goal, -, at_goal, turns, -⟩ :=
        (evaluation_strides host frame world equipped).walks own walks
      obtain ⟨known, -⟩ := List.getElem?_eq_some_iff.mp at_goal
      have follows : FollowsOn config (b.state.waypoint % config.route.length)
          ((Beat.mk .evaluation frame b world).after host).waypoint := by
        rw [turns]
        split
        · exact .inr rfl
        · exact .inl rfl
      simpa [waypoints, walks] using around_walks around known follows

/-- Alarms leave the waypoint alone, so an evaluation finds that of the brain. -/
theorem settled_waypoint {b : Brain α} (host : Host α τ ω) (equipped : Equipped agent config b)
    (frame : Frame) (world : ω) : (b.settled host frame world).1.state.waypoint = b.state.waypoint ∧
      Equipped agent config (b.settled host frame world).1 := by
  obtain ⟨around, ready⟩ := settled_carries [] (around_carried host agent config b.state.waypoint)
    frame world equipped around_start
  have silent : waypoints host ((b.woken frame).trail host frame world) = [] := by
    rw [waypoints, List.map_eq_nil_iff, List.filter_eq_nil_iff]
    intro beat member
    obtain ⟨alarm, cause⟩ := trail_causes host frame (b.woken frame) world beat member
    simp [Beat.walksFrom?, cause]
  have latest := around.latest
  rw [List.nil_append, silent] at latest
  exact ⟨latest, ready⟩

/-- The law of the patrol route, for a brain whose state a host may have set to
anything. A tick walks to the waypoint of the state, brought into the route, or
to the one after it, and only a tick that walks touches the waypoint. So the
waypoints of a run follow the route around, whatever comes between them. -/
theorem route_is_walked_in_turn {b : Brain α} (host : Host α τ ω)
    (equipped : Equipped agent config b) (calls : List (Call ω)) :
    let now := b.run host calls
    (∀ frame world,
      let beat := now.evaluation host frame world
      (now.call host (.tick frame world)).1.state = beat.after host ∧
        Strides host agent config now.state.waypoint beat) ∧
      (∀ frame world,
        (now.call host (.stun frame world)).1.state.waypoint = now.state.waypoint) ∧
      Around config b.state.waypoint (waypoints host (b.journal host calls))
        now.state.waypoint := by
  obtain ⟨around, equipped_now⟩ := run_carries []
    (around_carried host agent config b.state.waypoint) equipped around_start calls
  refine ⟨?_, ?_, around⟩
  · intro frame world
    obtain ⟨same, ready⟩ := settled_waypoint host equipped_now frame world
    have strides := evaluation_strides host frame
      ((b.run host calls).settled host frame world).2 ready
    rw [same] at strides
    exact ⟨rfl, strides⟩
  · intro frame world
    have other : Cause.stun ≠ .evaluation := nofun
    exact other_waypoint host frame world other

end

/-- A recruit with two points to walk between, and a waypoint far off the
route. -/
def walker : Brain UInt64 :=
  let config := { route := [⟨3, 0⟩, ⟨0, 5⟩] }
  { agent := 7, config, state := { waypoint := 8 }, decider := .ofTree (policy config) }

/-- At the first of its points, with no target to be seen. -/
def post : Sandbox where
  positions := [(7, ⟨3, 0⟩)]

/-- The walker goes on to its second point. -/
theorem walker_turns :
    let after := (walker.call Sandbox.host (.tick ⟨0, 0.5, 0⟩ post)).1.state
    (walker.evaluation Sandbox.host ⟨0, 0.5, 0⟩ post).walksFrom? Sandbox.host = some ⟨3, 0⟩ ∧
      after.waypoint = 1 := by
  have equipped : Equipped 7 walker.config walker := ⟨rfl, rfl, rfl⟩
  obtain ⟨same, strides⟩ := (route_is_walked_in_turn Sandbox.host equipped []).1 ⟨0, 0.5, 0⟩ post
  have walks : (walker.evaluation Sandbox.host ⟨0, 0.5, 0⟩ post).walksFrom? Sandbox.host =
      some ⟨3, 0⟩ := by decide +kernel
  obtain ⟨point, goal, at_point, -, turns, -⟩ := strides.walks ⟨3, 0⟩ walks
  obtain rfl : ⟨3, 0⟩ = point := by simpa [walker, Brain.run] using at_point
  have near : (Vec.mk 3 0).distance ⟨3, 0⟩ ≤ walker.config.waypointTolerance := by decide +kernel
  rw [if_pos near] at turns
  intro after
  refine ⟨walks, ?_⟩
  simp only [after]
  exact (congrArg State.waypoint same).trans turns

end Sentry.Enemy
