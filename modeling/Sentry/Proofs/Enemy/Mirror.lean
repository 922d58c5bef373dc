import Sentry.Proofs.Enemy.Beats

/-! Hosts that mirror other hosts. An enemy learns of its world only what a host
answers, so it does the same for any two hosts that give the same answers. A
recorded host mirrors the host it records, and so does one that began with a
longer list; hence recording changes nothing, and what a beat asks of its host
can be told beat by beat. -/
namespace Sentry.Enemy

variable {α τ ω ω' : Type}

/-- The worlds of a host, seen through a view, answer and change like those of
another host. -/
structure Mirrors (mirror : Host α τ ω') (host : Host α τ ω) (view : ω' → ω) : Prop where
  position : ∀ world agent, mirror.position world agent = host.position (view world) agent
  targetPosition : ∀ world agent,
    mirror.targetPosition world agent = host.targetPosition (view world) agent
  query : ∀ area world, host.query area (view world) =
    ((mirror.query area world).1, view (mirror.query area world).2)
  perform : ∀ command world, host.perform command (view world) = view (mirror.perform command world)

/-- A scene seen through a view of its world. -/
def Scene.seen (view : ω' → ω) (scene : Scene ω') : Scene ω :=
  ⟨view scene.world, scene.state⟩

section
variable {mirror : Host α τ ω'} {host : Host α τ ω} {view : ω' → ω}
  (mirrors : Mirrors mirror host view) (agent : α) (config : Config) (scene : Scene ω')

include mirrors

theorem performAll_mirror (commands : List (Command α τ)) (world : ω') :
    host.performAll commands (view world) = view (mirror.performAll commands world) := by
  induction commands generalizing world with
  | nil => rfl
  | cons first rest ih =>
    have step := ih (mirror.perform first world)
    rw [← mirrors.perform] at step
    exact step

/-! ## Alarms and stuns -/

theorem launchAttack_mirror (windup : Float32) :
    (scene.seen view).launchAttack host agent windup =
      (scene.launchAttack mirror agent windup).seen view := by
  rw [launchAttack_eq, launchAttack_eq]
  by_cases idle : scene.state.phase = .idle
  · simp [Scene.seen, idle, performAll_mirror mirrors]
  · simp [Scene.seen, idle, performAll_mirror mirrors]

theorem requestStun_mirror :
    (scene.seen view).requestStun host agent config =
      ((scene.requestStun mirror agent config).1,
        (scene.requestStun mirror agent config).2.seen view) := by
  unfold Scene.requestStun
  cases stunned : scene.state.isStunned with
  | true => simp [Scene.seen, stunned]
  | false => simp [Scene.seen, stunned, Scene.stop, Scene.perform, mirrors.perform]

theorem resolveHit_mirror :
    (scene.seen view).resolveHit host agent config =
      (scene.resolveHit mirror agent config).seen view := by
  unfold Scene.resolveHit
  rw [mirrors.position]
  dsimp only [Scene.seen]
  cases host.position (view scene.world) agent with
  | none => rfl
  | some position =>
    simp only [mirrors.query]
    cases (mirror.query ⟨attackAnchor config position scene.state, config.attackRadius,
        config.targetLayer⟩ scene.world).1 with
    | none => rfl
    | some target => simp [Scene.perform, mirrors.perform]

theorem ring_mirror (alarm : Alarm) :
    (scene.seen view).ring host agent config alarm =
      (scene.ring mirror agent config alarm).seen view := by
  cases alarm with
  | hit =>
    simp only [Scene.ring, resolveHit_mirror mirrors]
    rfl
  | ready => rfl
  | recovered => rfl

/-! ## Leaves -/

theorem enter_mirror (label : Label) :
    (scene.seen view).enter host agent label = (scene.enter mirror agent label).seen view := by
  rw [enter_eq, enter_eq]
  simp [Scene.seen, performAll_mirror mirrors]

theorem go_mirror (direction : Vec) (speed : Float32) :
    (scene.seen view).go host agent direction speed =
      (scene.go mirror agent direction speed).seen view := by
  simp [Scene.go, face_eq, Scene.seen, Scene.perform, mirrors.perform]

theorem stop_mirror : (scene.seen view).stop host agent = (scene.stop mirror agent).seen view := by
  simp [Scene.stop, Scene.seen, Scene.perform, mirrors.perform]

theorem attack_mirror (windup : Float32) :
    (scene.seen view).attack host agent windup =
      (scene.attack mirror agent windup).seen view := by
  unfold Scene.attack
  rw [mirrors.position, mirrors.targetPosition]
  dsimp only [Scene.seen]
  cases host.position (view scene.world) agent with
  | none => exact launchAttack_mirror mirrors agent scene windup
  | some own =>
    cases host.targetPosition (view scene.world) agent with
    | none => exact launchAttack_mirror mirrors agent scene windup
    | some target =>
      have aimed := launchAttack_mirror mirrors agent (scene.face (target - own)) windup
      simp only [face_eq] at aimed ⊢
      exact aimed

theorem chase_mirror (speed : Float32) :
    (scene.seen view).chase host agent speed = (scene.chase mirror agent speed).seen view := by
  unfold Scene.chase
  rw [mirrors.position, mirrors.targetPosition]
  dsimp only [Scene.seen]
  split
  · exact go_mirror mirrors agent scene _ speed
  · exact stop_mirror mirrors agent scene

theorem patrol_mirror (route : List Vec) (speed tolerance : Float32) :
    (scene.seen view).patrol host agent route speed tolerance =
      (scene.patrol mirror agent route speed tolerance).seen view := by
  unfold Scene.patrol
  rw [mirrors.position]
  dsimp only [Scene.seen]
  split
  · exact stop_mirror mirrors agent scene
  next own _ =>
    split
    · exact stop_mirror mirrors agent scene
    next point _ =>
      exact go_mirror mirrors agent ⟨scene.world, { scene.state with
        waypoint := Scene.nextWaypoint route tolerance own scene.state.waypoint }⟩
        (own.toward point) speed

theorem leaf_mirror (leaf : Leaf) :
    leaf.run host agent (scene.seen view) =
      let done := leaf.run mirror agent scene
      ⟨done.status, done.node, done.around.seen view⟩ := by
  cases leaf with
  | isStunned => rfl
  | canAttack => rfl
  | targetWithin band =>
    unfold Leaf.run Host.targetDistance
    rw [mirrors.position, mirrors.targetPosition]
    rfl
  | endure => simp only [Leaf.run, enter_mirror mirrors, stop_mirror mirrors]
  | attack windup => simp only [Leaf.run, enter_mirror mirrors, attack_mirror mirrors]
  | chase speed => simp only [Leaf.run, enter_mirror mirrors, chase_mirror mirrors]
  | patrol route speed tolerance =>
    simp only [Leaf.run, enter_mirror mirrors, patrol_mirror mirrors]

end

/-! ## Trees and beats -/

mutual

theorem tick_mirror {mirror : Host α τ ω'} {host : Host α τ ω} {view : ω' → ω}
    (mirrors : Mirrors mirror host view) (agent : α) (tree : Tree Leaf) (scene : Scene ω') :
    tree.tick (Leaf.run host agent) (scene.seen view) =
      let done := tree.tick (Leaf.run mirror agent) scene
      ⟨done.status, done.node, done.around.seen view⟩ := by
  cases tree with
  | leaf data =>
    rw [Tree.tick, leaf_mirror mirrors]
    rfl
  | composite kind children =>
    rw [Tree.tick, tickChildren_mirror mirrors agent kind children scene]
    rfl
  | boxed child =>
    rw [Tree.tick, tick_mirror mirrors agent child scene]
    rfl

theorem tickChildren_mirror {mirror : Host α τ ω'} {host : Host α τ ω} {view : ω' → ω}
    (mirrors : Mirrors mirror host view) (agent : α) (kind : Composite)
    (children : List (Tree Leaf)) (scene : Scene ω') :
    Tree.tickChildren (Leaf.run host agent) kind children (scene.seen view) =
      let done := Tree.tickChildren (Leaf.run mirror agent) kind children scene
      ⟨done.status, done.node, done.around.seen view⟩ := by
  cases children with
  | nil => rfl
  | cons child rest =>
    rw [Tree.tickChildren, Tree.tickChildren, tick_mirror mirrors agent child scene]
    dsimp only
    split
    · rw [tickChildren_mirror mirrors agent kind rest]
    · rfl

end

theorem evaluate_mirror {mirror : Host α τ ω'} {host : Host α τ ω} {view : ω' → ω}
    (mirrors : Mirrors mirror host view) (agent : α) (decider : Decider Leaf)
    (scene : Scene ω') :
    decider.evaluate (Leaf.run host agent) (scene.seen view) =
      let done := decider.evaluate (Leaf.run mirror agent) scene
      ⟨done.status, done.node, done.around.seen view⟩ := by
  unfold Decider.evaluate
  cases decider.root with
  | none => rfl
  | some tree =>
    dsimp only
    rw [tick_mirror mirrors]

/-- A beat in another world. -/
def Beat.within (beat : Beat α ω) (world : ω') : Beat α ω' :=
  ⟨beat.cause, beat.frame, beat.brain, world⟩

theorem act_mirror {mirror : Host α τ ω'} {host : Host α τ ω} {view : ω' → ω}
    (mirrors : Mirrors mirror host view) (beat : Beat α ω') :
    (beat.within (view beat.world)).act host =
      ((beat.act mirror).1, view (beat.act mirror).2) := by
  obtain ⟨cause, frame, b, world⟩ := beat
  cases cause with
  | alarm alarm =>
    have rung := ring_mirror mirrors b.agent b.config ⟨world, b.state⟩ alarm
    simp only [Scene.seen] at rung
    simp only [Beat.act, Beat.within, Brain.handle, rung]
  | evaluation =>
    have evaluated := evaluate_mirror mirrors b.agent b.decider ⟨world, b.state⟩
    simp only [Scene.seen] at evaluated
    simp only [Beat.act, Beat.within, Brain.decide, evaluated]
  | stun =>
    have stunned := requestStun_mirror mirrors b.agent b.config ⟨world, b.state⟩
    simp only [Scene.seen] at stunned
    simp only [Beat.act, Beat.within, Brain.requestStun, stunned]

/-! ## Recorded hosts -/

variable (host : Host α τ ω)

/-- A recorded host mirrors the host it records. -/
theorem recorded_mirrors : Mirrors host.recorded host Prod.fst :=
  ⟨fun _ _ => rfl, fun _ _ => rfl, fun _ _ => rfl, fun _ _ => rfl⟩

/-- A recorded host mirrors one that began with a longer list. -/
theorem recorded_later (log : List (Request α τ)) :
    Mirrors host.recorded host.recorded fun world => (world.1, log ++ world.2) := by
  refine ⟨fun _ _ => rfl, fun _ _ => rfl, ?_, ?_⟩
  · intro area world
    simp [Host.recorded, List.append_assoc]
  · intro command world
    simp [Host.recorded, List.append_assoc]

/-- What an enemy asks of its host during a beat, in order. -/
def Beat.requests (beat : Beat α ω) : List (Request α τ) :=
  ((beat.within (beat.world, ([] : List (Request α τ)))).act host.recorded).2.2

/-- Recording a beat only makes the list longer. -/
theorem act_recorded (beat : Beat α ω) (log : List (Request α τ)) :
    (beat.within (beat.world, log)).act host.recorded =
      ((beat.act host).1, ((beat.act host).2, log ++ beat.requests host)) := by
  have plain : beat.act host = _ := act_mirror (recorded_mirrors host)
    (beat.within (beat.world, ([] : List (Request α τ))))
  have later := act_mirror (recorded_later host log)
    (beat.within (beat.world, ([] : List (Request α τ))))
  have from_log : (beat.within (beat.world, log ++ ([] : List (Request α τ)))).act host.recorded
      = _ := later
  rw [List.append_nil] at from_log
  rw [from_log, plain]
  rfl

/-- The state and the requests of an evaluation are those of a response that is
recorded. -/
theorem evaluation_recorded {agent : α} {config : Config} {b : Brain α} (frame : Frame)
    (world : ω) (equipped : Equipped agent config b) :
    let beat : Beat α ω := ⟨.evaluation, frame, b, world⟩
    let response := (Scene.respond host.recorded agent config ⟨(world, []), b.state⟩).2
    beat.after host = response.state ∧ beat.requests host = response.world.2 := by
  intro beat response
  obtain ⟨state, around, -⟩ := decide_responds host.recorded frame (world, []) equipped
  have plain := congrArg (·.1.state) (act_recorded host beat [])
  exact ⟨plain.symm.trans state, congrArg Prod.snd around⟩

/-- A call in a recorded world. -/
def Call.recorded (log : List (Request α τ)) : Call ω → Call (ω × List (Request α τ))
  | .tick frame world => .tick frame (world, log)
  | .stun frame world => .stun frame (world, log)

theorem settle_recorded (frame : Frame) (b : Brain α) (world : ω) (log : List (Request α τ)) :
    b.settle host.recorded frame (world, log) =
      ((b.settle host frame world).1, ((b.settle host frame world).2,
        log ++ (b.trail host frame world).flatMap (Beat.requests host))) := by
  fun_induction Brain.trail host frame b world generalizing log with
  | case1 b world quiet pops =>
    rw [settle_quiet pops, settle_quiet pops, List.flatMap_nil, List.append_nil]
  | case2 b world alarm popped pops ih =>
    have handled : (b.withAlarms popped).handle host.recorded frame alarm (world, log) =
        (((b.withAlarms popped).handle host frame alarm world).1,
          (((b.withAlarms popped).handle host frame alarm world).2,
            log ++ Beat.requests host ⟨.alarm alarm, frame, b.withAlarms popped, world⟩)) :=
      act_recorded host ⟨.alarm alarm, frame, b.withAlarms popped, world⟩ log
    rw [settle_rings pops, settle_rings pops]
    rw [handled, ih, List.flatMap_cons, List.append_assoc]

/-- Recording a call notes what its beats ask, and changes nothing else. -/
theorem call_recorded (b : Brain α) (call : Call ω) (log : List (Request α τ)) :
    b.call host.recorded (call.recorded log) =
      ((b.call host call).1, ((b.call host call).2,
        log ++ (b.beats host call).flatMap (Beat.requests host))) := by
  cases call with
  | tick frame world =>
    have settled := settle_recorded host frame (b.woken frame) world log
    have evaluated := act_recorded host (b.evaluation host frame world)
      (log ++ ((b.woken frame).trail host frame world).flatMap (Beat.requests host))
    rw [Brain.beats, List.flatMap_append, List.flatMap_singleton, ← List.append_assoc]
    refine Eq.trans ?_ evaluated
    change Beat.act host.recorded ⟨.evaluation, frame,
      ((b.woken frame).settle host.recorded frame (world, log)).1,
      ((b.woken frame).settle host.recorded frame (world, log)).2⟩ = _
    rw [settled]
    rfl
  | stun frame world =>
    have stunned := act_recorded host ⟨.stun, frame, b, world⟩ log
    rw [Brain.beats, List.flatMap_singleton]
    exact stunned

/-- The brain after several calls to a recorded host, and all that it has asked
for. -/
def Brain.recordedRun (b : Brain α) (calls : List (Call ω)) : Brain α × List (Request α τ) :=
  calls.foldl (fun run call =>
    let done := run.1.call host.recorded (call.recorded run.2)
    (done.1, done.2.2)) (b, [])

theorem recordedRun_eq (b : Brain α) (calls : List (Call ω)) :
    b.recordedRun host calls =
      (b.run host calls, (b.journal host calls).flatMap (Beat.requests host)) := by
  induction calls using List.reverseRecOn with
  | nil => rfl
  | append_singleton earlier call ih =>
    have longer : b.recordedRun host (earlier ++ [call]) =
        let run := b.recordedRun host earlier
        let done := run.1.call host.recorded (call.recorded run.2)
        (done.1, done.2.2) := by
      unfold Brain.recordedRun
      rw [List.foldl_append]
      rfl
    rw [longer, ih]
    dsimp only
    rw [call_recorded, run_append, journal_append, List.flatMap_append]
    simp [Brain.run, Brain.journal]

end Sentry.Enemy
