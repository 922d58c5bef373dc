import Sentry.Enemy.Policy
import Sentry.Enemy.Sandbox

/-! The tree of an enemy as a flat decision. An evaluation carries out one of
four responses, chosen by the state and the distance to the target. Where the
answers of the world survive an announcement, the response is a verdict: a
status, a new state and a list of commands, all read off before the first
command is given. -/
namespace Sentry.Enemy

variable {α τ ω : Type}

/-! ## The response of any host -/

/-- What one evaluation comes to: the report, and the scene afterwards. -/
def Scene.respond (host : Host α τ ω) (agent : α) (config : Config) (scene : Scene ω) :
    Status × Scene ω :=
  let distance := host.targetDistance agent scene.world
  if scene.state.isStunned then
    (.running, (scene.enter host agent .stunned).stop host agent)
  else if (Band.mk 0 config.attackRange).contains distance && scene.state.canAttack then
    (.success, (scene.enter host agent .attack).attack host agent config.attackWindup)
  else if (Band.mk 0 config.detectionRange).contains distance then
    (.running, (scene.enter host agent .chase).chase host agent config.chaseSpeed)
  else
    (.running, (scene.enter host agent .patrol).patrol host agent config.route
      config.patrolSpeed config.waypointTolerance)

/-! A guarded branch fails and changes nothing, or carries out its action. -/

section
variable (host : Host α τ ω) (agent : α) (scene : Scene ω)

theorem stunnedBranch_tick : stunnedBranch.tick (Leaf.run host agent) scene =
    if scene.state.isStunned then
      ⟨.running, stunnedBranch, (scene.enter host agent .stunned).stop host agent⟩
    else ⟨.failure, stunnedBranch, scene⟩ := by
  cases stunned : scene.state.isStunned <;>
    simp [stunnedBranch, Tree.tick, Tree.tickChildren, Leaf.run, Composite.passing,
      Status.ofBool, stunned]

theorem attackBranch_tick (range windup : Float32) :
    (attackBranch range windup).tick (Leaf.run host agent) scene =
      if (Band.mk 0 range).contains (host.targetDistance agent scene.world) &&
          scene.state.canAttack then
        ⟨.success, attackBranch range windup,
          (scene.enter host agent .attack).attack host agent windup⟩
      else ⟨.failure, attackBranch range windup, scene⟩ := by
  cases reach : (Band.mk 0 range).contains (host.targetDistance agent scene.world) <;>
    cases able : scene.state.canAttack <;>
    simp [attackBranch, Tree.tick, Tree.tickChildren, Leaf.run, Composite.passing,
      Status.ofBool, reach, able]

theorem chaseBranch_tick (range speed : Float32) :
    (chaseBranch range speed).tick (Leaf.run host agent) scene =
      if (Band.mk 0 range).contains (host.targetDistance agent scene.world) then
        ⟨.running, chaseBranch range speed,
          (scene.enter host agent .chase).chase host agent speed⟩
      else ⟨.failure, chaseBranch range speed, scene⟩ := by
  cases sight : (Band.mk 0 range).contains (host.targetDistance agent scene.world) <;>
    simp [chaseBranch, Tree.tick, Tree.tickChildren, Leaf.run, Composite.passing,
      Status.ofBool, sight]

theorem patrolBranch_tick (route : List Vec) (speed tolerance : Float32) :
    (patrolBranch route speed tolerance).tick (Leaf.run host agent) scene =
      ⟨.running, patrolBranch route speed tolerance,
        (scene.enter host agent .patrol).patrol host agent route speed tolerance⟩ := by
  simp [patrolBranch, Tree.tick, Tree.tickChildren, Leaf.run, Composite.passing]

/-- Evaluating the tree is one response, and leaves the tree as it was. -/
theorem policy_tick (config : Config) : (policy config).tick (Leaf.run host agent) scene =
    ⟨(scene.respond host agent config).1, policy config,
      (scene.respond host agent config).2⟩ := by
  unfold policy Scene.respond
  rw [Tree.tick]
  simp only [Tree.tickChildren, stunnedBranch_tick, Composite.passing]
  by_cases stunned : scene.state.isStunned = true
  · simp [stunned]
  rw [if_neg stunned]
  simp only [attackBranch_tick, reduceIte, stunned]
  by_cases reach : ((Band.mk 0 config.attackRange).contains
      (host.targetDistance agent scene.world) && scene.state.canAttack) = true
  · simp [reach]
  rw [if_neg reach]
  simp only [chaseBranch_tick, reduceIte, reach]
  by_cases sight : (Band.mk 0 config.detectionRange).contains
      (host.targetDistance agent scene.world) = true
  · simp [sight]
  rw [if_neg sight]
  simp [patrolBranch_tick, sight]

end

/-! ## The flat decision -/

/-- A report, a new state, and the commands that go with it. -/
structure Verdict (α τ : Type) where
  status : Status
  state : State
  commands : List (Command α τ)

/-- The distance between two places, infinite if one of them is unknown. -/
def distanceOf (own target : Option Vec) : Float32 :=
  match own, target with
  | some own, some target => own.distance target
  | _, _ => Float32.ofBits 0x7F800000

/-- Where an enemy looks that turns to a horizontal component. -/
def turned (facing : Facing) (dx : Float32) : Facing :=
  if Facing.threshold < dx then .right
  else if dx < -Facing.threshold then .left
  else facing

/-- The way from one place to another: the difference by its length. There is
none if the length is too short to tell or no finite number. -/
def heading (own goal : Vec) : Vec :=
  let gap := goal - own
  if gap.length ≤ Vec.shortest ∨ gap.length.isFinite = false then Vec.zero
  else ⟨gap.x / gap.length, gap.y / gap.length⟩

/-- Observers hear of a label that is new. -/
def announce (agent : α) (old new : Label) : List (Command α τ) :=
  if new = old then [] else [.animate agent new]

/-- An attack looks at its target if both places are known, stops, and begins
only if none is in flight. -/
def attackVerdict (agent : α) (config : Config) (own target : Option Vec) (state : State) :
    Verdict α τ :=
  let facing := match own, target with
    | some own, some target => turned state.facing (target.x - own.x)
    | _, _ => state.facing
  let heard := announce agent state.label .attack
  if state.phase = .idle then
    { status := .success
      state := { state with
        label := .attack, facing, phase := .windup
        alarms := state.alarms.schedule config.attackWindup .hit }
      commands := heard ++ [.stop agent, .trigger agent .attack, .sound agent .attack] }
  else
    { status := .success
      state := { state with label := .attack, facing }
      commands := heard ++ [.stop agent] }

/-- A chase goes straight for the target, or nowhere. -/
def chaseVerdict (agent : α) (config : Config) (own target : Option Vec) (state : State) :
    Verdict α τ :=
  let heard := announce agent state.label .chase
  match own, target with
  | some own, some target =>
    let direction := heading own target
    { status := .running
      state := { state with label := .chase, facing := turned state.facing direction.x }
      commands := heard ++ [.move agent direction config.chaseSpeed] }
  | _, _ =>
    { status := .running
      state := { state with label := .chase }
      commands := heard ++ [.stop agent] }

/-- A patrol goes straight for its waypoint, or for the one after it if that is
near, or nowhere. -/
def patrolVerdict (agent : α) (config : Config) (own : Option Vec) (state : State) :
    Verdict α τ :=
  let heard := announce agent state.label .patrol
  let aim := own.bind fun own =>
    let current := state.waypoint % config.route.length
    config.route[current]?.bind fun point =>
      let index := if own.distance point ≤ config.waypointTolerance then
        (current + 1) % config.route.length else current
      config.route[index]?.map fun goal => (index, heading own goal)
  match aim with
  | some (waypoint, direction) =>
    { status := .running
      state := { state with
        label := .patrol, waypoint, facing := turned state.facing direction.x }
      commands := heard ++ [.move agent direction config.patrolSpeed] }
  | none =>
    { status := .running
      state := { state with label := .patrol }
      commands := heard ++ [.stop agent] }

/-- What an enemy does that finds itself and its target at given places. -/
def verdict (agent : α) (config : Config) (own target : Option Vec) (state : State) :
    Verdict α τ :=
  let distance := distanceOf own target
  if state.isStunned then
    { status := .running
      state := { state with label := .stunned }
      commands := announce agent state.label .stunned ++ [.stop agent] }
  else if 0 ≤ distance ∧ distance ≤ config.attackRange ∧ state.canAttack then
    attackVerdict agent config own target state
  else if 0 ≤ distance ∧ distance ≤ config.detectionRange then
    chaseVerdict agent config own target state
  else patrolVerdict agent config own state

/-! ## Carrying a verdict out -/

/-- The world after commands in order. -/
def Host.performAll (host : Host α τ ω) (commands : List (Command α τ)) (world : ω) : ω :=
  commands.foldl (fun world command => host.perform command world) world

theorem performAll_append (host : Host α τ ω) (first second : List (Command α τ)) (world : ω) :
    host.performAll (first ++ second) world =
      host.performAll second (host.performAll first world) :=
  List.foldl_append

/-- A recorded host notes each command. -/
theorem performAll_recorded (host : Host α τ ω) (commands : List (Command α τ)) (world : ω)
    (log : List (Request α τ)) : host.recorded.performAll commands (world, log) =
      (host.performAll commands world, log ++ commands.map .command) := by
  induction commands generalizing world log with
  | nil => simp [Host.performAll]
  | cons first rest ih =>
    have step := ih (host.perform first world) (log ++ [.command first])
    simp only [Host.performAll, List.foldl_cons, List.map_cons] at step ⊢
    rw [List.append_cons]
    exact step

/-- An announcement moves neither the agent nor its target. All other commands
of an evaluation come after the last question. -/
structure Host.Steady (host : Host α τ ω) (agent : α) (world : ω) : Prop where
  position : ∀ label, host.position (host.perform (.animate agent label) world) agent =
    host.position world agent
  targetPosition : ∀ label, host.targetPosition (host.perform (.animate agent label) world) agent =
    host.targetPosition world agent

theorem recorded_steady {host : Host α τ ω} {agent : α} {world : ω}
    (steady : host.Steady agent world) (log : List (Request α τ)) :
    host.recorded.Steady agent (world, log) :=
  ⟨steady.position, steady.targetPosition⟩

theorem position_announced {host : Host α τ ω} {agent : α} {world : ω}
    (steady : host.Steady agent world) (old new : Label) :
    host.position (host.performAll (announce agent old new) world) agent =
        host.position world agent ∧
      host.targetPosition (host.performAll (announce agent old new) world) agent =
        host.targetPosition world agent := by
  unfold announce
  split
  · exact ⟨rfl, rfl⟩
  · exact ⟨steady.position new, steady.targetPosition new⟩

theorem enter_eq (host : Host α τ ω) (agent : α) (label : Label) (scene : Scene ω) :
    scene.enter host agent label =
      ⟨host.performAll (announce agent scene.state.label label) scene.world,
        { scene.state with label }⟩ := by
  unfold Scene.enter announce
  by_cases same : scene.state.label = label
  · rw [if_pos same, if_pos same.symm]
    rfl
  · rw [if_neg same, if_neg (Ne.symm same)]
    rfl

theorem face_eq (direction : Vec) (scene : Scene ω) :
    scene.face direction =
      { scene with state := { scene.state with
          facing := turned scene.state.facing direction.x } } := by
  unfold Scene.face Facing.ofHorizontal? turned
  by_cases right : Facing.threshold < direction.x
  · simp [right]
  · by_cases left : direction.x < -Facing.threshold <;> simp [right, left]

theorem heading_eq (own goal : Vec) : heading own goal = own.toward goal := by
  simp only [heading, Vec.toward, Vec.unit, Bool.or_eq_true, decide_eq_true_eq, Bool.not_eq_true']
  rfl

theorem nextWaypoint_known {route : List Vec} {index : Nat} {point : Vec}
    (known : route[index % route.length]? = some point) (tolerance : Float32) (own : Vec) :
    Scene.nextWaypoint route tolerance own index =
      if own.distance point ≤ tolerance then (index % route.length + 1) % route.length
      else index % route.length := by
  simp only [Scene.nextWaypoint, known]

/-- A waypoint off the route stays as it is: the route is empty. -/
theorem nextWaypoint_unknown {route : List Vec} {index : Nat}
    (unknown : route[index % route.length]? = none) (tolerance : Float32) (own : Vec) :
    Scene.nextWaypoint route tolerance own index = index % route.length := by
  simp only [Scene.nextWaypoint, unknown]

theorem launchAttack_eq (host : Host α τ ω) (agent : α) (windup : Float32) (scene : Scene ω) :
    scene.launchAttack host agent windup =
      if scene.state.phase = .idle then
        ⟨host.performAll [.stop agent, .trigger agent .attack, .sound agent .attack] scene.world,
          { scene.state with
            phase := .windup, alarms := scene.state.alarms.schedule windup .hit }⟩
      else ⟨host.performAll [.stop agent] scene.world, scene.state⟩ :=
  rfl

/-! Each action after an announcement, at places that are known beforehand. -/

section
variable {host : Host α τ ω} {agent : α} {world : ω} {state : State} {own target : Option Vec}

/-- The scene in which a verdict has been carried out. -/
def Verdict.outcome (v : Verdict α τ) (host : Host α τ ω) (world : ω) : Scene ω :=
  ⟨host.performAll v.commands world, v.state⟩

private theorem attack_verdict (config : Config) (steady : host.Steady agent world)
    (own_at : host.position world agent = own)
    (target_at : host.targetPosition world agent = target) :
    Scene.attack host agent config.attackWindup (Scene.enter host agent .attack ⟨world, state⟩) =
      (attackVerdict agent config own target state).outcome host world := by
  obtain ⟨own_still, target_still⟩ := position_announced steady state.label .attack
  rw [own_at] at own_still
  rw [target_at] at target_still
  rw [enter_eq]
  unfold Scene.attack attackVerdict Verdict.outcome
  dsimp only
  rw [own_still, target_still, launchAttack_eq]
  cases own with
  | none => by_cases idle : state.phase = .idle <;> simp [idle, performAll_append]
  | some own =>
    cases target with
    | none => by_cases idle : state.phase = .idle <;> simp [idle, performAll_append]
    | some target =>
      simp only [face_eq]
      by_cases idle : state.phase = .idle <;> simp [idle, performAll_append] <;> rfl

private theorem chase_verdict (config : Config) (steady : host.Steady agent world)
    (own_at : host.position world agent = own)
    (target_at : host.targetPosition world agent = target) :
    Scene.chase host agent config.chaseSpeed (Scene.enter host agent .chase ⟨world, state⟩) =
      (chaseVerdict agent config own target state).outcome host world := by
  obtain ⟨own_still, target_still⟩ := position_announced steady state.label .chase
  rw [own_at] at own_still
  rw [target_at] at target_still
  rw [enter_eq]
  unfold Scene.chase chaseVerdict Verdict.outcome
  dsimp only
  rw [own_still, target_still]
  cases own with
  | none => simp [performAll_append]; rfl
  | some own =>
    cases target with
    | none => simp [performAll_append]; rfl
    | some target =>
      simp [performAll_append, Scene.go, face_eq, heading_eq]; rfl

private theorem patrol_verdict (config : Config) (steady : host.Steady agent world)
    (own_at : host.position world agent = own) :
    Scene.patrol host agent config.route config.patrolSpeed config.waypointTolerance
        (Scene.enter host agent .patrol ⟨world, state⟩) =
      (patrolVerdict agent config own state).outcome host world := by
  obtain ⟨own_still, -⟩ := position_announced steady state.label .patrol
  rw [own_at] at own_still
  rw [enter_eq]
  unfold Scene.patrol patrolVerdict Verdict.outcome
  dsimp only
  rw [own_still]
  cases own with
  | none => simp [performAll_append]; rfl
  | some own =>
    dsimp only [Option.bind_some]
    cases current : config.route[state.waypoint % config.route.length]? with
    | none =>
      rw [nextWaypoint_unknown current, current]
      simp [performAll_append]
      rfl
    | some point =>
      rw [nextWaypoint_known current, Option.bind_some]
      -- Both sides now look up the same index.
      split
      next unaimed =>
        rw [unaimed]
        simp [performAll_append]
        rfl
      next goal aimed =>
        rw [aimed]
        simp [performAll_append, Scene.go, face_eq, heading_eq]
        rfl

theorem attackVerdict_status (config : Config) :
    (attackVerdict agent config own target state : Verdict α τ).status = .success := by
  unfold attackVerdict
  dsimp only
  by_cases idle : state.phase = .idle <;> simp [idle]

theorem chaseVerdict_status (config : Config) :
    (chaseVerdict agent config own target state : Verdict α τ).status = .running := by
  cases own <;> cases target <;> rfl

theorem patrolVerdict_status (config : Config) :
    (patrolVerdict agent config own state : Verdict α τ).status = .running := by
  unfold patrolVerdict
  dsimp only
  split <;> rfl

theorem contains_iff (bound distance : Float32) :
    (Band.mk 0 bound).contains distance = true ↔ 0 ≤ distance ∧ distance ≤ bound := by
  simp [Band.contains]

theorem respond_verdict (config : Config) (state : State) (steady : host.Steady agent world)
    (own_at : host.position world agent = own)
    (target_at : host.targetPosition world agent = target) :
    Scene.respond host agent config ⟨world, state⟩ =
      ((verdict agent config own target state : Verdict α τ).status,
        (verdict agent config own target state).outcome host world) := by
  have distance : host.targetDistance agent world = distanceOf own target := by
    subst own_at target_at
    rfl
  unfold Scene.respond verdict
  simp only [distance, Bool.and_eq_true, contains_iff, and_assoc]
  split
  · rw [enter_eq]
    simp [Verdict.outcome, performAll_append]
    rfl
  split
  · rw [attack_verdict config steady own_at target_at, attackVerdict_status]
  split
  · rw [chase_verdict config steady own_at target_at, chaseVerdict_status]
  · rw [patrol_verdict config steady own_at, patrolVerdict_status]

/-! ## Announcements -/

/-- The command shows a new label. -/
def Command.isAnnouncement : Command α τ → Bool
  | .animate _ _ => true
  | _ => false

theorem announce_all (old new : Label) :
    ∀ command ∈ (announce agent old new : List (Command α τ)), command.isAnnouncement := by
  intro command member
  unfold announce at member
  split at member
  · cases member
  · obtain rfl := List.mem_singleton.mp member
    rfl

/-- A new label is announced first, and nothing is announced later. -/
def Verdict.Announces (v : Verdict α τ) (agent : α) (old : Label) : Prop :=
  ∃ rest, v.commands = announce agent old v.state.label ++ rest ∧
    ∀ command ∈ rest, command.isAnnouncement = false

theorem verdict_announces (config : Config) :
    (verdict agent config own target state : Verdict α τ).Announces agent state.label := by
  unfold verdict
  dsimp only
  split
  · exact ⟨[.stop agent], rfl, by simp [Command.stop, Command.isAnnouncement]⟩
  split
  · unfold attackVerdict
    dsimp only
    split
    · exact ⟨[.stop agent, .trigger agent .attack, .sound agent .attack], rfl,
        by simp [Command.stop, Command.isAnnouncement]⟩
    · exact ⟨[.stop agent], rfl, by simp [Command.stop, Command.isAnnouncement]⟩
  split
  · unfold chaseVerdict
    dsimp only
    split
    · exact ⟨[.move agent _ config.chaseSpeed], rfl, by simp [Command.isAnnouncement]⟩
    · exact ⟨[.stop agent], rfl, by simp [Command.stop, Command.isAnnouncement]⟩
  · unfold patrolVerdict
    dsimp only
    split
    · exact ⟨[.move agent _ config.patrolSpeed], rfl, by simp [Command.isAnnouncement]⟩
    · exact ⟨[.stop agent], rfl, by simp [Command.stop, Command.isAnnouncement]⟩

theorem announcements_of_verdict {v : Verdict α τ} {old : Label}
    (announces : v.Announces agent old) :
    v.commands.filter Command.isAnnouncement = announce agent old v.state.label := by
  obtain ⟨rest, shape, others⟩ := announces
  have silent : rest.filter Command.isAnnouncement = [] := by
    rw [List.filter_eq_nil_iff]
    intro command member
    rw [others command member]
    exact Bool.false_ne_true
  rw [shape, List.filter_append, silent, List.append_nil]
  exact List.filter_eq_self.mpr (announce_all _ _)

end

/-- One evaluation of the tree carries out the verdict, in a world that an
announcement does not change as far as the enemy can see: it reports the status
of the verdict, leaves the tree alone, turns the state into that of the
verdict, and gives exactly its commands. A new label is announced once and
before anything else, an old one is not. -/
theorem evaluate_carries_out_verdict (host : Host α τ ω) (agent : α) (config : Config)
    (last : Option Status) (state : State) (world : ω) (log : List (Request α τ))
    (steady : host.Steady agent world) :
    let v : Verdict α τ := verdict agent config (host.position world agent)
      (host.targetPosition world agent) state
    let decider : Decider Leaf := ⟨some (policy config), last⟩
    let after : Decider Leaf := ⟨some (policy config), some v.status⟩
    decider.evaluate (Leaf.run host agent) ⟨world, state⟩ =
        ⟨v.status, after, ⟨host.performAll v.commands world, v.state⟩⟩ ∧
      decider.evaluate (Leaf.run host.recorded agent) ⟨(world, log), state⟩ =
        ⟨v.status, after,
          ⟨(host.performAll v.commands world, log ++ v.commands.map .command), v.state⟩⟩ ∧
      v.commands.filter Command.isAnnouncement =
        (if v.state.label = state.label then [] else [.animate agent v.state.label]) ∧
      (v.state.label ≠ state.label → v.commands.head? = some (.animate agent v.state.label)) := by
  intro v decider after
  have announces : v.Announces agent state.label := verdict_announces config
  refine ⟨?_, ?_, announcements_of_verdict announces, ?_⟩
  · simp only [decider, Decider.evaluate, policy_tick, respond_verdict config state steady rfl rfl]
    rfl
  · have recorded := respond_verdict config state (recorded_steady steady log) rfl rfl
    simp only [decider, Decider.evaluate, policy_tick, recorded, Verdict.outcome,
      performAll_recorded]
    rfl
  · intro changed
    obtain ⟨rest, shape, -⟩ := announces
    rw [shape, announce, if_neg changed]
    rfl

/-- Two neighbours: an agent and its target at a distance of one. -/
def neighbours : Sandbox where
  positions := [(7, ⟨0, 0⟩)]
  targets := [(7, ⟨1, 0⟩)]

theorem neighbour_is_attacked : Sandbox.host.Steady 7 neighbours ∧
    ((⟨some (policy {}), none⟩ : Decider Leaf).evaluate (Leaf.run Sandbox.host.recorded 7)
      ⟨(neighbours, []), {}⟩).around.world.2 =
        [.command (.animate 7 .attack), .command (.stop 7), .command (.trigger 7 .attack),
          .command (.sound 7 .attack)] := by
  have steady : Sandbox.host.Steady 7 neighbours := ⟨fun _ => rfl, fun _ => rfl⟩
  obtain ⟨-, recorded, -, -⟩ := evaluate_carries_out_verdict Sandbox.host 7 {} none {}
    neighbours [] steady
  refine ⟨steady, ?_⟩
  rw [recorded]
  decide +kernel

end Sentry.Enemy
