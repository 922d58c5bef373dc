import Sentry.Proofs.Enemy.Mirror
import Sentry.Proofs.Enemy.Timeline

/-! Accounts of attacks. In the stream of all that an enemy asks of its host,
launches, hit tests and ends of cooldowns take turns; only a hit test looks for
something to hit and damages it, once; and two hit tests are a cooldown and a
windup apart. -/
namespace Sentry.Enemy
open Timer

variable {α τ ω : Type}

/-! ## Requests -/

/-- The request starts the animation of an attack. -/
def Request.isLaunch : Request α τ → Bool
  | .command (.trigger _ .attack) => true
  | _ => false

/-- The request does damage. -/
def Request.isDamage : Request α τ → Bool
  | .command (.damage _ _) => true
  | _ => false

/-- The request looks for something to hit. -/
def Request.isSearch : Request α τ → Bool
  | .query _ => true
  | _ => false

/-- Where a hit test searches: the offset is turned to the side that the enemy
looks to. -/
def struckAt (config : Config) (position : Vec) (facing : Facing) : Vec :=
  let side : Float32 := if facing = .right then 1 else -1
  ⟨position.x + config.attackOffset.x * side, position.y + config.attackOffset.y⟩

/-- The requests of a hit test: one search if the enemy is somewhere, and one
damage if something was found. -/
def strike (host : Host α τ ω) (agent : α) (config : Config) (state : State) (world : ω) :
    List (Request α τ) :=
  match host.position world agent with
  | none => []
  | some position =>
    let area : AreaQuery :=
      ⟨struckAt config position state.facing, config.attackRadius, config.targetLayer⟩
    .query area ::
      match (host.query area world).1 with
      | some target => [.command (.damage target config.attackDamage)]
      | none => []

/-! ## Requests of a beat -/

section
variable (host : Host α τ ω) (frame : Frame) (world : ω) {agent : α} {config : Config}
  {b : Brain α}

theorem struckAt_eq (config : Config) (position : Vec) (state : State) :
    struckAt config position state.facing = attackAnchor config position state := by
  unfold struckAt attackAnchor
  cases state.facing <;> rfl

theorem resolveHit_requests (host : Host α τ ω) (agent : α) (config : Config) (state : State)
    (world : ω) : (Scene.resolveHit host.recorded agent config ⟨(world, []), state⟩).world.2 =
      strike host agent config state world := by
  unfold Scene.resolveHit strike
  dsimp only [Host.recorded]
  cases host.position world agent with
  | none => rfl
  | some position =>
    dsimp only
    rw [struckAt_eq]
    cases (host.query ⟨attackAnchor config position state, config.attackRadius,
        config.targetLayer⟩ world).1 with
    | none => rfl
    | some target => rfl

theorem strike_requests : (Beat.mk (.alarm .hit) frame b world).requests host =
    strike host b.agent b.config b.state world :=
  resolveHit_requests host b.agent b.config b.state world

theorem hit_requests (regular : Regular agent config b) :
    (Beat.mk (.alarm .hit) frame b world).requests host =
      strike host agent config b.state world := by
  rw [← regular.agent, ← regular.config]
  exact strike_requests host frame world

theorem other_alarm_requests {alarm : Alarm} (other : alarm ≠ .hit) :
    (Beat.mk (.alarm alarm) frame b world).requests host = [] := by
  cases alarm with
  | hit => exact absurd rfl other
  | ready => rfl
  | recovered => rfl

theorem stun_requests : (Beat.mk .stun frame b world).requests host =
    if b.state.isStunned then []
    else [.command (.stop b.agent), .command (.sound b.agent .stun)] := by
  unfold Beat.requests Beat.within Beat.act Brain.requestStun Scene.requestStun
  cases b.state.isStunned <;> rfl

/-- Standing still, or going straight for a point at a given speed. -/
inductive Steers (speed : Float32) : Vec → Float32 → Prop
  | still : Steers speed Vec.zero 0
  | toward (own goal : Vec) : Steers speed (own.toward goal) speed

theorem chase_moves (host : Host α τ ω) (agent : α) (speed : Float32) (scene : Scene ω) :
    ∃ direction speed', Steers speed direction speed' ∧
      (scene.chase host agent speed).world =
        host.performAll [.move agent direction speed'] scene.world := by
  unfold Scene.chase
  split
  next own goal _ _ =>
    rw [Scene.go, face_eq]
    exact ⟨_, _, .toward own goal, rfl⟩
  · exact ⟨_, _, .still, rfl⟩

theorem patrol_moves (host : Host α τ ω) (agent : α) (route : List Vec)
    (speed tolerance : Float32) (scene : Scene ω) :
    ∃ direction speed', Steers speed direction speed' ∧
      (scene.patrol host agent route speed tolerance).world =
        host.performAll [.move agent direction speed'] scene.world := by
  unfold Scene.patrol
  split
  · exact ⟨_, _, .still, rfl⟩
  next own _ =>
    dsimp only
    split
    · exact ⟨_, _, .still, rfl⟩
    next point _ =>
      rw [Scene.go, face_eq]
      exact ⟨_, _, .toward own point, rfl⟩

theorem attack_shows (host : Host α τ ω) (agent : α) (windup : Float32)
    (scene : Scene ω) :
    (scene.attack host agent windup).world = host.performAll
      (if scene.state.phase = .idle
        then [.stop agent, .trigger agent .attack, .sound agent .attack] else [.stop agent])
      scene.world := by
  have shows : ∀ aimed : Scene ω, aimed.world = scene.world →
      aimed.state.phase = scene.state.phase →
        (aimed.launchAttack host agent windup).world = host.performAll
          (if scene.state.phase = .idle
            then [.stop agent, .trigger agent .attack, .sound agent .attack] else [.stop agent])
          scene.world := by
    intro aimed same_world same_phase
    rw [launchAttack_eq, same_phase]
    split <;> rw [same_world]
  unfold Scene.attack
  apply shows
  · split
    · rw [face_eq]
    · rfl
  · split
    · rw [face_eq]
    · rfl

/-- What an enemy steers by: one of its two speeds. -/
def Config.Steers (config : Config) (direction : Vec) (speed : Float32) : Prop :=
  Enemy.Steers config.chaseSpeed direction speed ∨ Enemy.Steers config.patrolSpeed direction speed

/-- A response tells the host to move, and to show an attack if it begins
one. A new label may come before that. -/
theorem respond_commands (host : Host α τ ω) (agent : α) (config : Config) (scene : Scene ω) :
    let after := (scene.respond host agent config).2
    ∃ label direction speed, config.Steers direction speed ∧
      (after.state.phase = scene.state.phase ∧
          after.world = host.performAll (announce agent scene.state.label label ++
            [.move agent direction speed]) scene.world ∨
        (scene.state.phase = .idle ∧ after.state.phase = .windup) ∧
          after.world = host.performAll (announce agent scene.state.label label ++
            [.move agent direction speed, .trigger agent .attack, .sound agent .attack])
            scene.world) := by
  unfold Scene.respond
  dsimp only
  split
  · refine ⟨.stunned, Vec.zero, 0, .inl .still, .inl ⟨(enter_alike host agent scene _).phase, ?_⟩⟩
    rw [enter_eq, performAll_append]
    rfl
  split
  · have attacked := attack_alike host agent config (scene.enter host agent .attack)
    have shown := attack_shows host agent config.attackWindup (scene.enter host agent .attack)
    rw [(enter_alike host agent scene .attack).phase] at attacked shown
    rw [enter_eq] at shown
    by_cases idle : scene.state.phase = .idle
    · rw [if_pos idle] at attacked shown
      refine ⟨.attack, Vec.zero, 0, .inl .still, .inr ⟨⟨idle, attacked.phase⟩, ?_⟩⟩
      rw [enter_eq, performAll_append]
      exact shown
    · rw [if_neg idle] at attacked shown
      refine ⟨.attack, Vec.zero, 0, .inl .still,
        .inl ⟨attacked.phase.trans (enter_alike host agent scene _).phase, ?_⟩⟩
      rw [enter_eq, performAll_append]
      exact shown
  split
  · have chased := chase_alike host agent (scene.enter host agent .chase) config.chaseSpeed
    obtain ⟨direction, speed, steers, moved⟩ :=
      chase_moves host agent config.chaseSpeed (scene.enter host agent .chase)
    refine ⟨.chase, direction, speed, .inl steers,
      .inl ⟨chased.phase.trans (enter_alike host agent scene _).phase, ?_⟩⟩
    rw [moved, enter_eq, performAll_append]
  · have walked := patrol_alike host agent (scene.enter host agent .patrol) config.route
      config.patrolSpeed config.waypointTolerance
    obtain ⟨direction, speed, steers, moved⟩ := patrol_moves host agent config.route
      config.patrolSpeed config.waypointTolerance (scene.enter host agent .patrol)
    refine ⟨.patrol, direction, speed, .inr steers,
      .inl ⟨walked.phase.trans (enter_alike host agent scene _).phase, ?_⟩⟩
    rw [moved, enter_eq, performAll_append]

theorem evaluation_requests (equipped : Equipped agent config b) :
    let beat : Beat α ω := ⟨.evaluation, frame, b, world⟩
    ∃ label direction speed, config.Steers direction speed ∧
      ((beat.after host).phase = b.state.phase ∧
          beat.requests host = (announce agent b.state.label label ++
            [Command.move agent direction speed]).map Request.command ∨
        (b.state.phase = .idle ∧ (beat.after host).phase = .windup) ∧
          beat.requests host = (announce agent b.state.label label ++
            [Command.move agent direction speed, Command.trigger agent .attack,
              Command.sound agent .attack]).map Request.command) := by
  intro beat
  obtain ⟨same, asked⟩ := evaluation_recorded host frame world equipped
  obtain ⟨label, direction, speed, steers, given⟩ :=
    respond_commands host.recorded agent config ⟨(world, []), b.state⟩
  refine ⟨label, direction, speed, steers, ?_⟩
  simp only [beat, same, asked]
  rcases given with ⟨still, told⟩ | ⟨launches, told⟩
  · rw [told, performAll_recorded]
    exact .inl ⟨still, rfl⟩
  · rw [told, performAll_recorded]
    exact .inr ⟨launches, rfl⟩

end

/-! ## Turns -/

/-- The steps of an attack. -/
inductive Mark where
  | launch
  | hit
  | ready
  deriving DecidableEq

/-- The step that an alarm is. -/
def Mark.ofAlarm? : Alarm → Option Mark
  | .hit => some .hit
  | .ready => some .ready
  | .recovered => none

/-- The steps of attacks in a beat: an alarm that is handled, then all launches
that are shown. -/
def Beat.marks (host : Host α τ ω) (beat : Beat α ω) : List Mark :=
  (match beat.cause with
    | .alarm alarm => (Mark.ofAlarm? alarm).toList
    | _ => []) ++
  ((beat.requests host).filter Request.isLaunch).map fun _ => .launch

/-- A whole attack. -/
def Mark.cycle : List Mark :=
  [.launch, .hit, .ready]

/-- The steps of an attack that have been taken in a phase. -/
def Phase.marks : Phase → List Mark
  | .idle => []
  | .windup => [.launch]
  | .cooldown => [.launch, .hit]

section
variable (host : Host α τ ω) (frame : Frame) (world : ω) {agent : α} {config : Config}
  {b : Brain α}

theorem strike_launches_nothing (host : Host α τ ω) (agent : α) (config : Config)
    (state : State) (world : ω) :
    (strike host agent config state world).filter Request.isLaunch = [] := by
  unfold strike
  cases host.position world agent with
  | none => rfl
  | some position =>
    dsimp only
    split <;> rfl

theorem alarm_marks (regular : Regular agent config b) (alarm : Alarm) :
    (Beat.mk (.alarm alarm) frame b world).marks host = (Mark.ofAlarm? alarm).toList := by
  unfold Beat.marks
  cases alarm with
  | hit =>
    rw [hit_requests host frame world regular, strike_launches_nothing]
    rfl
  | ready => rfl
  | recovered => rfl

theorem stun_marks : (Beat.mk .stun frame b world).marks host = [] := by
  unfold Beat.marks
  rw [stun_requests]
  cases b.state.isStunned <;> rfl

theorem announce_launches_nothing (old new : Label) :
    ((announce agent old new : List (Command α τ)).map Request.command).filter
      Request.isLaunch = [] := by
  unfold announce
  split <;> rfl

theorem evaluation_marks (regular : Regular agent config b) :
    let beat : Beat α ω := ⟨.evaluation, frame, b, world⟩
    (beat.after host).phase = b.state.phase ∧ beat.marks host = [] ∨
      (b.state.phase = .idle ∧ (beat.after host).phase = .windup) ∧
        beat.marks host = [.launch] := by
  intro beat
  obtain ⟨label, direction, speed, -, told⟩ :=
    evaluation_requests host frame world (regular_equipped regular)
  unfold Beat.marks
  rcases told with ⟨still, asked⟩ | ⟨launches, asked⟩
  · left
    rw [asked, List.map_append, List.filter_append, announce_launches_nothing]
    exact ⟨still, rfl⟩
  · right
    rw [asked, List.map_append, List.filter_append, announce_launches_nothing]
    exact ⟨launches, rfl⟩

/-- Steps are taken in turn. -/
theorem turns_kept (host : Host α τ ω) (agent : α) (config : Config) :
    Kept host agent config fun past b => b.state.isArmed ∧
      ∃ attacks, past.flatMap (Beat.marks host) =
        (List.replicate attacks Mark.cycle).flatten ++ b.state.phase.marks := by
  have kept := armed_kept host agent config
  constructor
  case moves =>
    rintro past b alarms regular ⟨armed, turns⟩ sound same forward
    exact ⟨kept.moves past regular armed sound same forward, turns⟩
  case rings =>
    rintro past b popped alarm frame world regular ⟨armed, attacks, turns⟩ pops
    refine ⟨kept.rings past frame world regular armed pops, ?_⟩
    have ready := regular_withAlarms regular (Queue.popDue_sound regular.sound pops)
    change ∃ attacks, _ = _ ++ (Beat.after host _).phase.marks
    rw [List.flatMap_append, List.flatMap_singleton, turns,
      alarm_marks host frame world ready, alarm_after host frame world ready]
    obtain ⟨hit, ready, release, armed⟩ := armed
    cases alarm with
    | hit =>
      obtain ⟨⟨winding, -⟩, -⟩ := armed_hit config armed regular.sound pops
      refine ⟨attacks, ?_⟩
      rw [winding]
      simp [Mark.ofAlarm?, Phase.marks, State.ring]
    | ready =>
      obtain ⟨⟨cooling, -⟩, -⟩ := armed_ready config armed regular.sound pops
      refine ⟨attacks + 1, ?_⟩
      rw [cooling, List.replicate_succ', List.flatten_append]
      simp [Mark.ofAlarm?, Phase.marks, State.ring, Mark.cycle]
    | recovered =>
      refine ⟨attacks, ?_⟩
      simp [Mark.ofAlarm?, State.ring, Brain.withAlarms]
  case decides =>
    rintro past b frame world regular ⟨armed, attacks, turns⟩ settled
    refine ⟨kept.decides past frame world regular armed settled, attacks, ?_⟩
    change _ = _ ++ (Beat.after host _).phase.marks
    rw [List.flatMap_append, List.flatMap_singleton, turns]
    rcases evaluation_marks host frame world regular with
      ⟨still, marks⟩ | ⟨⟨idle, winding⟩, marks⟩
    · rw [still, marks, List.append_nil]
    · rw [winding, marks, idle]
      simp [Phase.marks]
  case stuns =>
    rintro past b frame world regular ⟨armed, attacks, turns⟩ caught
    refine ⟨kept.stuns past frame world regular armed caught, attacks, ?_⟩
    change _ = _ ++ (Beat.after host _).phase.marks
    rw [List.flatMap_append, List.flatMap_singleton, turns, stun_marks, List.append_nil,
      stun_after host frame world regular]
    split <;> rfl

end

/-! ## Pace -/

/-- A hit test may come this late at the earliest. -/
def Config.nextHit (config : Config) (hit : Float) : Float :=
  hit + Queue.effectiveDelay config.attackCooldown + Queue.effectiveDelay config.attackWindup

/-- Hit tests so far keep the pace, and so will the next one. -/
structure Paced (config : Config) (hits : List Float) (s : State) (hit ready : Float) : Prop where
  chain : hits.IsChain fun hit later => config.nextHit hit ≤ later
  moments : ∀ hit ∈ hits, IsMoment hit
  windup : s.phase = .windup → ∀ last ∈ hits.getLast?, config.nextHit last ≤ hit
  cooldown : s.phase = .cooldown → ∀ last ∈ hits.getLast?,
    last + Queue.effectiveDelay config.attackCooldown = ready
  idle : s.phase = .idle → ∀ last ∈ hits.getLast?,
    last + Queue.effectiveDelay config.attackCooldown ≤ s.alarms.now

section
variable {config : Config} {hits : List Float} {s : State} {hit ready : Float}

theorem cooled_moment (paced : Paced config hits s hit ready) :
    ∀ last ∈ hits.getLast?, IsMoment (last + Queue.effectiveDelay config.attackCooldown) := by
  intro last member
  exact moment_add (paced.moments last (List.mem_of_getLast? member)) (effectiveDelay_is_delay _)

theorem paced_alike {s' : State} (paced : Paced config hits s hit ready) (alike : Alike s s') :
    Paced config hits s' hit ready := by
  obtain ⟨chain, moments, windup, cooldown, idle⟩ := paced
  rw [← alike.phase] at windup cooldown idle
  rw [← alike.alarms] at idle
  exact ⟨chain, moments, windup, cooldown, idle⟩

theorem paced_moves (paced : Paced config hits s hit ready) {alarms : Queue Alarm}
    (sound : Queue.Sound s.alarms) (sound' : Queue.Sound alarms)
    (forward : s.alarms.now ≤ alarms.now) : Paced config hits (s.popping alarms) hit ready := by
  refine ⟨paced.chain, paced.moments, paced.windup, paced.cooldown, ?_⟩
  intro idle last member
  exact moment_le_trans (cooled_moment paced last member) sound.now sound'.now
    (paced.idle idle last member) forward

theorem paced_launch (paced : Paced config hits s hit ready) (sound : Queue.Sound s.alarms)
    (idle : s.phase = .idle) : Paced config hits (s.launch config)
      (s.alarms.now + Queue.effectiveDelay config.attackWindup) ready := by
  refine ⟨paced.chain, paced.moments, ?_, Phase.noConfusion, Phase.noConfusion⟩
  intro _ last member
  exact add_le_add_right (cooled_moment paced last member) sound.now (effectiveDelay_is_delay _)
    (paced.idle idle last member)

theorem paced_hit (paced : Paced config hits s hit ready) (moment : IsMoment hit)
    (winding : s.phase = .windup) (popped : Queue Alarm) :
    Paced config (hits ++ [hit]) ((s.popping popped).ring config .hit) hit
      (hit + Queue.effectiveDelay config.attackCooldown) := by
  refine ⟨?_, ?_, Phase.noConfusion, ?_, Phase.noConfusion⟩
  · rw [List.isChain_append]
    refine ⟨paced.chain, List.isChain_singleton hit, ?_⟩
    intro last member next head
    cases head
    exact paced.windup winding last member
  · rw [List.forall_mem_append, List.forall_mem_singleton]
    exact ⟨paced.moments, moment⟩
  · intro _ last member
    rw [List.getLast?_concat] at member
    cases member
    rfl

theorem paced_ready (paced : Paced config hits s hit ready) (cooling : s.phase = .cooldown)
    {popped : Queue Alarm} (sound : Queue.Sound popped) (now : popped.now = ready) :
    Paced config hits ((s.popping popped).ring config .ready) hit ready := by
  refine ⟨paced.chain, paced.moments, Phase.noConfusion, Phase.noConfusion, ?_⟩
  intro _ last member
  rw [paced.cooldown cooling last member]
  change ready ≤ popped.now
  rw [now]
  exact moment_le_refl (now ▸ sound.now)

end

/-- Hit tests keep the pace. -/
theorem pace_kept (host : Host α τ ω) (agent : α) (config : Config) :
    Kept host agent config fun past b => ∃ hit ready release,
      Armed b.state hit ready release ∧ Paced config (firings .hit past) b.state hit ready := by
  constructor
  case moves =>
    rintro past b alarms regular ⟨hit, ready, release, armed, paced⟩ sound same forward
    exact ⟨hit, ready, release, armed_moves armed same,
      paced_moves paced regular.sound sound forward⟩
  case rings =>
    rintro past b popped alarm frame world regular ⟨hit, ready, release, armed, paced⟩ pops
    have sound := Queue.popDue_sound regular.sound pops
    obtain ⟨-, forward, -⟩ := Queue.popDue_clock regular.sound pops
    change ∃ hit ready release, Armed (Beat.after host _) hit ready release ∧
      Paced config _ (Beat.after host _) hit ready
    rw [alarm_after host frame world (regular_withAlarms regular sound), firings_append]
    cases alarm with
    | hit =>
      obtain ⟨⟨winding, now⟩, armed'⟩ := armed_hit config armed regular.sound pops
      have handled : firings .hit [(⟨.alarm .hit, frame, b.withAlarms popped, world⟩ : Beat α ω)]
          = [hit] := by
        rw [← now]
        rfl
      rw [handled]
      exact ⟨_, _, _, armed', paced_hit paced (now ▸ sound.now) winding popped⟩
    | ready =>
      obtain ⟨⟨cooling, now⟩, armed'⟩ := armed_ready config armed regular.sound pops
      rw [firings_other (by simp), List.append_nil]
      exact ⟨_, _, _, armed', paced_ready paced cooling sound now⟩
    | recovered =>
      obtain ⟨-, armed'⟩ := armed_recovered config armed regular.sound pops
      obtain ⟨chain, moments, windup, cooldown, idle⟩ :=
        paced_moves paced regular.sound sound forward
      rw [firings_other (by simp), List.append_nil]
      exact ⟨_, _, _, armed', chain, moments, windup, cooldown, idle⟩
  case decides =>
    rintro past b frame world regular ⟨hit, ready, release, armed, paced⟩ settled
    rw [firings_append, firings_other Cause.noConfusion, List.append_nil]
    rcases evaluation_after host frame world regular with
      alike | ⟨⟨-, -, idle⟩, alike⟩
    · exact ⟨_, _, _, armed_alike armed alike, paced_alike paced alike⟩
    · exact ⟨_, _, _, armed_alike (armed_launch armed idle) alike,
        paced_alike (paced_launch paced regular.sound idle) alike⟩
  case stuns =>
    rintro past b frame world regular ⟨hit, ready, release, armed, paced⟩ caught
    change ∃ hit ready release, Armed (Beat.after host _) hit ready release ∧
      Paced config _ (Beat.after host _) hit ready
    rw [stun_after host frame world regular, firings_append, firings_other Cause.noConfusion,
      List.append_nil]
    cases awake : b.state.isStunned with
    | true => exact ⟨_, _, _, armed, paced⟩
    | false =>
      obtain ⟨chain, moments, windup, cooldown, idle⟩ := paced
      exact ⟨_, _, _, armed_stun armed awake, chain, moments, windup, cooldown, idle⟩

/-! ## Counts -/

/-- Every beat of a run is one of a regular brain. -/
theorem regular_kept (host : Host α τ ω) (agent : α) (config : Config) :
    Kept host agent config fun past _ => ∀ beat ∈ past, Regular agent config beat.brain := by
  constructor
  case moves =>
    intro past b alarms regular earlier sound same forward
    exact earlier
  case rings =>
    intro past b popped alarm frame world regular earlier pops
    rw [List.forall_mem_append, List.forall_mem_singleton]
    exact ⟨earlier, regular_withAlarms regular (Queue.popDue_sound regular.sound pops)⟩
  case decides =>
    intro past b frame world regular earlier settled
    rw [List.forall_mem_append, List.forall_mem_singleton]
    exact ⟨earlier, regular⟩
  case stuns =>
    intro past b frame world regular earlier caught
    rw [List.forall_mem_append, List.forall_mem_singleton]
    exact ⟨earlier, regular⟩

theorem cycles_balanced (attacks : Nat) (phase : Phase) :
    ((List.replicate attacks Mark.cycle).flatten ++ phase.marks).count .hit ≤
      ((List.replicate attacks Mark.cycle).flatten ++ phase.marks).count .launch := by
  have begun : phase.marks.count .hit ≤ phase.marks.count .launch := by cases phase <;> decide
  have whole : Mark.cycle.count .hit = Mark.cycle.count .launch := by decide
  rw [List.count_append, List.count_append, List.count_flatten, List.count_flatten,
    List.map_replicate, List.map_replicate, whole]
  omega

theorem cycles_prefix (attacks : Nat) (phase : Phase) :
    (List.replicate attacks Mark.cycle).flatten ++ phase.marks <+:
      (List.replicate (attacks + 1) Mark.cycle).flatten := by
  rw [List.replicate_succ', List.flatten_append, List.prefix_append_right_inj]
  cases phase <;> decide

/-- Apart from hit tests an enemy looks for nothing to hit and damages nothing. -/
theorem other_requests {host : Host α τ ω} {agent : α} {config : Config} {beat : Beat α ω}
    (regular : Regular agent config beat.brain) (other : beat.cause ≠ .alarm .hit) :
    ∀ request ∈ beat.requests host, request.isSearch = false ∧ request.isDamage = false := by
  obtain ⟨cause, frame, b, world⟩ := beat
  have announced : ∀ old new : Label, ∀ command ∈ (announce agent old new : List (Command α τ)),
      (Request.command command).isSearch = false ∧ (Request.command command).isDamage = false := by
    intro old new command member
    unfold announce at member
    split at member
    · cases member
    · rw [List.mem_singleton.mp member]
      exact ⟨rfl, rfl⟩
  cases cause with
  | alarm alarm =>
    rw [other_alarm_requests host frame world (fun same => other (congrArg Cause.alarm same))]
    simp
  | evaluation =>
    obtain ⟨label, direction, speed, -, told⟩ :=
      evaluation_requests host frame world (regular_equipped regular)
    rcases told with ⟨-, asked⟩ | ⟨-, asked⟩
    · rw [asked, List.forall_mem_map, List.forall_mem_append]
      exact ⟨announced _ _, by simp [Request.isSearch, Request.isDamage]⟩
    · rw [asked, List.forall_mem_map, List.forall_mem_append]
      exact ⟨announced _ _, by simp [Request.isSearch, Request.isDamage]⟩
  | stun =>
    rw [stun_requests]
    split
    · simp
    · simp [Request.isSearch, Request.isDamage, Command.stop]

theorem strike_damages_once (host : Host α τ ω) (agent : α) (config : Config) (state : State)
    (world : ω) : (strike host agent config state world).countP Request.isDamage ≤ 1 := by
  unfold strike
  cases host.position world agent with
  | none => simp
  | some position =>
    dsimp only
    split <;> simp [Request.isDamage]

/-- A beat does damage at most once, and only if it is a hit test. -/
theorem damage_le_hits {host : Host α τ ω} {agent : α} {config : Config} {beat : Beat α ω}
    (regular : Regular agent config beat.brain) :
    (beat.requests host).countP Request.isDamage ≤ (beat.marks host).count .hit := by
  by_cases strikes : beat.cause = .alarm .hit
  · obtain ⟨cause, frame, b, world⟩ := beat
    subst strikes
    rw [hit_requests host frame world regular, alarm_marks host frame world regular]
    exact strike_damages_once host agent config b.state world
  · have none_done : (beat.requests host).countP Request.isDamage = 0 := by
      rw [List.countP_eq_zero]
      intro request member
      simp [(other_requests regular strikes request member).2]
    rw [none_done]
    exact Nat.zero_le _

theorem launches_eq (host : Host α τ ω) (beat : Beat α ω) :
    (beat.marks host).count .launch = (beat.requests host).countP Request.isLaunch := by
  have alarms : ∀ alarm, (Mark.ofAlarm? alarm).toList.count .launch = 0 := by
    intro alarm
    cases alarm <;> decide
  have launches : ((beat.requests host).filter Request.isLaunch).map (fun _ => Mark.launch) =
      List.replicate ((beat.requests host).countP Request.isLaunch) .launch := by
    rw [List.map_const', List.countP_eq_length_filter]
  unfold Beat.marks
  rw [launches, List.count_append, List.count_replicate_self]
  split
  · rw [alarms, Nat.zero_add]
  · exact Nat.zero_add _

/-- There is no more damage than launches. -/
theorem damage_le_launches {host : Host α τ ω} {agent : α} {config : Config}
    {beats : List (Beat α ω)} (regular : ∀ beat ∈ beats, Regular agent config beat.brain)
    {attacks : Nat} {phase : Phase} (turns : beats.flatMap (Beat.marks host) =
      (List.replicate attacks Mark.cycle).flatten ++ phase.marks) :
    (beats.flatMap (Beat.requests host)).countP Request.isDamage ≤
      (beats.flatMap (Beat.requests host)).countP Request.isLaunch := by
  have damages : (beats.flatMap (Beat.requests host)).countP Request.isDamage ≤
      (beats.flatMap (Beat.marks host)).count .hit := by
    clear turns
    induction beats with
    | nil => simp
    | cons beat rest ih =>
      rw [List.forall_mem_cons] at regular
      rw [List.flatMap_cons, List.flatMap_cons, List.countP_append, List.count_append]
      exact Nat.add_le_add (damage_le_hits regular.1) (ih regular.2)
  have launches : (beats.flatMap (Beat.marks host)).count .launch =
      (beats.flatMap (Beat.requests host)).countP Request.isLaunch := by
    clear turns damages regular
    induction beats with
    | nil => simp
    | cons beat rest ih =>
      rw [List.flatMap_cons, List.flatMap_cons, List.countP_append, List.count_append, ih,
        launches_eq]
  rw [← launches]
  rw [turns] at damages ⊢
  exact damages.trans (cycles_balanced attacks phase)

/-- The account of all attacks of a fresh brain. What it asks of its host is
what its beats ask, in order. Launches, hit tests and ends of cooldowns take
turns. A hit test makes one search if the enemy is somewhere, and does one
damage if that finds something; nothing else searches or does damage. So there
is no more damage than launches, and of two successive hit tests the later one
comes a cooldown and a windup after the earlier one. -/
theorem attacks_are_accounted_for {agent : α} {config : Config} {fresh : Brain α}
    (host : Host α τ ω) (created : Brain.create agent config = .ok fresh)
    (calls : List (Call ω)) :
    let journal := fresh.journal host calls
    let stream := (fresh.recordedRun host calls).2
    fresh.recordedRun host calls =
        (fresh.run host calls, journal.flatMap (Beat.requests host)) ∧
      (∃ attacks, journal.flatMap (Beat.marks host) <+:
        (List.replicate attacks Mark.cycle).flatten) ∧
      (∀ beat ∈ journal, beat.cause = .alarm .hit →
        beat.requests host = strike host agent config beat.brain.state beat.world) ∧
      (∀ beat ∈ journal, beat.cause ≠ .alarm .hit →
        ∀ request ∈ beat.requests host, request.isSearch = false ∧ request.isDamage = false) ∧
      stream.countP Request.isDamage ≤ stream.countP Request.isLaunch ∧
      (firings .hit journal).IsChain fun hit later =>
        hit + widen config.attackCooldown + widen config.attackWindup ≤ later := by
  intro journal stream
  obtain ⟨regular, shape, valid⟩ := create_regular created
  have caught : fresh.state.alarms.now = fresh.state.alarms.horizon := by rw [shape]
  have armed : Armed fresh.state 0 0 0 := by
    rw [shape]
    exact armed_start 0 0 0
  have recorded := recordedRun_eq host fresh calls
  have beats_regular := (run_keeps [] (regular_kept host agent config) regular caught
    (by simp) calls).1
  obtain ⟨-, attacks, turns⟩ := (run_keeps [] (turns_kept host agent config) regular caught
    ⟨⟨0, 0, 0, armed⟩, 0, by rw [shape]; rfl⟩ calls).1
  obtain ⟨hit, ready, release, -, paced⟩ := (run_keeps [] (pace_kept host agent config) regular
    caught ⟨0, 0, 0, armed, List.isChain_nil, by simp [firings], by simp [firings],
      by simp [firings], by simp [firings]⟩ calls).1
  refine ⟨recorded, ⟨attacks + 1, ?_⟩, ?_, ?_, ?_, ?_⟩
  · exact turns ▸ cycles_prefix attacks _
  · rintro ⟨cause, frame, b, world⟩ member rfl
    exact hit_requests host frame world (beats_regular _ member)
  · intro beat member other
    exact other_requests (beats_regular beat member) other
  · change (fresh.recordedRun host calls).2.countP _ ≤ (fresh.recordedRun host calls).2.countP _
    rw [recorded]
    exact damage_le_launches beats_regular turns
  · have cooldown : Queue.effectiveDelay config.attackCooldown = widen config.attackCooldown :=
      (accepted_delay valid .attackCooldown).2
    have windup : Queue.effectiveDelay config.attackWindup = widen config.attackWindup :=
      (accepted_delay valid .attackWindup).2
    have chain := paced.chain
    simp only [Config.nextHit, cooldown, windup, List.nil_append] at chain
    exact chain

/-- A brain that is ticked, waits out its attack, and is ticked again next to
its target launches twice. -/
theorem recruit_attacks_twice :
    let stream := (recruit.recordedRun Sandbox.host
      [.tick ⟨0, 0.5, 0⟩ neighbours, .tick ⟨1, 0.5, 0.5⟩ neighbours,
        .tick ⟨2, 4, 1⟩ neighbours]).2
    stream.countP Request.isLaunch = 2 ∧ stream.countP Request.isDamage ≤ 2 := by
  intro stream
  have launches : stream.countP Request.isLaunch = 2 := by decide +kernel
  obtain ⟨-, -, -, -, few, -⟩ := attacks_are_accounted_for Sandbox.host create_recruit
    [.tick ⟨0, 0.5, 0⟩ neighbours, .tick ⟨1, 0.5, 0.5⟩ neighbours, .tick ⟨2, 4, 1⟩ neighbours]
  exact ⟨launches, launches ▸ few⟩

end Sentry.Enemy
