import Sentry.Proofs.Enemy.Requests

/-! Enemies that share a world. As long as nothing that enemies do makes the
host answer otherwise where agents and targets are, none of them learns of the
others, and none learns whether it has hit anything. -/
namespace Sentry.Enemy

variable {α τ ω ω' : Type}

/-! ## Still worlds -/

/-- Where agents and their targets are. -/
structure Places (α : Type) where
  own : α → Option Vec
  target : α → Option Vec

/-- The places that a host tells of. -/
def Host.places (host : Host α τ ω) (world : ω) : Places α :=
  ⟨host.position world, host.targetPosition world⟩

/-- What commands and searches can make of a world. -/
inductive Host.Reaches (host : Host α τ ω) (world : ω) : ω → Prop where
  | here : Reaches host world world
  | perform (command : Command α τ) {now} (earlier : Reaches host world now) :
      Reaches host world (host.perform command now)
  | query (area : AreaQuery) {now} (earlier : Reaches host world now) :
      Reaches host world (host.query area now).2

/-- Nothing that is asked of the host moves anyone. -/
def Host.Still (host : Host α τ ω) (places : Places α) (world : ω) : Prop :=
  ∀ now, host.Reaches world now → host.places now = places

section
variable {host : Host α τ ω} {world now later : ω} {places : Places α}

theorem reaches_trans (first : host.Reaches world now) (second : host.Reaches now later) :
    host.Reaches world later := by
  induction second with
  | here => exact first
  | perform command _ ih => exact .perform command ih
  | query area _ ih => exact .query area ih

theorem still_later (still : host.Still places world) (reaches : host.Reaches world now) :
    host.Still places now :=
  fun later further => still later (reaches_trans reaches further)

theorem performAll_reaches (host : Host α τ ω) (commands : List (Command α τ)) (world : ω) :
    host.Reaches world (host.performAll commands world) := by
  induction commands generalizing world with
  | nil => exact .here
  | cons command rest ih => exact reaches_trans (.perform command .here) (ih _)

theorem ring_reaches (host : Host α τ ω) (agent : α) (config : Config) (alarm : Alarm)
    (scene : Scene ω) : host.Reaches scene.world (scene.ring host agent config alarm).world := by
  cases alarm with
  | hit =>
    unfold Scene.ring Scene.resolveHit
    dsimp only
    split
    · exact .here
    · split
      · exact .perform _ (.query _ .here)
      · exact .query _ .here
  | ready => exact .here
  | recovered => exact .here

theorem settle_reaches (host : Host α τ ω) (frame : Frame) (b : Brain α) (world : ω) :
    host.Reaches world (b.settle host frame world).2 := by
  fun_induction Brain.trail host frame b world with
  | case1 b world quiet pops =>
    rw [settle_quiet pops]
    exact .here
  | case2 b world alarm popped pops ih =>
    rw [settle_rings pops]
    exact reaches_trans (ring_reaches host b.agent b.config alarm ⟨world, _⟩) ih

theorem tick_reaches (host : Host α τ ω) (frame : Frame) (b : Brain α) (world : ω) :
    host.Reaches world (b.tick host frame world).around := by
  have settled := settle_reaches host frame (b.woken frame) world
  obtain ⟨commands, given, -⟩ := decide_directs host frame (b.settled host frame world).1
    (b.settled host frame world).2
  have decided := performAll_reaches host commands (b.settled host frame world).2
  rw [← given] at decided
  exact reaches_trans settled decided

/-- Worlds that change alike under a view reach alike. -/
theorem reaches_view {mirror : Host α τ ω'} (view : ω' → ω) {start now : ω'}
    (reaches : mirror.Reaches start now)
    (performs : ∀ command now, view (mirror.perform command now) = host.perform command (view now))
    (queries : ∀ area now, view (mirror.query area now).2 = (host.query area (view now)).2) :
    host.Reaches (view start) (view now) := by
  induction reaches with
  | here => exact .here
  | perform command _ ih =>
    rw [performs]
    exact .perform command ih
  | query area _ ih =>
    rw [queries]
    exact .query area ih

/-- A recorded world is still if the world is. -/
theorem recorded_still (still : host.Still places world) (log : List (Request α τ)) :
    host.recorded.Still places (world, log) := by
  intro now reaches
  have under : host.Reaches world now.1 :=
    reaches_view Prod.fst reaches (fun _ _ => rfl) (fun _ _ => rfl)
  exact still now.1 under

/-- The host, but what it finds for enemies to hit is made up. -/
def Host.finding (host : Host α τ ω) (found : AreaQuery → ω → Option τ) : Host α τ ω :=
  { host with query := fun area world => (found area world, (host.query area world).2) }

theorem finding_still (still : host.Still places world) (found : AreaQuery → ω → Option τ) :
    (host.finding found).Still places world := by
  intro now reaches
  have same : host.Reaches world now :=
    reaches_view id reaches (fun _ _ => rfl) (fun _ _ => rfl)
  exact still now same

end

/-! ## Alarms -/

section
variable {τ' : Type} (host : Host α τ ω) (host' : Host α τ' ω') (frame : Frame) (b : Brain α)
  (world : ω) (world' : ω')

theorem handle_brain (alarm : Alarm) :
    (b.handle host frame alarm world).1 = (b.handle host' frame alarm world').1 := by
  unfold Brain.handle
  dsimp only
  rw [ring_state, ring_state]

/-- Alarms do to a brain what they do in any other world. -/
theorem settle_brain : (b.settle host frame world).1 = (b.settle host' frame world').1 := by
  fun_induction Brain.trail host frame b world generalizing world' with
  | case1 b world quiet pops =>
    rw [settle_quiet pops, settle_quiet pops]
  | case2 b world alarm popped pops ih =>
    have same := handle_brain host host' frame (b.withAlarms popped) world world' alarm
    rw [settle_rings pops, settle_rings pops, ← same]
    exact ih _

end

/-! ## Evaluations -/

/-- The host, finding nothing. -/
def Host.blind (host : Host α τ ω) : Host α τ ω :=
  { host with query := fun _ world => (none, world) }

/-- A world of commands, in which everyone stays in place. -/
def Host.script (places : Places α) : Host α τ (List (Command α τ)) where
  position _ := places.own
  targetPosition _ := places.target
  query _ commands := (none, commands)
  perform command commands := commands ++ [command]

theorem leaf_blind (host : Host α τ ω) (agent : α) :
    Leaf.run host.blind agent = Leaf.run host agent := by
  funext leaf scene
  cases leaf <;> rfl

section
variable {host : Host α τ ω} {places : Places α} {world : ω}

theorem still_places (still : host.Still places world) (commands : List (Command α τ)) (agent : α) :
    host.position (host.performAll commands world) agent = places.own agent ∧
      host.targetPosition (host.performAll commands world) agent = places.target agent := by
  have same := still _ (performAll_reaches host commands world)
  rw [← same]
  exact ⟨rfl, rfl⟩

/-- A script mirrors any still world. -/
theorem script_mirrors (still : host.Still places world) :
    Mirrors (Host.script places) host.blind fun commands => host.performAll commands world := by
  constructor
  case position =>
    intro commands agent
    exact (still_places still commands agent).1.symm
  case targetPosition =>
    intro commands agent
    exact (still_places still commands agent).2.symm
  case query =>
    intro area commands
    rfl
  case perform =>
    intro command commands
    exact (performAll_append host commands [command] world).symm

/-- What a brain decides in a still world: the brain afterwards, and commands. -/
def Brain.plan (places : Places α) (frame : Frame) (b : Brain α) :
    Brain α × List (Command α τ) :=
  Beat.act (Host.script places) ⟨.evaluation, frame, b, []⟩

/-- In a still world an evaluation carries out the plan. -/
theorem evaluation_act (still : host.Still places world) (frame : Frame) (b : Brain α) :
    let plan : Brain α × List (Command α τ) := b.plan places frame
    (Beat.mk .evaluation frame b world).act host = (plan.1, host.performAll plan.2 world) := by
  have mirrored := act_mirror (script_mirrors still) ⟨.evaluation, frame, b, []⟩
  -- A script knows of nothing to hit, but an evaluation does not search.
  have blind : (Beat.mk .evaluation frame b world).act host.blind =
      (Beat.mk .evaluation frame b world).act host := by
    unfold Beat.act Brain.decide
    simp only [leaf_blind]
  rw [← blind]
  exact mirrored

theorem evaluation_planned (still : host.Still places world) (frame : Frame) (b : Brain α) :
    (Beat.mk .evaluation frame b world).requests host =
      (b.plan places frame).2.map Request.command := by
  have recorded := evaluation_act (recorded_still still []) frame b
  simp only [performAll_recorded] at recorded
  exact congrArg (·.2.2) recorded

end

/-! ## One brain in two worlds -/

/-- What is asked for, but for damage. -/
def outline (stream : List (Request α τ)) : List (Request α τ) :=
  stream.filter fun request => !request.isDamage

theorem outline_append (earlier later : List (Request α τ)) :
    outline (earlier ++ later) = outline earlier ++ outline later :=
  List.filter_append earlier later

section
variable {host : Host α τ ω} {host' : Host α τ ω'} {places : Places α} {world : ω} {world' : ω'}

theorem strike_outline (still : host.Still places world) (agent : α) (config : Config)
    (state : State) : outline (strike host agent config state world) =
      match places.own agent with
      | none => []
      | some position =>
        [.query ⟨struckAt config position state.facing, config.attackRadius,
          config.targetLayer⟩] := by
  have own : host.position world agent = places.own agent := (still_places still [] agent).1
  unfold strike
  rw [own]
  cases places.own agent with
  | none => rfl
  | some position =>
    dsimp only
    split <;> rfl

theorem alarm_outline (still : host.Still places world) (still' : host'.Still places world')
    (frame : Frame) (b : Brain α) (alarm : Alarm) :
    outline ((Beat.mk (.alarm alarm) frame b world).requests host) =
      outline ((Beat.mk (.alarm alarm) frame b world').requests host') := by
  by_cases strikes : alarm = .hit
  · subst strikes
    rw [strike_requests, strike_requests, strike_outline still, strike_outline still']
  · rw [other_alarm_requests host frame world strikes,
      other_alarm_requests host' frame world' strikes]

theorem trail_outline (still : host.Still places world) (still' : host'.Still places world')
    (frame : Frame) (b : Brain α) :
    outline ((b.trail host frame world).flatMap (Beat.requests host)) =
      outline ((b.trail host' frame world').flatMap (Beat.requests host')) := by
  fun_induction Brain.trail host frame b world generalizing world' with
  | case1 b world quiet pops =>
    rw [trail_quiet pops]
    rfl
  | case2 b world alarm popped pops ih =>
    have later := still_later still
      (ring_reaches host b.agent b.config alarm ⟨world, (b.withAlarms popped).state⟩)
    have later' := still_later still'
      (ring_reaches host' b.agent b.config alarm ⟨world', (b.withAlarms popped).state⟩)
    -- The brains stay equal, so the same alarm is next in both worlds.
    have same := handle_brain host host' frame (b.withAlarms popped) world world' alarm
    rw [trail_rings pops, List.flatMap_cons, List.flatMap_cons, outline_append, outline_append,
      alarm_outline still still', ← same]
    exact congrArg _ (ih later later')

theorem evaluation_still (still : host.Still places world) (frame : Frame) (b : Brain α) :
    let plan : Brain α × List (Command α τ) :=
      ((b.woken frame).settle host frame world).1.plan places frame
    (b.tick host frame world).node = plan.1 ∧
      (b.evaluation host frame world).requests host = plan.2.map Request.command := by
  have settled := still_later still (settle_reaches host frame (b.woken frame) world)
  have decided := evaluation_act settled frame ((b.woken frame).settle host frame world).1
  exact ⟨congrArg Prod.fst decided, evaluation_planned settled frame _⟩

/-- A brain becomes the same in any two worlds that stay still and agree where
everyone is. -/
theorem tick_still (still : host.Still places world) (still' : host'.Still places world')
    (frame : Frame) (b : Brain α) :
    (b.tick host frame world).node = (b.tick host' frame world').node := by
  have decided := (evaluation_still still frame b).1
  have decided' := (evaluation_still still' frame b).1
  rw [settle_brain host host' frame (b.woken frame) world world'] at decided
  exact decided.trans decided'.symm

/-- It also asks for the same, but for damage. -/
theorem requests_still (still : host.Still places world) (still' : host'.Still places world')
    (frame : Frame) (b : Brain α) :
    outline (b.requests host frame world) = outline (b.requests host' frame world') := by
  have decided := (evaluation_still still frame b).2
  have decided' := (evaluation_still still' frame b).2
  rw [settle_brain host host' frame (b.woken frame) world world'] at decided
  rw [Brain.requests, Brain.requests, Brain.beats, Brain.beats, List.flatMap_append,
    List.flatMap_append, List.flatMap_singleton, List.flatMap_singleton, decided, decided',
    outline_append, outline_append, trail_outline still still']

end

/-! ## A squad -/

section
variable {host : Host α τ ω} {places : Places α} {world : ω}

theorem turns_still (still : host.Still places world) (frame : Frame) (brains : List (Brain α)) :
    ∀ turn ∈ Squad.turns host frame brains world, host.Still places turn.2 := by
  induction brains generalizing world with
  | nil => simp [Squad.turns]
  | cons b rest ih =>
    rw [Squad.turns, List.forall_mem_cons]
    exact ⟨still, ih (still_later still (tick_reaches host frame b world))⟩

/-- All brains of a squad become what they would have become alone. -/
theorem tickInOrder_still (still : host.Still places world) (frame : Frame)
    (brains : List (Brain α)) :
    (Squad.tickInOrder host frame brains world).1 =
      brains.map fun b => (b.tick host frame world).node := by
  have each : ∀ turn ∈ Squad.turns host frame brains world,
      (turn.1.tick host frame turn.2).node = (turn.1.tick host frame world).node :=
    fun turn member => tick_still (turns_still still frame brains turn member) still frame turn.1
  have brains_of := Squad.turns_brains host frame brains world
  rw [Squad.tickInOrder_eq, List.map_congr_left each]
  conv => rhs; rw [← brains_of, List.map_map]
  rfl

/-- Together they ask for what each of them would have asked for alone, but for
damage. -/
theorem squad_requests_still (still : host.Still places world) (frame : Frame)
    (brains : List (Brain α)) :
    outline (Squad.requests host frame brains world) =
      brains.flatMap fun b => outline (b.requests host frame world) := by
  have each : ∀ turn ∈ Squad.turns host frame brains world,
      outline (turn.1.requests host frame turn.2) = outline (turn.1.requests host frame world) :=
    fun turn member =>
      requests_still (turns_still still frame brains turn member) still frame turn.1
  have brains_of := Squad.turns_brains host frame brains world
  calc outline (Squad.requests host frame brains world)
      = (Squad.turns host frame brains world).flatMap fun turn =>
          outline (turn.1.requests host frame turn.2) := List.filter_flatMap
    _ = (Squad.turns host frame brains world).flatMap fun turn =>
          outline (turn.1.requests host frame world) := List.flatMap_congr each
    _ = ((Squad.turns host frame brains world).map Prod.fst).flatMap fun b =>
          outline (b.requests host frame world) :=
        (List.flatMap_map Prod.fst
          (fun b : Brain α => outline (b.requests host frame world)) _).symm
    _ = brains.flatMap fun b => outline (b.requests host frame world) := by rw [brains_of]

end

/-- Enemies that share a world are alone in it, if nothing that is asked of the
host moves anyone. In a frame every brain becomes what it would have become alone
in the world before the frame, whatever there is to hit. All that the host is
asked for, turn by turn, is what each brain would have asked for alone, but for
the damage after its searches, and each brain asks for itself. -/
theorem agents_are_isolated [StableId α] (host : Host α τ ω) (frame : Frame)
    (brains : List (Brain α)) (world : ω) (found : AreaQuery → ω → Option τ)
    (still : host.Still (host.places world) world) :
    let solo := fun b : Brain α => b.tick host.recorded frame (world, [])
    let alone := (Squad.ordered brains).map fun b => (solo b).node
    let stream := (Squad.tick host.recorded frame brains (world, [])).2.2
    let turns := Squad.turns host frame (Squad.ordered brains) world
    (Squad.tick host frame brains world).1 = alone ∧
      (Squad.tick (host.finding found) frame brains world).1 = alone ∧
      outline stream = (Squad.ordered brains).flatMap (fun b => outline (solo b).around.2) ∧
      outline (Squad.tick (host.finding found).recorded frame brains (world, [])).2.2 =
        outline stream ∧
      stream = turns.flatMap (fun turn => turn.1.requests host frame turn.2) ∧
      ∀ turn ∈ turns, outline (turn.1.requests host frame turn.2) =
          outline (solo turn.1).around.2 ∧
        Addressed turn.1.agent (turn.1.requests host frame turn.2) := by
  intro solo alone stream turns
  have solo_node : ∀ b, (solo b).node = (b.tick host frame world).node :=
    fun b => congrArg Prod.fst (tick_recorded host frame b world [])
  have solo_asks : ∀ b, (solo b).around.2 = b.requests host frame world :=
    fun b => congrArg (·.2.2) (tick_recorded host frame b world [])
  have asked : stream = Squad.requests host frame (Squad.ordered brains) world :=
    congrArg (·.2.2) (Squad.tickInOrder_recorded host frame (Squad.ordered brains) world [])
  have found_still := finding_still still found
  refine ⟨?_, ?_, ?_, ?_, asked, ?_⟩
  · rw [Squad.tick, tickInOrder_still still]
    exact List.map_congr_left fun b _ => (solo_node b).symm
  · rw [Squad.tick, tickInOrder_still found_still]
    apply List.map_congr_left
    intro b _
    rw [solo_node]
    exact tick_still found_still still frame b
  · rw [asked, squad_requests_still still]
    apply List.flatMap_congr
    intro b _
    rw [solo_asks]
  · have found_asked := congrArg (·.2.2) (Squad.tickInOrder_recorded (host.finding found) frame
      (Squad.ordered brains) world [])
    have outlined := (congrArg outline found_asked).trans (squad_requests_still found_still frame _)
    rw [asked, squad_requests_still still]
    refine outlined.trans ?_
    apply List.flatMap_congr
    intro b _
    exact requests_still found_still still frame b
  · intro turn member
    rw [solo_asks]
    exact ⟨requests_still (turns_still still frame _ turn member) still frame turn.1,
      requests_addressed host frame turn.1 turn.2⟩

/-- A sandbox moves nobody within a frame. -/
theorem sandbox_still (sandbox : Sandbox) :
    Sandbox.host.Still (Sandbox.host.places sandbox) sandbox := by
  have charts : ∀ now, Sandbox.host.Reaches sandbox now →
      now.positions = sandbox.positions ∧ now.targets = sandbox.targets := by
    intro now reaches
    induction reaches with
    | here => exact ⟨rfl, rfl⟩
    | perform command _ ih => cases command <;> exact ih
    | query area _ ih => exact ih
  intro now reaches
  obtain ⟨positions, targets⟩ := charts now reaches
  unfold Host.places Sandbox.host
  dsimp only
  rw [positions, targets]

/-- Two raiders of one number hit in the same frame, and the first leaves nothing
to the second. Both go on as if they were alone. -/
theorem raiders_share_prey :
    let raider := (recruit.tick Sandbox.host ⟨0, 0.5, 0⟩ neighbours).node
    let prey : Sandbox := { neighbours with hittables := [⟨1, ⟨0.5, 0⟩, .player, 1⟩] }
    let alone := raider.tick Sandbox.host.recorded ⟨1, 0.5, 0.5⟩ (prey, [])
    let both := (Squad.tick Sandbox.host.recorded ⟨1, 0.5, 0.5⟩ [raider, raider] (prey, [])).2.2
    Sandbox.host.Still (Sandbox.host.places prey) prey ∧
      (Squad.tick Sandbox.host ⟨1, 0.5, 0.5⟩ [raider, raider] prey).1 =
        [alone.node, alone.node] ∧
      outline both = outline alone.around.2 ++ outline alone.around.2 ∧
      alone.around.2.countP Request.isDamage = 1 ∧ both.countP Request.isDamage = 1 := by
  intro raider prey alone both
  have still := sandbox_still prey
  have rises : Squad.Rising [raider, raider] := by
    simp [Squad.Rising]
  have in_order := Squad.ordered_of_rising rises
  obtain ⟨apart, -, asked, -, -, -⟩ := agents_are_isolated Sandbox.host ⟨1, 0.5, 0.5⟩
    [raider, raider] prey (fun _ _ => none) still
  rw [in_order] at apart asked
  refine ⟨still, apart, ?_, by decide +kernel, ?_⟩
  · rw [asked]
    simp only [List.flatMap_cons, List.flatMap_nil, List.append_nil]
    rfl
  · unfold both
    rw [Squad.tick, in_order]
    decide +kernel

end Sentry.Enemy
