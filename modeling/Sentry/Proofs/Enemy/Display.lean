import Sentry.Proofs.Enemy.Peers
import Sentry.Proofs.Enemy.Timeline

/-! What is shown. The label of an enemy is for observers only. Where a world
merely records announcements, brains alike but for the label do the same and ask
for the same, announcements apart. The first tick gives them the same label, and
from then on nothing tells them apart. -/
namespace Sentry.Enemy

variable {α τ ω ω' : Type}

/-! ## Deaf hosts -/

/-- Announcements change nothing. -/
def Host.Deaf (host : Host α τ ω) : Prop :=
  ∀ agent label world, host.perform (.animate agent label) world = world

/-- The tree is that of the settings. -/
def Brain.Planned (b : Brain α) : Prop :=
  b.decider.root = some (policy b.config)

section
variable {host : Host α τ ω} {b b' : Brain α} {label : Label}

theorem enter_deaf (deaf : host.Deaf) (agent : α) (label : Label) (scene : Scene ω) :
    scene.enter host agent label = ⟨scene.world, scene.state.labelled label⟩ := by
  unfold Scene.enter
  split
  next => rfl
  next => exact congrArg (Scene.mk · _) (deaf agent label scene.world)

/-- Every response writes the label, and none reads it but to announce it. -/
theorem respond_deaf (deaf : host.Deaf) (agent : α) (config : Config) (world : ω) (s : State) :
    Scene.respond host agent config ⟨world, s.labelled label⟩ =
      Scene.respond host agent config ⟨world, s⟩ := by
  have entered : ∀ new, Scene.enter host agent new ⟨world, s.labelled label⟩ =
      Scene.enter host agent new ⟨world, s⟩ := by
    intro new
    rw [enter_deaf deaf, enter_deaf deaf]
    rfl
  unfold Scene.respond
  rw [entered, entered, entered, entered]
  rfl

theorem decide_deaf (deaf : host.Deaf) (planned : b.Planned)
    (peers : Peers (b.labelled label) b') (frame : Frame) (world : ω) :
    let done := b.decide host frame world
    let done' := b'.decide host frame world
    (done'.status = done.status ∧ Peers done.node done'.node ∧ done'.around = done.around) ∧
      done.node.Planned := by
  have responded : Scene.respond host b'.agent b.config ⟨world, b'.state⟩ =
      Scene.respond host b.agent b.config ⟨world, b.state⟩ := by
    rw [peers.agent, peers.state]
    exact respond_deaf deaf b.agent b.config world b.state
  have root : b.decider.root = some (policy b.config) := planned
  have root' : b'.decider.root = some (policy b.config) := peers.root.trans planned
  unfold Brain.decide Decider.evaluate
  simp only [root, root', policy_tick, responded]
  refine ⟨⟨trivial, ?_, trivial⟩, ?_⟩
  · split <;> split <;> exact ⟨peers.agent, peers.config, rfl, rfl⟩
  · split <;> rfl

/-- A tick makes the labels equal. -/
theorem tick_deaf (deaf : host.Deaf) (planned : b.Planned) (peers : Peers (b.labelled label) b')
    (frame : Frame) (world : ω) :
    let done := b.tick host frame world
    let done' := b'.tick host frame world
    (done'.status = done.status ∧ Peers done.node done'.node ∧ done'.around = done.around) ∧
      done.node.Planned := by
  obtain ⟨⟨settled, same_world⟩, -⟩ :=
    settled_peers host peers (rfl : frame.effective = frame.effective) world
  obtain ⟨-, -, config, decider⟩ := settle_spares host frame (b.woken frame) world
  have still_planned : (b.settled host frame world).1.Planned := by
    unfold Brain.Planned Brain.settled
    rw [decider, config]
    exact planned
  rw [tick_eq, tick_eq, same_world]
  exact decide_deaf deaf still_planned settled frame _

theorem stun_planned (host : Host α τ ω) (planned : b.Planned) (frame : Frame) (world : ω) :
    (b.requestStun host frame world).2.1.Planned := by
  unfold Brain.requestStun Brain.Planned
  dsimp only
  split <;> exact planned

end

/-! ## Records of announcements -/

/-- Announcements go to a record that a world keeps, and that a view of the world
leaves out. Nothing that an enemy asks for depends on it. -/
structure Records (host : Host α τ ω') (core : Host α τ ω) (view : ω' → ω) : Prop extends
    Mirrors host core view where
  deaf : core.Deaf

/-- The step does not look at the record. -/
def Step.Respects (view : ω' → ω) : Step ω' → Prop
  | .change effect => ∀ {world world'}, view world' = view world →
      view (effect world') = view (effect world)
  | _ => True

/-- The request is to show a new label. -/
def Request.isAnnouncement : Request α τ → Bool
  | .command order => order.isAnnouncement
  | .query _ => false

theorem exists_of_isAnnouncement {order : Command α τ} (heard : order.isAnnouncement = true) :
    ∃ agent label, order = .animate agent label := by
  cases order with
  | animate agent label => exact ⟨agent, label, rfl⟩
  | _ => cases heard

/-- All requests but announcements. -/
def hushed (log : List (Request α τ)) : List (Request α τ) :=
  log.filter fun request => !request.isAnnouncement

/-- The same host, keeping a list of all requests but announcements. -/
def Host.hushed (host : Host α τ ω) : Host α τ (ω × List (Request α τ)) :=
  { host.recorded with
    perform := fun command world =>
      if command.isAnnouncement then world else host.recorded.perform command world }

/-- A recorded world, without its record and without announcements. -/
def unshown (view : ω' → ω) (world : ω' × List (Request α τ)) : ω × List (Request α τ) :=
  (view world.1, hushed world.2)

theorem hushed_deaf (host : Host α τ ω) : host.hushed.Deaf :=
  fun _ _ _ => rfl

section
variable {host : Host α τ ω'} {core : Host α τ ω} {view : ω' → ω}

theorem hushed_mirrors (records : Records host core view) :
    Mirrors host.recorded core.hushed (unshown view) := by
  constructor
  case position => exact fun world agent => records.position world.1 agent
  case targetPosition => exact fun world agent => records.targetPosition world.1 agent
  case query =>
    intro area world
    have asked := records.query area world.1
    simp [Host.hushed, Host.recorded, unshown, hushed, Request.isAnnouncement, asked]
  case perform =>
    intro command world
    have performed := records.perform command world.1
    cases heard : command.isAnnouncement with
    | true =>
      obtain ⟨agent, label, rfl⟩ := exists_of_isAnnouncement heard
      rw [records.deaf] at performed
      simp [Host.hushed, Host.recorded, unshown, hushed, Request.isAnnouncement, heard,
        ← performed]
    | false =>
      simp [Host.hushed, Host.recorded, unshown, hushed, Request.isAnnouncement, heard, performed]

/-! ## Steps -/

variable {first second : Stage α (ω' × List (Request α τ))} {step : Step ω'}

/-- Two stages that only their labels and announcements tell apart. -/
structure Unlike (view : ω' → ω) (first second : Stage α (ω' × List (Request α τ))) : Prop where
  planned : first.brain.Planned
  peers : ∃ label, Peers (first.brain.labelled label) second.brain
  same : unshown view second.world = unshown view first.world

/-- A tick makes brains equal that only their labels tell apart. -/
theorem tick_unlike (records : Records host core view) (unlike : Unlike view first second)
    (frame : Frame) :
    let done := first.step host.recorded (.tick frame)
    let done' := second.step host.recorded (.tick frame)
    done'.1 = done.1 ∧ Peers done.2.brain done'.2.brain ∧ Unlike view done.2 done'.2 := by
  obtain ⟨label, peers⟩ := unlike.peers
  have mirrors := hushed_mirrors records
  have ticked := frame_mirror mirrors frame first.brain first.world
  have ticked' := frame_mirror mirrors frame second.brain second.world
  obtain ⟨⟨status, after, around⟩, planned⟩ := tick_deaf (hushed_deaf core) unlike.planned peers
    frame (unshown view first.world)
  rw [unlike.same] at ticked'
  rw [ticked, ticked'] at status after around
  rw [ticked] at planned
  exact ⟨congrArg Report.status status, after, planned, ⟨_, after⟩, around⟩

theorem step_unlike (records : Records host core view) (respects : step.Respects view)
    (unlike : Unlike view first second) :
    let done := first.step host.recorded step.beside
    let done' := second.step host.recorded step.beside
    done'.1 = done.1 ∧ Unlike view done.2 done'.2 := by
  cases step with
  | tick frame =>
    obtain ⟨status, -, after⟩ := tick_unlike records unlike frame
    exact ⟨status, after⟩
  | stun frame =>
    obtain ⟨label, peers⟩ := unlike.peers
    have mirrors := hushed_mirrors records
    have stunned := stun_mirror mirrors frame first.brain first.world
    have stunned' := stun_mirror mirrors frame second.brain second.world
    obtain ⟨⟨answer, after, around⟩, -⟩ := stun_peers core.hushed peers frame frame
      (unshown view first.world)
    have planned := stun_planned host.recorded unlike.planned frame first.world
    rw [unlike.same] at stunned'
    rw [stunned, stunned'] at answer after around
    exact ⟨congrArg Report.stunned answer, planned, ⟨_, after⟩, around⟩
  | change effect =>
    have shown := congrArg Prod.fst unlike.same
    have noted := congrArg Prod.snd unlike.same
    exact ⟨rfl, unlike.planned, unlike.peers, Prod.ext (respects shown) noted⟩

/-! ## Equals -/

theorem recorded_mirror (mirrors : Mirrors host core view) :
    Mirrors host.recorded core.recorded fun world => (view world.1, world.2) := by
  refine ⟨fun world agent => mirrors.position world.1 agent,
    fun world agent => mirrors.targetPosition world.1 agent, ?_, ?_⟩
  · intro area world
    simp [Host.recorded, mirrors.query]
  · intro command world
    simp [Host.recorded, mirrors.perform]

/-- A step of a recorded host is one of its core, seen through the view, and only
makes the list longer. -/
structure Seen (view : ω' → ω) (log : List (Request α τ))
    (done : Report × Stage α (ω' × List (Request α τ)))
    (seen : Report × Stage α (ω × List (Request α τ))) : Prop where
  report : done.1 = seen.1
  brain : done.2.brain = seen.2.brain
  world : view done.2.world.1 = seen.2.world.1
  asked : done.2.world.2 = log ++ seen.2.world.2

theorem tick_seen (mirrors : Mirrors host core view) (frame : Frame) (b : Brain α)
    (world : ω' × List (Request α τ)) :
    Seen view world.2 ((Stage.mk b world).step host.recorded (.tick frame))
      ((Stage.mk b (view world.1, [])).step core.recorded (.tick frame)) := by
  have later := frame_mirror (recorded_later core world.2) frame b (view world.1, [])
  have ticked := frame_mirror (recorded_mirror mirrors) frame b world
  dsimp only at later
  rw [List.append_nil, ticked] at later
  injection later with status node around
  injection around with place log
  exact ⟨congrArg Report.status status, node, place, log⟩

theorem stun_seen (mirrors : Mirrors host core view) (frame : Frame) (b : Brain α)
    (world : ω' × List (Request α τ)) :
    Seen view world.2 ((Stage.mk b world).step host.recorded (.stun frame))
      ((Stage.mk b (view world.1, [])).step core.recorded (.stun frame)) := by
  have later := stun_mirror (recorded_later core world.2) frame b (view world.1, [])
  have stunned := stun_mirror (recorded_mirror mirrors) frame b world
  dsimp only at later
  rw [List.append_nil, stunned] at later
  injection later with answer after
  injection after with node around
  injection around with place log
  exact ⟨congrArg Report.stunned answer, node, place, log⟩

/-- Two stages that nothing but old records tells apart. Since two older stages
they have asked for the same and traced the same. -/
structure Equal (view : ω' → ω) (start start' first second : Stage α (ω' × List (Request α τ))) :
    Prop where
  peers : Peers first.brain second.brain
  same : view second.world.1 = view first.world.1
  asked : ∃ asked, first.world.2 = start.world.2 ++ asked ∧
    second.world.2 = start'.world.2 ++ asked
  traced : ∃ events, first.brain.recorder = start.brain.recorder.emitAll events ∧
    second.brain.recorder = start'.brain.recorder.emitAll events

variable {start start' : Stage α (ω' × List (Request α τ))}

theorem equal_start (peers : Peers first.brain second.brain)
    (same : view second.world.1 = view first.world.1) :
    Equal view first second first second :=
  ⟨peers, same, ⟨[], (List.append_nil _).symm, (List.append_nil _).symm⟩, [], rfl, rfl⟩

theorem equal_seen (equal : Equal view start start' first second)
    {done done' : Report × Stage α (ω' × List (Request α τ))}
    {seen seen' : Report × Stage α (ω × List (Request α τ))}
    (through : Seen view first.world.2 done seen) (through' : Seen view second.world.2 done' seen')
    (alike : seen'.1 = seen.1 ∧ Peers seen.2.brain seen'.2.brain ∧ seen'.2.world = seen.2.world)
    {tick : UInt64} (noted : Trace.Recorder.Matched tick tick first.brain.recorder
      second.brain.recorder seen.2.brain.recorder seen'.2.brain.recorder) :
    done'.1 = done.1 ∧ Equal view start start' done.2 done'.2 := by
  obtain ⟨report, peers, around⟩ := alike
  obtain ⟨asked, before, before'⟩ := equal.asked
  obtain ⟨events, traced, traced'⟩ := equal.traced
  obtain ⟨notes, after, after'⟩ := noted
  have same := congrArg Prod.fst around
  constructor
  · rw [through.report, through'.report, report]
  constructor
  case peers =>
    rw [through.brain, through'.brain]
    exact peers
  case same => rw [through.world, through'.world, around]
  case asked =>
    refine ⟨asked ++ seen.2.world.2, ?_, ?_⟩
    · rw [through.asked, before, List.append_assoc]
    · rw [through'.asked, before', around, List.append_assoc]
  case traced =>
    refine ⟨events ++ notes.map (·.stamp tick), ?_, ?_⟩
    · rw [through.brain, after, traced, Trace.Recorder.emitAll_append]
    · rw [through'.brain, after', traced', Trace.Recorder.emitAll_append]

theorem step_equal (mirrors : Mirrors host core view) (respects : step.Respects view)
    (equal : Equal view start start' first second) :
    let done := first.step host.recorded step.beside
    let done' := second.step host.recorded step.beside
    done'.1 = done.1 ∧ Equal view start start' done.2 done'.2 := by
  cases step with
  | tick frame =>
    have through := tick_seen mirrors frame first.brain first.world
    have through' := tick_seen mirrors frame second.brain second.world
    rw [equal.same] at through'
    have ticked := tick_peers core.recorded equal.peers (Eq.refl frame.effective)
      (view first.world.1, [])
    obtain ⟨⟨status, after, around⟩, noted⟩ := ticked
    exact equal_seen equal through through' ⟨congrArg Report.status status, after, around⟩ noted
  | stun frame =>
    have through := stun_seen mirrors frame first.brain first.world
    have through' := stun_seen mirrors frame second.brain second.world
    rw [equal.same] at through'
    have labelled : Peers (first.brain.labelled first.brain.state.label) second.brain := equal.peers
    obtain ⟨⟨answer, after, around⟩, noted⟩ := stun_peers core.recorded labelled frame frame
      (view first.world.1, [])
    rw [← requestStun_label core.recorded frame first.brain (view first.world.1, [])] at after
    exact equal_seen equal through through' ⟨congrArg Report.stunned answer, after, around⟩ noted
  | change effect =>
    exact ⟨rfl, equal.peers, respects equal.same, equal.asked, equal.traced⟩

/-! ## Scripts -/

/-- Two steps are one, and it does not look at the record. -/
def Step.Shared (view : ω' → ω) (first second : Step (ω' × List (Request α τ))) : Prop :=
  ∃ step : Step ω', step.Respects view ∧ first = step.beside ∧ second = step.beside

theorem forall_beside {script : List (Step ω')} (respect : ∀ step ∈ script, step.Respects view) :
    List.Forall₂ (@Step.Shared α τ ω ω' view) (script.map Step.beside)
      (script.map Step.beside) := by
  rw [List.forall₂_map_left_iff, List.forall₂_map_right_iff, List.forall₂_same]
  exact fun step member => ⟨step, respect step member, rfl, rfl⟩

theorem play_unlike (records : Records host core view) {script : List (Step ω')}
    (respect : ∀ step ∈ script, step.Respects view) (unlike : Unlike view first second) :
    let done := first.play host.recorded (script.map Step.beside)
    let done' := second.play host.recorded (script.map Step.beside)
    done'.1 = done.1 ∧ Unlike view done.2 done'.2 := by
  apply play_related (Unlike view) ?_ (forall_beside respect) unlike
  rintro first second - - unlike ⟨step, respects, rfl, rfl⟩
  exact step_unlike records respects unlike

theorem play_equal (mirrors : Mirrors host core view) {script : List (Step ω')}
    (respect : ∀ step ∈ script, step.Respects view) (equal : Equal view start start' first second) :
    let done := first.play host.recorded (script.map Step.beside)
    let done' := second.play host.recorded (script.map Step.beside)
    done'.1 = done.1 ∧ Equal view start start' done.2 done'.2 := by
  apply play_related (Equal view start start') ?_ (forall_beside respect) equal
  rintro first second - - equal ⟨step, respects, rfl, rfl⟩
  exact step_equal mirrors respects equal

end

/-- The label is for observers only. Let a world merely record announcements, and
let two brains of the same settings differ in nothing but their labels. Whatever
a host does with each of them, they report the same and leave the same world but
for its record, their brains differ in nothing but the label, and they ask for the
same, announcements apart. After the first tick the labels are equal too, and from
then on they ask for the same and trace the same, announcements included. -/
theorem label_is_for_show {host : Host α τ ω'} {core : Host α τ ω} {view : ω' → ω}
    (records : Records host core view) {b b' : Brain α} {label : Label} (planned : b.Planned)
    (peers : Peers (b.labelled label) b') (world : ω') :
    let play := fun (b : Brain α) (script : List (Step ω')) =>
      (((Stage.mk b world).beside ([] : List (Request α τ))).play host.recorded
        (script.map Step.beside))
    (∀ script : List (Step ω'), (∀ step ∈ script, step.Respects view) →
      let done := play b script
      let done' := play b' script
      done'.1 = done.1 ∧ (∃ label, Peers (done.2.brain.labelled label) done'.2.brain) ∧
        view done'.2.world.1 = view done.2.world.1 ∧
        hushed done'.2.world.2 = hushed done.2.world.2) ∧
      ∀ (early later : List (Step ω')) (frame : Frame),
        (∀ step ∈ early ++ .tick frame :: later, step.Respects view) →
        let mid := (play b (early ++ [.tick frame])).2
        let mid' := (play b' (early ++ [.tick frame])).2
        let done := (play b (early ++ .tick frame :: later)).2
        let done' := (play b' (early ++ .tick frame :: later)).2
        Peers mid.brain mid'.brain ∧ Peers done.brain done'.brain ∧
          (∃ asked, done.world.2 = mid.world.2 ++ asked ∧ done'.world.2 = mid'.world.2 ++ asked) ∧
          ∃ events, done.brain.recorder = mid.brain.recorder.emitAll events ∧
            done'.brain.recorder = mid'.brain.recorder.emitAll events := by
  intro play
  have start : Unlike view ((Stage.mk b world).beside ([] : List (Request α τ)))
      ((Stage.mk b' world).beside []) := ⟨planned, ⟨label, peers⟩, rfl⟩
  constructor
  · intro script respect done done'
    obtain ⟨reports, after⟩ := play_unlike records respect start
    exact ⟨reports, after.peers, congrArg Prod.fst after.same, congrArg Prod.snd after.same⟩
  · intro early later frame respect mid mid' done done'
    rw [List.forall_mem_append, List.forall_mem_cons] at respect
    obtain ⟨respect_early, -, respect_later⟩ := respect
    have begun := (play_unlike records respect_early start).2
    obtain ⟨-, peers_mid, unlike_mid⟩ := tick_unlike records begun frame
    have at_mid : ∀ b, (play b (early ++ [.tick frame])).2 =
        ((play b early).2.step host.recorded (.tick frame)).2 := by
      intro b
      unfold play
      rw [List.map_append, play_append]
      rfl
    have at_end : ∀ b, (play b (early ++ .tick frame :: later)).2 =
        ((play b (early ++ [.tick frame])).2.play host.recorded (later.map Step.beside)).2 := by
      intro b
      unfold play
      rw [List.append_cons, List.map_append, play_append]
    have equal : Equal view mid mid' mid mid' := by
      unfold mid mid'
      rw [at_mid, at_mid]
      exact equal_start peers_mid (congrArg Prod.fst unlike_mid.same)
    have after := (play_equal records.toMirrors respect_later equal).2
    rw [← at_end, ← at_end] at after
    exact ⟨equal.peers, after.peers, after.asked, after.traced⟩

theorem recorded_records {host : Host α τ ω} (deaf : host.Deaf) :
    Records host.recorded host Prod.fst :=
  { recorded_mirrors host with deaf }

/-- A recruit that is already shown as attacking does not announce that it attacks.
Both attack, and are told apart no longer. -/
theorem shown_recruit_does_the_same :
    let shown := recruit.labelled .attack
    let later : List (Step (Sandbox × List (Request UInt64 UInt64))) :=
      [.change fun world => (Sandbox.drift 0.5 world.1, world.2), .stun ⟨1, 0.5, 0.5⟩,
        .tick ⟨1, 0.5, 0.5⟩]
    let play := fun (b : Brain UInt64) script =>
      ((Stage.mk b (neighbours, ([] : List (Request UInt64 UInt64)))).beside
        ([] : List (Request UInt64 UInt64))).play Sandbox.host.recorded.recorded
          (script.map Step.beside)
    let mid := (play recruit [.tick ⟨0, 0.5, 0⟩]).2
    let mid' := (play shown [.tick ⟨0, 0.5, 0⟩]).2
    let done := (play recruit (.tick ⟨0, 0.5, 0⟩ :: later)).2
    let done' := (play shown (.tick ⟨0, 0.5, 0⟩ :: later)).2
    Records Sandbox.host.recorded Sandbox.host Prod.fst ∧
      (recruit.Planned ∧ Peers shown shown ∧ ∀ step ∈ later, step.Respects Prod.fst) ∧
      (mid.world.2.head? = some (.command (.animate 7 .attack)) ∧
        mid'.world.2.head? = some (.command (.stop 7))) ∧
      hushed done'.world.2 = hushed done.world.2 ∧ Peers done.brain done'.brain ∧
      ∃ asked, done.world.2 = mid.world.2 ++ asked ∧ done'.world.2 = mid'.world.2 ++ asked := by
  intro shown later play mid mid' done done'
  have deaf : Sandbox.host.Deaf := fun _ _ _ => rfl
  have records := recorded_records deaf
  have peers : Peers (recruit.labelled .attack) shown := ⟨rfl, rfl, rfl, rfl⟩
  have respect : ∀ step ∈ later, step.Respects Prod.fst := by
    simp only [later, List.forall_mem_cons]
    exact ⟨fun same => congrArg (Sandbox.drift 0.5) same, trivial, trivial, by simp⟩
  have respect_all : ∀ step ∈ .tick ⟨0, 0.5, 0⟩ :: later, step.Respects Prod.fst :=
    List.forall_mem_cons.mpr ⟨trivial, respect⟩
  obtain ⟨whole, parts⟩ :=
    label_is_for_show records (rfl : recruit.Planned) peers (neighbours, [])
  obtain ⟨-, -, -, quiet⟩ := whole _ respect_all
  obtain ⟨-, after, asked, -⟩ := parts [] later ⟨0, 0.5, 0⟩ respect_all
  exact ⟨records, ⟨rfl, peers, respect⟩, ⟨by decide +kernel, by decide +kernel⟩, quiet, after,
    asked⟩

end Sentry.Enemy
