import Sentry.Proofs.Enemy.Accounting
import Sentry.Proofs.Enemy.Turns

/-! What an enemy asks of its host, whatever tree it has. A command that is about
an agent is about the enemy itself, and damage is done only right after a
search. -/
namespace Sentry

/-! ## Trees -/

namespace Tree

universe u v
variable {ℓ : Type u} {ω : Type v} {run : Runner ℓ ω} (good : ω → Prop)

mutual

/-- What every leaf keeps of its surroundings, the tree keeps. -/
theorem tick_keeps (kept : ∀ leaf around, good around → good (run leaf around).around)
    (tree : Tree ℓ) {around : ω} (start : good around) : good (tree.tick run around).around := by
  cases tree with
  | leaf data =>
    rw [tick]
    exact kept data around start
  | composite kind children =>
    rw [tick]
    exact tickChildren_keeps kept kind children start
  | boxed child =>
    rw [tick]
    exact tick_keeps kept child start

theorem tickChildren_keeps (kept : ∀ leaf around, good around → good (run leaf around).around)
    (kind : Composite) (children : List (Tree ℓ)) {around : ω} (start : good around) :
    good (tickChildren run kind children around).around := by
  cases children with
  | nil => exact start
  | cons child rest =>
    have first := tick_keeps kept child start
    rw [tickChildren]
    dsimp only
    split
    · exact tickChildren_keeps kept kind rest first
    · exact first

end

end Tree

namespace Enemy

variable {α τ ω : Type}

/-! ## Commands of an evaluation -/

/-- The agent that a command is about. -/
def Command.agent? : Command α τ → Option α
  | .move agent _ _ | .animate agent _ | .trigger agent _ | .sound agent _ => some agent
  | .damage _ _ => none

/-- Commands about one agent lead from one world to another. -/
def Host.Directs (host : Host α τ ω) (agent : α) (world after : ω) : Prop :=
  ∃ commands, after = host.performAll commands world ∧
    ∀ command ∈ commands, command.agent? = some agent

section
variable {host : Host α τ ω} {agent : α} {world mid after : ω}

theorem directs_refl (world : ω) : host.Directs agent world world :=
  ⟨[], rfl, by simp⟩

theorem directs_trans (first : host.Directs agent world mid)
    (second : host.Directs agent mid after) : host.Directs agent world after := by
  obtain ⟨earlier, rfl, earlier_named⟩ := first
  obtain ⟨later, rfl, later_named⟩ := second
  refine ⟨earlier ++ later, (performAll_append host earlier later world).symm, ?_⟩
  rw [List.forall_mem_append]
  exact ⟨earlier_named, later_named⟩

end

section
variable (host : Host α τ ω) (agent : α) (scene : Scene ω)

theorem enter_directs (label : Label) :
    host.Directs agent scene.world (scene.enter host agent label).world := by
  rw [enter_eq]
  refine ⟨_, rfl, ?_⟩
  intro command member
  unfold announce at member
  split at member
  · cases member
  · rw [List.mem_singleton.mp member, Command.agent?]

theorem stop_directs : host.Directs agent scene.world (scene.stop host agent).world :=
  ⟨[.stop agent], rfl, by simp [Command.stop, Command.agent?]⟩

theorem attack_directs (windup : Float32) :
    host.Directs agent scene.world (scene.attack host agent windup).world := by
  refine ⟨_, attack_shows host agent windup scene, ?_⟩
  split <;> simp [Command.stop, Command.agent?]

theorem chase_directs (speed : Float32) :
    host.Directs agent scene.world (scene.chase host agent speed).world := by
  obtain ⟨direction, speed', -, moved⟩ := chase_moves host agent speed scene
  exact ⟨_, moved, by simp [Command.agent?]⟩

theorem patrol_directs (route : List Vec) (speed tolerance : Float32) :
    host.Directs agent scene.world (scene.patrol host agent route speed tolerance).world := by
  obtain ⟨direction, speed', -, moved⟩ := patrol_moves host agent route speed tolerance scene
  exact ⟨_, moved, by simp [Command.agent?]⟩

theorem leaf_directs (leaf : Leaf) :
    host.Directs agent scene.world (leaf.run host agent scene).around.world := by
  cases leaf with
  | isStunned => exact directs_refl scene.world
  | canAttack => exact directs_refl scene.world
  | targetWithin band => exact directs_refl scene.world
  | endure =>
    exact directs_trans (enter_directs host agent scene .stunned) (stop_directs host agent _)
  | attack windup =>
    exact directs_trans (enter_directs host agent scene .attack)
      (attack_directs host agent _ windup)
  | chase speed =>
    exact directs_trans (enter_directs host agent scene .chase) (chase_directs host agent _ speed)
  | patrol route speed tolerance =>
    exact directs_trans (enter_directs host agent scene .patrol)
      (patrol_directs host agent _ route speed tolerance)

theorem decide_directs (frame : Frame) (b : Brain α) (world : ω) :
    host.Directs b.agent world (b.decide host frame world).around := by
  unfold Brain.decide Decider.evaluate
  cases b.decider.root with
  | none => exact directs_refl world
  | some tree =>
    apply Tree.tick_keeps fun scene : Scene ω => host.Directs b.agent world scene.world
    · intro leaf scene directs
      exact directs_trans directs (leaf_directs host b.agent scene leaf)
    · exact directs_refl world

end

/-! ## Requests of a beat -/

/-- The agent that a request is about. -/
def Request.agent? : Request α τ → Option α
  | .command given => given.agent?
  | .query _ => none

/-- Damage is done only right after a search. -/
inductive Answered : List (Request α τ) → Prop where
  | nil : Answered []
  | hit {area target amount rest} (later : Answered rest) :
      Answered (.query area :: .command (.damage target amount) :: rest)
  | other {request rest} (harmless : request.isDamage = false) (later : Answered rest) :
      Answered (request :: rest)

theorem answered_append {earlier later : List (Request α τ)} (first : Answered earlier)
    (second : Answered later) : Answered (earlier ++ later) := by
  induction first with
  | nil => exact second
  | hit _ ih => exact .hit ih
  | other harmless _ ih => exact .other harmless ih

/-- Requests about an agent and no other one, and searches with the damage that
follows them. -/
structure Addressed (agent : α) (stream : List (Request α τ)) : Prop where
  named : ∀ request ∈ stream, ∀ other ∈ request.agent?, other = agent
  answered : Answered stream

section
variable {agent : α} {earlier later : List (Request α τ)}

theorem addressed_nil : Addressed agent ([] : List (Request α τ)) :=
  ⟨by simp, .nil⟩

theorem addressed_append (first : Addressed agent earlier) (second : Addressed agent later) :
    Addressed agent (earlier ++ later) := by
  refine ⟨?_, answered_append first.answered second.answered⟩
  rw [List.forall_mem_append]
  exact ⟨first.named, second.named⟩

theorem addressed_commands {commands : List (Command α τ)}
    (named : ∀ command ∈ commands, command.agent? = some agent) :
    Addressed agent (commands.map Request.command) := by
  induction commands with
  | nil => exact addressed_nil
  | cons command rest ih =>
    obtain ⟨first, others⟩ := List.forall_mem_cons.mp named
    obtain ⟨rest_named, rest_answered⟩ := ih others
    constructor
    · rw [List.map_cons, List.forall_mem_cons]
      refine ⟨?_, rest_named⟩
      intro other about
      rw [Request.agent?, first] at about
      exact (Option.mem_some.mp about).symm
    · refine .other ?_ rest_answered
      cases command with
      | damage target amount => cases first
      | _ => rfl

theorem addressed_strike (host : Host α τ ω) (agent : α) (config : Config) (state : State)
    (world : ω) : Addressed agent (strike host agent config state world) := by
  unfold strike
  cases host.position world agent with
  | none => exact addressed_nil
  | some position =>
    dsimp only
    split
    · exact ⟨by simp [Request.agent?, Command.agent?], .hit .nil⟩
    · exact ⟨by simp [Request.agent?], .other rfl .nil⟩

end

section
variable (host : Host α τ ω) (frame : Frame) (b : Brain α) (world : ω)

theorem evaluation_commands : ∃ commands : List (Command α τ),
    (Beat.mk .evaluation frame b world).requests host = commands.map Request.command ∧
      ∀ command ∈ commands, command.agent? = some b.agent := by
  obtain ⟨commands, given, named⟩ := decide_directs host.recorded frame b (world, [])
  refine ⟨commands, ?_, named⟩
  rw [performAll_recorded] at given
  exact congrArg Prod.snd given

theorem beat_addressed (beat : Beat α ω) :
    Addressed beat.brain.agent (beat.requests host) := by
  obtain ⟨cause, frame, b, world⟩ := beat
  cases cause with
  | alarm alarm =>
    by_cases strikes : alarm = .hit
    · subst strikes
      rw [strike_requests]
      exact addressed_strike host b.agent b.config b.state world
    · rw [other_alarm_requests host frame world strikes]
      exact addressed_nil
  | evaluation =>
    obtain ⟨commands, asked, named⟩ := evaluation_commands host frame b world
    rw [asked]
    exact addressed_commands named
  | stun =>
    rw [stun_requests]
    split
    · exact addressed_nil
    · have commands : ∀ command ∈ ([.stop b.agent, .sound b.agent .stun] : List (Command α τ)),
          command.agent? = some b.agent := by
        simp [Command.stop, Command.agent?]
      exact addressed_commands commands

theorem trail_addressed :
    Addressed b.agent ((b.trail host frame world).flatMap (Beat.requests host)) := by
  fun_induction Brain.trail host frame b world with
  | case1 b world quiet pops => exact addressed_nil
  | case2 b world alarm popped pops ih =>
    rw [List.flatMap_cons]
    have first := beat_addressed host ⟨.alarm alarm, frame, b.withAlarms popped, world⟩
    exact addressed_append first ih

/-- All that a brain asks for in a frame is about its own agent, and damage is
done only right after a search. -/
theorem requests_addressed : Addressed b.agent (b.requests host frame world) := by
  have trailed := trail_addressed host frame (b.woken frame) world
  have evaluated := beat_addressed host (b.evaluation host frame world)
  have same : (b.evaluation host frame world).brain.agent = b.agent :=
    settle_agent host frame (b.woken frame) world
  rw [same] at evaluated
  rw [Brain.requests, Brain.beats, List.flatMap_append, List.flatMap_singleton]
  exact addressed_append trailed evaluated

end

end Enemy

end Sentry
