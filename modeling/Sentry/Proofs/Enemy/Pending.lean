import Sentry.Enemy.Squad
import Sentry.Proofs.Enemy.Armed

/-! Pending alarms of a party of enemies. Whatever a host does with its enemies
in whatever worlds, after every beat the alarms that are pending are those the
rest of the state calls for. -/
namespace Sentry.Enemy
open Timer

variable {α τ ω : Type}

/-- How often an alarm is pending. -/
def State.waiting (s : State) (alarm : Alarm) : Nat :=
  (s.alarms.pending.map (·.event)).count alarm

/-- The alarms that are pending agree with the rest of the state. -/
structure Consistent (s : State) : Prop where
  windup : s.waiting .hit = 1 ∧ s.waiting .ready = 0 ↔ s.phase = .windup
  cooldown : s.waiting .ready = 1 ∧ s.waiting .hit = 0 ↔ s.phase = .cooldown
  idle : s.waiting .hit = 0 ∧ s.waiting .ready = 0 ↔ s.phase = .idle
  stun : s.waiting .recovered = if s.isStunned then 1 else 0
  permission : s.canAttack = false ↔ s.phase = .cooldown
  few : s.alarms.pending.length ≤ 2

private theorem length_eq_counts (alarms : List Alarm) :
    alarms.length = alarms.count .hit + alarms.count .ready + alarms.count .recovered := by
  induction alarms with
  | nil => rfl
  | cons alarm rest ih =>
    simp only [List.length_cons, List.count_cons, ih]
    cases alarm <;> simp <;> omega

theorem consistent_of_armed {s : State} (is_armed : s.isArmed) : Consistent s := by
  obtain ⟨hit, ready, release, armed⟩ := is_armed
  have hits : s.waiting .hit = if s.phase = .windup then 1 else 0 := by
    rw [State.waiting, ← Queue.length_dues, armed.windup]
    split <;> rfl
  have readies : s.waiting .ready = if s.phase = .cooldown then 1 else 0 := by
    rw [State.waiting, ← Queue.length_dues, armed.cooldown]
    split <;> rfl
  have stuns : s.waiting .recovered = if s.isStunned then 1 else 0 := by
    rw [State.waiting, ← Queue.length_dues, armed.stun]
    split <;> rfl
  have size : s.alarms.pending.length =
      s.waiting .hit + s.waiting .ready + s.waiting .recovered := by
    rw [← List.length_map (·.event)]
    exact length_eq_counts _
  have few : s.waiting .recovered ≤ 1 := by
    rw [stuns]
    split <;> omega
  refine ⟨?_, ?_, ?_, stuns, ?_, ?_⟩
  · rw [hits, readies]
    cases s.phase <;> simp
  · rw [hits, readies]
    cases s.phase <;> simp
  · rw [hits, readies]
    cases s.phase <;> simp
  · rw [armed.permission]
    cases s.phase <;> simp
  · rw [size, hits, readies]
    cases s.phase <;> simp <;> omega

/-! ## A party -/

/-- What a host does with its enemies. It may change the world before anything
that an enemy does, and keep copies of states to put them back later. -/
inductive Act (α ω : Type) where
  | spawn (agent : α) (config : Config)
  | call (index : Nat) (call : Call ω)
  | tickAll (frame : Frame) (world : ω)
  | save (index : Nat)
  | restore (index slot : Nat)

/-- The enemies of a host, and the states it has kept. -/
structure Party (α : Type) where
  brains : List (Brain α) := []
  saved : List State := []

/-- The beats of a frame of several enemies, in order. -/
def Squad.beats (host : Host α τ ω) (frame : Frame) : List (Brain α) → ω → List (Beat α ω)
  | [], _ => []
  | b :: rest, world =>
    b.beats host (.tick frame world) ++
      Squad.beats host frame rest (b.call host (.tick frame world)).2

namespace Party

variable [StableId α]

/-- The party after an act. An enemy with settings that make no sense does not
come into being. -/
def act (host : Host α τ ω) (party : Party α) : Act α ω → Party α
  | .spawn agent config =>
    match Brain.create agent config with
    | .ok b => { party with brains := party.brains ++ [b] }
    | .error _ => party
  | .call index call =>
    { party with brains := party.brains.modify index fun b => (b.call host call).1 }
  | .tickAll frame world =>
    { party with brains := (Squad.tick host frame party.brains world).1 }
  | .save index =>
    { party with saved := party.saved ++ (party.brains[index]?.map (·.state)).toList }
  | .restore index slot =>
    match party.saved[slot]? with
    | some state => { party with brains := party.brains.modify index ({ · with state }) }
    | none => party

/-- The beats of an act, in order. -/
def beats (host : Host α τ ω) (party : Party α) : Act α ω → List (Beat α ω)
  | .call index call =>
    match party.brains[index]? with
    | some b => b.beats host call
    | none => []
  | .tickAll frame world => Squad.beats host frame (Squad.ordered party.brains) world
  | _ => []

/-- The party after several acts. -/
def run (host : Host α τ ω) (party : Party α) (acts : List (Act α ω)) : Party α :=
  acts.foldl (act host) party

/-- The beats of several acts, in order. -/
def journal (host : Host α τ ω) (party : Party α) : List (Act α ω) → List (Beat α ω)
  | [] => []
  | first :: rest => party.beats host first ++ (party.act host first).journal host rest

end Party

/-- A state in which a brain can be left between two calls. -/
structure Restful (s : State) : Prop where
  sound : Queue.Sound s.alarms
  caught : s.alarms.now = s.alarms.horizon
  armed : s.isArmed

/-- A brain between two calls, with the tree of its settings. -/
structure Poised (b : Brain α) : Prop where
  root : b.decider.root = some (policy b.config)
  restful : Restful b.state

/-- All brains are poised, and could be with any state that was kept. -/
structure Orderly (party : Party α) : Prop where
  brains : ∀ b ∈ party.brains, Poised b
  saved : ∀ s ∈ party.saved, Restful s

section
variable (host : Host α τ ω) {b : Brain α} {party : Party α}

theorem poised_regular (poised : Poised b) : Regular b.agent b.config b :=
  ⟨poised.root, poised.restful.sound, rfl, rfl⟩

/-- A call leaves a brain poised, and its beats are consistent. -/
theorem call_poised (poised : Poised b) (call : Call ω) :
    Poised (b.call host call).1 ∧ ∀ beat ∈ b.beats host call, Consistent (beat.after host) := by
  have regular := poised_regular poised
  have start : b.state.isArmed ∧ ∀ beat ∈ ([] : List (Beat α ω)), (beat.after host).isArmed :=
    ⟨poised.restful.armed, by simp⟩
  obtain ⟨⟨armed, beats_armed⟩, after, caught, -⟩ :=
    call_keeps [] (kept_after (armed_kept host b.agent b.config)) regular poised.restful.caught
      start call
  refine ⟨⟨?_, after.sound, caught, armed⟩, ?_⟩
  · rw [after.config]
    exact after.root
  · intro beat member
    exact consistent_of_armed (beats_armed beat member)

theorem create_poised {agent : α} {config : Config}
    (created : Brain.create agent config = .ok b) : Poised b := by
  obtain ⟨regular, fresh, -⟩ := create_regular created
  refine ⟨?_, ?_⟩
  · rw [regular.config]
    exact regular.root
  · rw [fresh]
    exact ⟨Queue.sound_empty, rfl, 0, 0, 0, armed_start 0 0 0⟩

theorem tickInOrder_poised (frame : Frame) (brains : List (Brain α)) (world : ω)
    (poised : ∀ b ∈ brains, Poised b) :
    (∀ b ∈ (Squad.tickInOrder host frame brains world).1, Poised b) ∧
      ∀ beat ∈ Squad.beats host frame brains world, Consistent (beat.after host) := by
  induction brains generalizing world with
  | nil => simp [Squad.tickInOrder, Squad.beats]
  | cons b rest ih =>
    rw [List.forall_mem_cons] at poised
    obtain ⟨first, consistent⟩ := call_poised host poised.1 (.tick frame world)
    obtain ⟨others, consistent_rest⟩ := ih (b.call host (.tick frame world)).2 poised.2
    rw [Squad.beats, List.forall_mem_append]
    exact ⟨List.forall_mem_cons.mpr ⟨first, others⟩, consistent, consistent_rest⟩

private theorem modify_poised {brains : List (Brain α)} {change : Brain α → Brain α}
    (poised : ∀ b ∈ brains, Poised b) (kept : ∀ b ∈ brains, Poised (change b)) (index : Nat) :
    ∀ b ∈ brains.modify index change, Poised b := by
  intro b member
  obtain ⟨place, inside, rfl⟩ := List.getElem_of_mem member
  rw [List.getElem_modify]
  split
  · exact kept _ (List.getElem_mem _)
  · exact poised _ (List.getElem_mem _)

variable [StableId α]

/-- Every act of a host leaves an orderly party orderly, and its beats are
consistent. -/
theorem act_orderly (orderly : Orderly party) (act : Act α ω) :
    Orderly (party.act host act) ∧
      ∀ beat ∈ party.beats host act, Consistent (beat.after host) := by
  cases act with
  | spawn agent config =>
    refine ⟨?_, by simp [Party.beats]⟩
    unfold Party.act
    dsimp only
    split
    next b created =>
      refine ⟨?_, orderly.saved⟩
      rw [List.forall_mem_append, List.forall_mem_singleton]
      exact ⟨orderly.brains, create_poised created⟩
    next => exact orderly
  | call index call =>
    constructor
    · refine ⟨modify_poised orderly.brains ?_ index, orderly.saved⟩
      intro b member
      exact (call_poised host (orderly.brains b member) call).1
    · unfold Party.beats
      dsimp only
      split
      next b found =>
        exact (call_poised host (orderly.brains b (List.mem_of_getElem? found)) call).2
      next => simp
  | tickAll frame world =>
    have poised : ∀ b ∈ Squad.ordered party.brains, Poised b := by
      intro b member
      exact orderly.brains b (List.mem_mergeSort.mp member)
    obtain ⟨after, consistent⟩ := tickInOrder_poised host frame _ world poised
    exact ⟨⟨after, orderly.saved⟩, consistent⟩
  | save index =>
    refine ⟨⟨orderly.brains, ?_⟩, by simp [Party.beats]⟩
    rw [Party.act, List.forall_mem_append]
    refine ⟨orderly.saved, ?_⟩
    intro s member
    rw [Option.mem_toList, Option.map_eq_some_iff] at member
    obtain ⟨b, found, rfl⟩ := member
    exact (orderly.brains b (List.mem_of_getElem? found)).restful
  | restore index slot =>
    refine ⟨?_, by simp [Party.beats]⟩
    unfold Party.act
    dsimp only
    split
    next s found =>
      refine ⟨modify_poised orderly.brains ?_ index, orderly.saved⟩
      intro b member
      exact ⟨(orderly.brains b member).root, orderly.saved s (List.mem_of_getElem? found)⟩
    next => exact orderly

theorem run_orderly (orderly : Orderly party) (acts : List (Act α ω)) :
    Orderly (party.run host acts) ∧
      ∀ beat ∈ party.journal host acts, Consistent (beat.after host) := by
  induction acts generalizing party with
  | nil => exact ⟨orderly, by simp [Party.journal]⟩
  | cons first rest ih =>
    obtain ⟨after, consistent⟩ := act_orderly host orderly first
    obtain ⟨end_orderly, consistent_rest⟩ := ih after
    rw [Party.journal, List.forall_mem_append]
    exact ⟨end_orderly, consistent, consistent_rest⟩

end

/-- Whatever a host does, with whichever of its enemies and in whatever worlds,
every enemy is consistent whenever no call is running, and also after each beat
of a call, so after each alarm that a tick handles. -/
theorem alarms_match_state [StableId α] (host : Host α τ ω) (acts : List (Act α ω)) :
    (∀ b ∈ (Party.run host {} acts).brains, Consistent b.state) ∧
      ∀ beat ∈ Party.journal host {} acts, Consistent (beat.after host) := by
  have start : Orderly ({} : Party α) := ⟨by simp, by simp⟩
  obtain ⟨orderly, consistent⟩ := run_orderly host start acts
  refine ⟨?_, consistent⟩
  intro b member
  exact consistent_of_armed (orderly.brains b member).restful.armed

/-- An attack is launched, its state kept, hit and cooldown passed, and the
state put back: the hit test is pending again, and only once. -/
theorem restored_windup_matches :
    let party := Party.run Sandbox.host ({} : Party UInt64)
      [.spawn 7 {}, .call 0 (.tick ⟨0, 0.5, 0⟩ neighbours), .save 0,
        .tickAll ⟨1, 4, 0.5⟩ ({} : Sandbox), .restore 0 0]
    ∃ b ∈ party.brains, b.state.phase = .windup ∧ b.state.waiting .hit = 1 := by
  intro party
  have restored : party.brains[0]?.map (·.state.phase) = some .windup := by decide +kernel
  obtain ⟨b, found, winding⟩ := Option.map_eq_some_iff.mp restored
  have member := List.mem_of_getElem? found
  have consistent := (alarms_match_state Sandbox.host _).1 b member
  exact ⟨b, member, winding, (consistent.windup.mpr winding).1⟩

end Sentry.Enemy
