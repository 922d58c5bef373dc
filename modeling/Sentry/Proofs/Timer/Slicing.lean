import Sentry.Proofs.Timer.Clock

/-! Frames and what fires in them. A queue that is advanced and drained frame by
frame fires the same events at the same times as one that is drained once at the
last horizon: a follower is placed relative to the event it follows, never to
the end of a frame. -/
namespace Sentry.Timer

variable {ε : Type}

/-! ## Draining -/

/-- The queue with another horizon. -/
def Queue.withHorizon (q : Queue ε) (horizon : Float) : Queue ε :=
  { q with horizon }

/-- Events fire until nothing is due, each followed by its followers. The list
says what fires, and when. -/
inductive Drains (follow : ε → List (Float32 × ε)) :
    Queue ε → List (ε × Float) → Queue ε → Prop where
  | quiet {q rest} (pops : q.popDue = (none, rest)) : Drains follow q [] rest
  | fires {q popped event fired rest} (pops : q.popDue = (some event, popped))
      (later : Drains follow (popped.scheduleAll (follow event)) fired rest) :
      Drains follow q ((event, popped.now) :: fired) rest

/-- Frames of several lengths, in each of which the horizon moves and the queue
is drained. -/
inductive Sliced (follow : ε → List (Float32 × ε)) :
    Queue ε → List Float32 → List (ε × Float) → Queue ε → Prop where
  | done {q} : Sliced follow q [] [] q
  | frame {q dt dts early mid later rest} (drains : Drains follow (q.advance dt) early mid)
      (others : Sliced follow mid dts later rest) :
      Sliced follow q (dt :: dts) (early ++ later) rest

section
variable {follow : ε → List (Float32 × ε)} {q q' rest rest' : Queue ε}
  {fired fired' : List (ε × Float)}

/-- A drain is finished exactly if its limit was not reached. -/
theorem drains_iff_drain : Drains follow q fired rest ↔
    ∃ limit, fired.length < limit ∧ q.drain follow limit = (fired, rest) := by
  constructor
  · intro drains
    induction drains with
    | quiet pops =>
      refine ⟨1, Nat.one_pos, ?_⟩
      rw [Queue.drain, pops]
    | fires pops later ih =>
      obtain ⟨limit, enough, drained⟩ := ih
      refine ⟨limit + 1, Nat.succ_lt_succ enough, ?_⟩
      rw [Queue.drain, pops]
      simp only [drained]
  · rintro ⟨limit, enough, drained⟩
    induction limit generalizing q fired with
    | zero => exact absurd enough (Nat.not_lt_zero _)
    | succ limit ih =>
      rw [Queue.drain] at drained
      split at drained
      next settled pops =>
        cases drained
        exact .quiet pops
      next event popped pops =>
        cases drained
        exact .fires pops (ih (Nat.lt_of_succ_lt_succ enough) rfl)

theorem drains_unique (drains : Drains follow q fired rest)
    (drains' : Drains follow q fired' rest') : fired = fired' ∧ rest = rest' := by
  induction drains generalizing fired' with
  | quiet pops =>
    cases drains' with
    | quiet pops' =>
      rw [pops] at pops'
      cases pops'
      exact ⟨rfl, rfl⟩
    | fires pops' later' =>
      rw [pops] at pops'
      cases pops'
  | fires pops later ih =>
    cases drains' with
    | quiet pops' =>
      rw [pops] at pops'
      cases pops'
    | fires pops' later' =>
      rw [pops] at pops'
      cases pops'
      obtain ⟨rfl, rfl⟩ := ih later'
      exact ⟨rfl, rfl⟩

theorem drains_congr (same : q.popDue = q'.popDue) (drains : Drains follow q fired rest) :
    Drains follow q' fired rest := by
  cases drains with
  | quiet pops => exact .quiet (same ▸ pops)
  | fires pops later => exact .fires (same ▸ pops) later

end

namespace Queue

variable {q popped : Queue ε} {event : ε} {near far : Float}

/-! ## Horizons near and far -/

/-- What is chosen by a far horizon is also chosen by a near one, if it is due
by then; else nothing is due by the near one. -/
theorem firstDue?_near (near_moment : IsMoment near) (far_moment : IsMoment far)
    (le : near ≤ far) (index : ℕ) {entries : List (Entry ε)}
    (moments : ∀ entry ∈ entries, IsMoment entry.due) :
    firstDue? near index entries =
      (firstDue? far index entries).filter (·.2.due ≤ near) := by
  induction entries generalizing index with
  | nil => rfl
  | cons entry rest ih =>
    obtain ⟨moment, moments⟩ := List.forall_mem_cons.mp moments
    rw [le_iff_word near_moment far_moment] at le
    have by_far : entry.due ≤ near → entry.due ≤ far := by
      rw [le_iff_word moment near_moment, le_iff_word moment far_moment]
      omega
    rw [firstDue?, firstDue?, ih (index + 1) moments]
    cases later : firstDue? far (index + 1) rest with
    | none =>
      by_cases due : entry.due ≤ near
      · simp [Option.filter_some, due, by_far due]
      · by_cases due_far : entry.due ≤ far <;> simp [Option.filter_some, due, due_far]
    | some found =>
      obtain ⟨place, other⟩ := found
      obtain ⟨-, get, -⟩ := firstDue?_spec later
      have other_moment := moments other (List.mem_of_getElem? get)
      have order : other.before entry = true ↔ _ := before_iff
      rw [orderKey_eq_word other_moment, orderKey_eq_word moment] at order
      by_cases inside : other.due ≤ near
      · by_cases due : entry.due ≤ near
        · cases first : other.before entry <;>
            simp [Option.filter_some, inside, due, by_far due, first]
        · -- An entry beyond the near horizon does not fire before one within it.
          have behind : other.before entry = true := by
            rw [le_iff_word other_moment near_moment] at inside
            rw [le_iff_word moment near_moment] at due
            rw [order]
            omega
          simp [Option.filter_some, inside, due, behind]
      · by_cases due : entry.due ≤ near
        · have ahead : other.before entry = false := by
            rw [le_iff_word other_moment near_moment] at inside
            rw [le_iff_word moment near_moment] at due
            rw [← Bool.not_eq_true, order]
            omega
          simp [Option.filter_some, inside, due, by_far due, ahead]
        · rw [Option.filter_some, if_neg (by simpa using inside)]
          dsimp only
          rw [if_neg due]
          split <;> simp [Option.filter_some, inside, due]

theorem sound_withHorizon (sound : Sound (q.withHorizon near)) (far_moment : IsMoment far)
    (le : near ≤ far) : Sound (q.withHorizon far) :=
  ⟨sound.now, far_moment, moment_le_trans sound.now sound.horizon far_moment sound.behind le,
    sound.due, sound.ahead⟩

/-- By a near horizon the same event is popped as by a far one, or nothing. -/
theorem popDue_near (sound : Sound (q.withHorizon near)) (far_moment : IsMoment far)
    (le : near ≤ far) :
    (∃ event popped, (q.withHorizon far).popDue = (some event, popped) ∧
        (q.withHorizon near).popDue = (some event, popped.withHorizon near)) ∨
      (q.withHorizon near).popDue = (none, { q with now := near, horizon := near }) := by
  have chosen : firstDue? near 0 q.pending = (firstDue? far 0 q.pending).filter (·.2.due ≤ near) :=
    firstDue?_near sound.horizon far_moment le 0 sound.due
  unfold popDue withHorizon
  dsimp only
  rw [chosen]
  cases firstDue? far 0 q.pending with
  | none => exact .inr rfl
  | some found =>
    by_cases due : found.2.due ≤ near
    · left
      simp [Option.filter_some, due]
    · right
      simp [Option.filter_some, due]

/-- The clock has no say in what is popped, and is set by it. -/
theorem popDue_any_clock {now : Float} (sound : Sound q) (sound' : Sound { q with now }) :
    ({ q with now } : Queue ε).popDue = q.popDue := by
  unfold popDue
  dsimp only
  split
  next place first found =>
    obtain ⟨-, get, -⟩ := firstDue?_spec found
    have pending := List.mem_of_getElem? get
    have moment := sound.due first pending
    rw [larger_eq_left moment sound.now (sound.ahead first pending),
      larger_eq_left moment sound'.now (sound'.ahead first pending)]
  next => rfl

theorem popDue_advance (sound : Sound q) (dt : Float32) :
    (q.advance dt).popDue = (q.withHorizon (q.advance dt).horizon).popDue := by
  obtain ⟨moment, later⟩ := horizon_le_advance sound dt
  have still : Sound (q.withHorizon (q.advance dt).horizon) :=
    sound_withHorizon sound moment later
  have advanced := advance_sound sound dt
  have shape : q.advance dt =
      { q.withHorizon (q.advance dt).horizon with now := (q.advance dt).now } := by
    unfold advance withHorizon
    dsimp only
    split <;> split <;> rfl
  rw [shape] at advanced
  exact (congrArg popDue shape).trans (popDue_any_clock still advanced)

/-! Followers are scheduled whatever the horizon. -/

theorem scheduleAll_sound (sound : Sound q) (followers : List (Float32 × ε)) :
    Sound (q.scheduleAll followers) := by
  induction followers generalizing q with
  | nil => exact sound
  | cons first rest ih => exact ih (schedule_sound sound first.1 first.2)

theorem scheduleAll_withHorizon (q : Queue ε) (horizon : Float)
    (followers : List (Float32 × ε)) :
    (q.withHorizon horizon).scheduleAll followers =
      (q.scheduleAll followers).withHorizon horizon := by
  induction followers generalizing q with
  | nil => rfl
  | cons first rest ih => exact ih (q.schedule first.1 first.2)

end Queue

/-! ## Slices of a drain -/

section
variable {follow : ε → List (Float32 × ε)} {q mid rest : Queue ε} {near far : Float}
  {fired early later : List (ε × Float)}

/-- A queue that is quiet by a near horizon pops by a far one what it would have
popped before it was asked. -/
private theorem popDue_after_quiet (sound : Queue.Sound (q.withHorizon near))
    (far_moment : IsMoment far) (le : near ≤ far)
    (pops : (q.withHorizon near).popDue = (none, mid)) :
    (mid.withHorizon far).popDue = (q.withHorizon far).popDue := by
  have mid_sound := Queue.popDue_sound sound pops
  have mid_horizon : mid.horizon = near := by
    rw [(Queue.popDue_settled pops).1]
    rfl
  have far_sound : Queue.Sound (mid.withHorizon far) := by
    have there : Queue.Sound (mid.withHorizon mid.horizon) := mid_sound
    exact Queue.sound_withHorizon there far_moment (mid_horizon ▸ le)
  obtain ⟨rfl, -⟩ := Queue.popDue_settled pops
  exact Queue.popDue_any_clock (Queue.sound_withHorizon sound far_moment le) far_sound

/-- What is left when an event has been popped by a near horizon is what is left
by a far one. -/
private theorem popped_slice (sound : Queue.Sound (q.withHorizon near)) {popped : Queue ε}
    {event : ε} (pops_near : (q.withHorizon near).popDue = (some event, popped.withHorizon near))
    (pops_far : (q.withHorizon far).popDue = (some event, popped))
    (followers : List (Float32 × ε)) :
    let next := popped.scheduleAll followers
    Queue.Sound (next.withHorizon near) ∧
      (popped.withHorizon near).scheduleAll followers = next.withHorizon near ∧
      next = next.withHorizon far := by
  intro next
  have same := Queue.scheduleAll_withHorizon popped near followers
  refine ⟨?_, same, ?_⟩
  · rw [← same]
    exact Queue.scheduleAll_sound (Queue.popDue_sound sound pops_near) followers
  · have horizon : popped = popped.withHorizon far := by
      obtain ⟨_, -, -, -, shape⟩ := Queue.popDue_eq_some pops_far
      rw [shape]
      rfl
    have scheduled := Queue.scheduleAll_withHorizon popped far followers
    rw [← horizon] at scheduled
    exact scheduled

/-- Draining by a near horizon and then by a far one is draining by the far one. -/
theorem drains_join (sound : Queue.Sound (q.withHorizon near)) (far_moment : IsMoment far)
    (le : near ≤ far) (first : Drains follow (q.withHorizon near) early mid)
    (second : Drains follow (mid.withHorizon far) later rest) :
    Drains follow (q.withHorizon far) (early ++ later) rest := by
  generalize shape : q.withHorizon near = start at first
  induction first generalizing q with
  | quiet pops =>
    subst shape
    exact drains_congr (popDue_after_quiet sound far_moment le pops) second
  | @fires _ popped_near event _ _ pops more ih =>
    subst shape
    rcases Queue.popDue_near sound far_moment le with
      ⟨event', popped, pops_far, pops_near⟩ | nothing
    · rw [pops] at pops_near
      cases pops_near
      obtain ⟨next_sound, same, at_far⟩ := popped_slice sound pops pops_far (follow event)
      apply Drains.fires pops_far
      rw [at_far]
      exact ih next_sound second same.symm
    · rw [pops] at nothing
      cases nothing

/-- If nothing is due by a near horizon, all that fires does so after it. -/
private theorem drains_after_quiet (sound : Queue.Sound (q.withHorizon near))
    (far_moment : IsMoment far) (le : near ≤ far)
    (pops : (q.withHorizon near).popDue = (none, mid))
    (drains : Drains follow (q.withHorizon far) fired rest) :
    ∃ early later mid, fired = early ++ later ∧ Drains follow (q.withHorizon near) early mid ∧
      Drains follow (mid.withHorizon far) later rest := by
  have same := popDue_after_quiet sound far_moment le pops
  exact ⟨[], fired, mid, rfl, .quiet pops, drains_congr same.symm drains⟩

/-- Draining by a far horizon can stop at a near one. -/
theorem drains_split (sound : Queue.Sound (q.withHorizon near)) (far_moment : IsMoment far)
    (le : near ≤ far) (drains : Drains follow (q.withHorizon far) fired rest) :
    ∃ early later mid, fired = early ++ later ∧ Drains follow (q.withHorizon near) early mid ∧
      Drains follow (mid.withHorizon far) later rest := by
  generalize shape : q.withHorizon far = start at drains
  induction drains generalizing q with
  | quiet pops =>
    subst shape
    rcases Queue.popDue_near sound far_moment le with ⟨event, popped, pops_far, -⟩ | nothing
    · rw [pops] at pops_far
      cases pops_far
    · exact drains_after_quiet sound far_moment le nothing (.quiet pops)
  | @fires _ popped event _ _ pops more ih =>
    subst shape
    rcases Queue.popDue_near sound far_moment le with
      ⟨event', popped', pops_far, pops_near⟩ | nothing
    · rw [pops] at pops_far
      cases pops_far
      obtain ⟨next_sound, same, at_far⟩ := popped_slice sound pops_near pops (follow event)
      obtain ⟨early, later, mid, rfl, first, second⟩ := ih next_sound at_far.symm
      rw [← same] at first
      have slice : Drains follow (q.withHorizon near)
          ((event, (popped.withHorizon near).now) :: early) mid := .fires pops_near first
      exact ⟨(event, popped.now) :: early, later, mid, rfl, slice, second⟩
    · exact drains_after_quiet sound far_moment le nothing (.fires pops more)

theorem drains_sound (sound : q.Sound) (drains : Drains follow q fired rest) :
    rest.Sound ∧ rest.horizon = q.horizon := by
  induction drains with
  | quiet pops =>
    refine ⟨Queue.popDue_sound sound pops, ?_⟩
    rw [(Queue.popDue_settled pops).1]
  | @fires q popped event fired rest pops more ih =>
    obtain ⟨sound', horizon⟩ := ih (Queue.scheduleAll_sound (Queue.popDue_sound sound pops) _)
    have scheduled := Queue.scheduleAll_withHorizon popped popped.horizon (follow event)
    have clock := (Queue.popDue_clock sound pops).1
    refine ⟨sound', ?_⟩
    rw [horizon, ← clock]
    have unmoved := congrArg (·.horizon) scheduled
    exact unmoved

/-! ## Frames -/

theorem horizon_after_frames {q q' : Queue ε} (same : q.horizon = q'.horizon)
    (dts : List Float32) :
    (dts.foldl Queue.advance q).horizon = (dts.foldl Queue.advance q').horizon := by
  induction dts generalizing q q' with
  | nil => exact same
  | cons dt rest ih =>
    apply ih
    rw [Queue.advance_horizon, Queue.advance_horizon, same]

theorem horizon_le_frames (sound : q.Sound) (dts : List Float32) :
    IsMoment (dts.foldl Queue.advance q).horizon ∧
      q.horizon ≤ (dts.foldl Queue.advance q).horizon := by
  induction dts generalizing q with
  | nil => exact ⟨sound.horizon, moment_le_refl sound.horizon⟩
  | cons dt rest ih =>
    obtain ⟨moment, later⟩ := Queue.horizon_le_advance sound dt
    obtain ⟨last_moment, last_later⟩ := ih (Queue.advance_sound sound dt)
    exact ⟨last_moment, moment_le_trans sound.horizon moment last_moment later last_later⟩

theorem drains_frame (sound : q.Sound) (dt : Float32) :
    Drains follow (q.advance dt) fired rest ↔
      Drains follow (q.withHorizon (q.advance dt).horizon) fired rest :=
  ⟨drains_congr (Queue.popDue_advance sound dt), drains_congr (Queue.popDue_advance sound dt).symm⟩

theorem sliced_nil_iff : Sliced follow q [] fired rest ↔ fired = [] ∧ rest = q := by
  constructor
  · intro sliced
    cases sliced
    exact ⟨rfl, rfl⟩
  · rintro ⟨rfl, rfl⟩
    exact .done

/-- Frames fire what one drain by their last horizon fires. -/
theorem sliced_cons_iff (sound : q.Sound) (dt : Float32) (dts : List Float32) :
    Sliced follow q (dt :: dts) fired rest ↔
      Drains follow (q.withHorizon ((dt :: dts).foldl Queue.advance q).horizon) fired rest := by
  induction dts generalizing q dt fired with
  | nil =>
    constructor
    · intro sliced
      cases sliced with
      | frame drains others =>
        cases others
        rw [List.append_nil]
        exact (drains_frame sound dt).mp drains
    · intro drains
      have frame := Sliced.frame ((drains_frame sound dt).mpr drains) .done
      rwa [List.append_nil] at frame
  | cons next more ih =>
    have advanced := Queue.advance_sound sound dt
    obtain ⟨moment, later⟩ := Queue.horizon_le_advance sound dt
    have here : Queue.Sound (q.withHorizon q.horizon) := sound
    have near_sound := Queue.sound_withHorizon here moment later
    obtain ⟨far_moment, le⟩ := horizon_le_frames advanced (next :: more)
    -- The frames that follow start from the horizon of this one.
    have far : ∀ {early mid}, Drains follow (q.advance dt) early mid → mid.Sound ∧
        ((next :: more).foldl Queue.advance mid).horizon =
          ((dt :: next :: more).foldl Queue.advance q).horizon := by
      intro early mid drains
      obtain ⟨mid_sound, horizon⟩ := drains_sound advanced drains
      exact ⟨mid_sound, horizon_after_frames horizon (next :: more)⟩
    constructor
    · intro sliced
      cases sliced with
      | frame drains others =>
        obtain ⟨mid_sound, horizon⟩ := far drains
        rw [ih mid_sound next, horizon] at others
        exact drains_join near_sound far_moment le ((drains_frame sound dt).mp drains) others
    · intro drains
      obtain ⟨early, late, mid, rfl, first, second⟩ :=
        drains_split near_sound far_moment le drains
      have frame := (drains_frame sound dt).mpr first
      obtain ⟨mid_sound, horizon⟩ := far frame
      refine .frame frame ((ih mid_sound next).mpr ?_)
      rw [horizon]
      exact second

/-- The same for no frames at all, if nothing is due and the clock has caught up. -/
theorem sliced_iff_drains (sound : q.Sound) {dts : List Float32} (begun : dts ≠ [] ∨ q.Settled) :
    Sliced follow q dts fired rest ↔
      Drains follow (q.withHorizon (dts.foldl Queue.advance q).horizon) fired rest := by
  cases dts with
  | cons dt more => exact sliced_cons_iff sound dt more
  | nil =>
    have settled := begun.resolve_left (absurd rfl)
    have idle : Drains follow q [] q := by
      have quiet : q.popDue.1 = none := Queue.popDue_eq_none_iff.mpr settled.quiet
      have shape := (Queue.popDue_settled (Prod.ext quiet rfl : q.popDue = (none, q.popDue.2))).1
      have caught : ({ q with now := q.horizon } : Queue ε) = q :=
        congrArg (fun now => { q with now }) settled.caught.symm
      exact .quiet (Prod.ext quiet (shape.trans caught))
    rw [sliced_nil_iff]
    constructor
    · rintro ⟨rfl, rfl⟩
      exact idle
    · intro drains
      obtain ⟨rfl, rfl⟩ := drains_unique idle drains
      exact ⟨rfl, rfl⟩

end

/-- How time is cut into frames does not show in what fires. Whatever the
operations that led to a queue, two lists of frames that bring it to the same
horizon fire the same events at the same times and leave the same queue, and
if all drains of one end so do those of the other. Only no frames at all may differ
from some: they do not drain what is due already, or let the clock catch up. -/
theorem slicing_is_immaterial (operations : List (Operation ε))
    (follow : ε → List (Float32 × ε)) (dts dts' : List Float32) (fired : List (ε × Float))
    (rest : Queue ε) :
    let q := (serveAll Queue.serve {} operations).2
    (dts.foldl Queue.advance q).horizon = (dts'.foldl Queue.advance q).horizon →
      ((dts = [] ↔ dts' = []) ∨ q.Settled) → Sliced follow q dts fired rest →
        Sliced follow q dts' fired rest ∧ ∀ fired' rest', Sliced follow q dts' fired' rest' →
          fired' = fired ∧ rest' = rest := by
  intro q same begun sliced
  have sound : q.Sound := Queue.serveAll_sound Queue.sound_empty operations
  by_cases none_begun : dts = [] ∧ dts' = []
  · obtain ⟨rfl, rfl⟩ := none_begun
    refine ⟨sliced, ?_⟩
    intro fired' rest' sliced'
    obtain ⟨rfl, rfl⟩ := sliced_nil_iff.mp sliced
    exact sliced_nil_iff.mp sliced'
  · have both : (dts ≠ [] ∨ q.Settled) ∧ (dts' ≠ [] ∨ q.Settled) := by
      rcases begun with alike | settled
      · rw [alike, and_self] at none_begun
        exact ⟨.inl (mt alike.mp none_begun), .inl none_begun⟩
      · exact ⟨.inr settled, .inr settled⟩
    have drains := (sliced_iff_drains sound both.1).mp sliced
    rw [same] at drains
    refine ⟨(sliced_iff_drains sound both.2).mpr drains, ?_⟩
    intro fired' rest' sliced'
    exact drains_unique ((sliced_iff_drains sound both.2).mp sliced') drains

/-- One frame of a second fires an event and what follows it a quarter of a
second later. So do two frames of half a second. -/
theorem follower_fires_across_frames :
    let q := (serveAll Queue.serve {} [.schedule 0.5 'a']).2
    let follow := fun event => if event = 'a' then [((0.25 : Float32), 'b')] else []
    ∃ rest, Sliced follow q [0.5, 0.5] [('a', 0.5), ('b', 0.75)] rest := by
  intro q follow
  have drains : Drains follow (q.advance 1) [('a', 0.5), ('b', 0.75)]
      ((q.advance 1).drain follow 3).2 :=
    drains_iff_drain.mpr ⟨3, by decide, Prod.ext (by decide +kernel) rfl⟩
  exact ⟨_, (slicing_is_immaterial [.schedule 0.5 'a'] follow [1] [0.5, 0.5] _ _
    (by decide +kernel) (.inl (by simp)) (.frame drains .done)).1⟩

/-- Without a frame nothing fires, not even what is due already; a frame of no
length fires it. -/
theorem no_frame_fires_nothing :
    let q := (serveAll Queue.serve {} [.schedule 0 'a']).2
    let follow := fun _ : Char => ([] : List (Float32 × Char))
    let drained := { q with pending := [] }
    ([].foldl Queue.advance q).horizon = ([0].foldl Queue.advance q).horizon ∧
      Sliced follow q [] [] q ∧ Sliced follow q [0] [('a', 0)] drained ∧
      q.pending ≠ drained.pending := by
  intro q follow drained
  have drains : Drains follow (q.advance 0) [('a', 0)] drained :=
    drains_iff_drain.mpr ⟨2, by decide, by decide +kernel⟩
  exact ⟨by decide +kernel, .done, .frame drains .done, by decide +kernel⟩

end Sentry.Timer
