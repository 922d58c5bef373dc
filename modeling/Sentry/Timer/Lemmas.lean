import Sentry.Timer.Queue

/-! What popping does to the pending events. Taking an entry out leaves the
others, whatever the storage order: a popped event was pending and due, and
nothing is popped exactly if nothing is due. -/
namespace Sentry.Timer

theorem perm_set {α : Type} (entries : List α) (index : Nat) (h : index < entries.length)
    (new : α) : (new :: entries).Perm (entries[index] :: entries.set index new) := by
  induction entries generalizing index with
  | nil => simp at h
  | cons first rest ih =>
    cases index with
    | zero => exact List.Perm.swap first new rest
    | succ index =>
      simp only [List.length_cons, Nat.succ_lt_succ_iff] at h
      exact (List.Perm.swap first new rest).trans
        (((ih index h).cons first).trans (List.Perm.swap _ _ _))

theorem swapRemove_perm {α : Type} (entries : List α) (index : Nat) (h : index < entries.length) :
    entries.Perm (entries[index] :: swapRemove entries index) := by
  obtain ⟨init, last, rfl⟩ : ∃ init last, entries = init ++ [last] :=
    ⟨entries.dropLast, entries.getLast (by rintro rfl; simp at h),
      (List.dropLast_concat_getLast _).symm⟩
  have store : (init ++ [last]).Perm (last :: init) := List.perm_append_singleton last init
  by_cases inside : index < init.length
  · have gap : swapRemove (init ++ [last]) index = init.set index last := by
      simp [swapRemove, inside]
    rw [gap, List.getElem_append_left inside]
    exact store.trans (perm_set init index inside last)
  · have atEnd : index = init.length := by simp at h; omega
    have gap : swapRemove (init ++ [last]) index = init := by
      simp [swapRemove, atEnd]
    subst atEnd
    rw [gap]
    simp

theorem firstDue?_spec {ε : Type} {horizon : Float} {entries : List (Entry ε)} {index place : Nat}
    {entry : Entry ε} (h : firstDue? horizon index entries = some (place, entry)) :
    index ≤ place ∧ entries[place - index]? = some entry ∧ entry.due ≤ horizon := by
  induction entries generalizing index place entry with
  | nil => simp [firstDue?] at h
  | cons first rest ih =>
    rw [firstDue?] at h
    split at h
    · split at h
      next due => simp_all
      next => simp at h
    next found other found_eq =>
      split at h
      next due =>
        simp at h due
        obtain ⟨rfl, rfl⟩ := h
        simp_all
      next =>
        simp at h
        obtain ⟨rfl, rfl⟩ := h
        obtain ⟨le, get, due⟩ := ih found_eq
        refine ⟨by omega, ?_, due⟩
        rw [show found - index = (found - (index + 1)) + 1 by omega]
        simpa using get

theorem firstDue?_eq_none_iff {ε : Type} {horizon : Float} (index : Nat)
    {entries : List (Entry ε)} :
    firstDue? horizon index entries = none ↔ ∀ entry ∈ entries, ¬ entry.due ≤ horizon := by
  induction entries generalizing index with
  | nil => simp [firstDue?]
  | cons first rest ih =>
    rw [firstDue?]
    split
    next none_eq => simp [← ih (index + 1), none_eq]
    next found other found_eq =>
      have some_due := firstDue?_spec found_eq
      constructor
      · intro h
        split at h <;> simp at h
      · intro h
        exact absurd some_due.2.2
          (h other (List.mem_cons_of_mem _ (List.mem_of_getElem? some_due.2.1)))

namespace Queue

variable {ε : Type}

theorem popDue_eq_some {q popped : Queue ε} {event : ε} (h : q.popDue = (some event, popped)) :
    ∃ entry : Entry ε, entry.event = event ∧ entry.due ≤ q.horizon ∧
      q.pending.Perm (entry :: popped.pending) ∧
      popped = { q with now := larger entry.due q.now, pending := popped.pending } := by
  unfold popDue at h
  split at h
  next place entry found =>
    obtain ⟨-, get, due⟩ := firstDue?_spec found
    simp only [Nat.sub_zero] at get
    obtain ⟨inside, rfl⟩ := List.getElem?_eq_some_iff.1 get
    simp only [Prod.mk.injEq, Option.some.injEq] at h
    obtain ⟨rfl, rfl⟩ := h
    exact ⟨_, rfl, due, swapRemove_perm _ _ inside, rfl⟩
  next => simp at h

theorem popDue_eq_none_iff {q : Queue ε} :
    q.popDue.1 = none ↔ ∀ entry ∈ q.pending, ¬ entry.due ≤ q.horizon := by
  rw [← firstDue?_eq_none_iff 0, popDue]
  split
  next found => simp [found]
  next found => simp [found]

end Queue

end Sentry.Timer
