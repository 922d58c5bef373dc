import Sentry.Proofs.Json.Lexing

/-! The lexemes of a value are put together into that value, wherever it stands.
So what is printed is read back. -/
namespace Sentry.Json

/-! ## Putting lexemes together -/

private theorem fold_behind {first : List Lexeme} {start middle : Reader}
    (read : first.foldlM Reader.step start = some middle) (more : List Lexeme) :
    (first ++ more).foldlM Reader.step start = more.foldlM Reader.step middle := by
  rw [List.foldlM_append, read]
  rfl

/-- Where a value may stand, its lexemes deliver it. -/
def Delivers (value : Value) : Prop :=
  ∀ outer, value.lexemes.foldlM Reader.step (.anyValue outer) = some (.deliver value outer)

theorem deliver_scalar {value : Value} (single : value.lexemes = [.scalar value]) :
    Delivers value := by
  intro outer
  rw [single]
  rfl

/-- A value does not begin with the end of an array. So where an array may end, it
is read as its first item. -/
theorem first_item (value : Value) (more : List Lexeme) (outer : List Open) :
    (value.lexemes ++ more).foldlM Reader.step (.firstItem outer) =
      (value.lexemes ++ more).foldlM Reader.step (.anyValue (.item [] :: outer)) := by
  cases value <;> rfl

section
variable {items : List Value} {members : List (Option String × Value)}

/-- Items go into the innermost array, last first. -/
theorem deliver_items (present : items ≠ []) (each : ∀ item ∈ items, Delivers item)
    (held : List Value) (outer : List Open) :
    (Value.itemLexemes items).foldlM Reader.step (.anyValue (.item held :: outer)) =
      some (.afterItem (items.reverse ++ held) outer) := by
  induction items generalizing held with
  | nil => exact absurd rfl present
  | cons item rest ih =>
    obtain ⟨first, others⟩ := List.forall_mem_cons.mp each
    have delivered := first (.item held :: outer)
    cases rest with
    | nil => exact delivered
    | cons next more =>
      have later := ih (by simp) others (item :: held)
      have told : (Value.itemLexemes (item :: next :: more)).foldlM Reader.step
          (.anyValue (.item held :: outer)) = (Value.itemLexemes (next :: more)).foldlM Reader.step
            (.anyValue (.item (item :: held) :: outer)) :=
        fold_behind delivered _
      rw [told, later]
      simp

/-- Members go into the innermost object, last first. -/
theorem deliver_members (present : members ≠ [])
    (each : ∀ member ∈ members, Delivers member.2) (held : List (Option String × Value))
    (outer : List Open) : (Value.memberLexemes members).foldlM Reader.step (.nextName held outer) =
      some (.afterMember (members.reverse ++ held) outer) := by
  induction members generalizing held with
  | nil => exact absurd rfl present
  | cons member rest ih =>
    obtain ⟨name, value⟩ := member
    obtain ⟨first, others⟩ := List.forall_mem_cons.mp each
    have delivered := first (.member held name :: outer)
    cases rest with
    | nil => exact delivered
    | cons next more =>
      have later := ih (by simp) others ((name, value) :: held)
      have told : (Value.memberLexemes ((name, value) :: next :: more)).foldlM Reader.step
          (.nextName held outer) = (Value.memberLexemes (next :: more)).foldlM Reader.step
            (.nextName ((name, value) :: held) outer) :=
        fold_behind delivered _
      rw [told, later]
      simp

theorem deliver_array (each : ∀ item ∈ items, Delivers item) : Delivers (.array items) := by
  intro outer
  cases items with
  | nil => rfl
  | cons item rest =>
    have opened : (Value.array (item :: rest)).lexemes.foldlM Reader.step (.anyValue outer) =
        (Value.itemLexemes (item :: rest) ++ [Lexeme.closeArray]).foldlM Reader.step
          (.anyValue (.item [] :: outer)) := by
      cases rest with
      | nil => exact first_item item [.closeArray] outer
      | cons next more =>
        rw [Value.itemLexemes, List.append_assoc]
        · rw [← first_item, ← List.append_assoc]
          rfl
        · simp
    have read := deliver_items (List.cons_ne_nil item rest) each [] outer
    rw [opened, fold_behind read]
    simp [Reader.step]

theorem deliver_object (each : ∀ member ∈ members, Delivers member.2) :
    Delivers (.object members) := by
  intro outer
  cases members with
  | nil => rfl
  | cons member rest =>
    have opened : (Value.object (member :: rest)).lexemes.foldlM Reader.step (.anyValue outer) =
        (Value.memberLexemes (member :: rest) ++ [Lexeme.closeObject]).foldlM Reader.step
          (.nextName [] outer) := by
      cases rest <;> rfl
    have read := deliver_members (List.cons_ne_nil member rest) each [] outer
    rw [opened, fold_behind read]
    simp [Reader.step]

end

theorem delivers {value : Value} (written : value.Written) : Delivers value := by
  induction written with
  | null => exact deliver_scalar rfl
  | bool value => exact deliver_scalar rfl
  | number legal => exact deliver_scalar rfl
  | string text => exact deliver_scalar rfl
  | array each ih => exact deliver_array ih
  | object named each ih => exact deliver_object ih

/-- What is printed is read back. -/
theorem parse_render {value : Value} (written : value.Written) :
    Value.parse? value.render = some value := by
  have read : value.lexemes.foldlM Reader.step (.anyValue []) = some (.done value) :=
    delivers written []
  rw [Value.parse?, Value.render, String.toList_ofList, lexemes_chars written]
  change (value.lexemes.foldlM Reader.step (.anyValue [])).bind Reader.finish? = some value
  rw [read]
  rfl

end Sentry.Json
