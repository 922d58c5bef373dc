import Sentry.Proofs.Yaml.Entries
import Sentry.Yaml.Reader

/-! Documents of entries: the nodes that the tokens of entries make up. A list in
the first column has no end of its own, so its node is finished by the token behind
it. -/
namespace Sentry.Yaml

/-! ## Nodes -/

def Phrase.node (phrase : Phrase) : Node :=
  .scalar none none .plain phrase.text

def Field.pair (field : Field) : Node × Node :=
  (field.name.node, field.value.node)

def Group.node (group : Group) : Node :=
  .mapping none (group.fields.map Field.pair)

def Content.node : Content → Node
  | .phrase value => value.node
  | .group fields => fields.node
  | .groups items => .sequence none (items.map Group.node)

def Entry.pair (entry : Entry) : Node × Node :=
  (entry.name.node, entry.content.node)

namespace Reader

/-- In the document, with collections open and no anchors. -/
def inside (frames : List Frame) : Reader :=
  ⟨.within {} frames, []⟩

/-- Reading goes on from here as it does from the pairs of the outermost mapping,
unless a dash follows. -/
def Settles (r : Reader) (pairs : List (Node × Node)) : Prop :=
  ∀ token, token ≠ .blockEntry → r.step? token = (inside [.pairs none pairs]).step? token

theorem fold_field (field : Field) (pairs : List (Node × Node)) (outer : List Frame) :
    field.tokens.foldlM step? (inside (.pairs none pairs :: outer)) =
      some (inside (.pairs none (field.pair :: pairs) :: outer)) := by
  rfl

theorem fold_fields (fields : List Field) (pairs : List (Node × Node)) (outer : List Frame) :
    (fields.flatMap Field.tokens).foldlM step? (inside (.pairs none pairs :: outer)) =
      some (inside (.pairs none ((fields.map Field.pair).reverse ++ pairs) :: outer)) := by
  induction fields generalizing pairs with
  | nil => rfl
  | cons field fields ih =>
    rw [List.flatMap_cons, List.foldlM_append, fold_field]
    change (fields.flatMap Field.tokens).foldlM step? _ = _
    rw [ih]
    simp

/-- A group is delivered to the collection that waits for it. -/
theorem fold_group (group : Group) {frame : Frame} {outer : List Frame}
    (waits : frame.wanted = .block ∨ frame.wanted = .bare) :
    group.tokens.foldlM step? (inside (frame :: outer)) =
      (deliver group.node (frame :: outer)).map (⟨·, []⟩) := by
  have opens : (inside (frame :: outer)).step? .blockMappingStart =
      some (inside (.pairs none [] :: frame :: outer)) := by
    cases frame <;> simp [Frame.wanted] at waits <;> rfl
  have ends (pairs : List (Node × Node)) :
      (inside (.pairs none pairs :: frame :: outer)).step? .blockEnd =
        (deliver (.mapping none pairs.reverse) (frame :: outer)).map (⟨·, []⟩) := by
    rfl
  rw [Group.tokens, List.foldlM_cons, opens]
  change List.foldlM step? _ _ = _
  rw [List.foldlM_append, fold_fields]
  change List.foldlM step? _ _ = _
  simp [ends, Group.node]

/-- A list in the first column takes in its items. -/
theorem fold_items (groups : List Group) (items : List Node) (outer : List Frame) :
    (groups.flatMap fun group => .blockEntry :: group.tokens).foldlM step?
        (inside (.bareEntries none items :: outer)) =
      some (inside (.bareEntries none ((groups.map Group.node).reverse ++ items) :: outer)) := by
  induction groups generalizing items with
  | nil => rfl
  | cons group groups ih =>
    have dash : (inside (.bareEntries none items :: outer)).step? .blockEntry =
        some (inside (.bareEntry none items :: outer)) := rfl
    rw [List.flatMap_cons, List.foldlM_append, List.foldlM_cons, dash]
    change (List.foldlM step? (inside (.bareEntry none items :: outer)) group.tokens).bind _ = _
    rw [fold_group group (.inl rfl)]
    change (groups.flatMap _).foldlM step?
      (inside (.bareEntries none (group.node :: items) :: outer)) = _
    rw [ih]
    simp

/-- A list in the first column ends with the next token. -/
theorem settles_items (items : List Node) (pairs : List (Node × Node)) (name : Node) :
    Settles (inside [.bareEntries none items, .value none pairs name])
      ((name, .sequence none items.reverse) :: pairs) := by
  intro token no_dash
  have other : (token == .blockEntry) = false := beq_eq_false_iff_ne.mpr no_dash
  have written : fillNode? token (.within {} [.bareEntries none items, .value none pairs name]) =
      some (.within {} [.bareEntries none items, .value none pairs name]) := by
    cases token <;> rfl
  have written' (pairs : List (Node × Node)) :
      fillNode? token (.within {} [.pairs none pairs]) = some (.within {} [.pairs none pairs]) := by
    cases token <;> rfl
  -- From here on both places are the same: the list has gone into its pair.
  unfold step? inside
  rw [written, written', Option.bind_some, Option.bind_some, endBare?, other,
    if_neg Bool.false_ne_true]
  rfl

/-- What stands behind the colon of an entry becomes its value. -/
theorem fold_content (content : Content) (pairs : List (Node × Node)) (name : Node) :
    ∃ r, content.tokens.foldlM step? (inside [.value none pairs name]) = some r ∧
      Settles r ((name, content.node) :: pairs) := by
  match content with
  | .phrase value => exact ⟨_, rfl, fun _ _ => rfl⟩
  | .group fields => exact ⟨_, fold_group fields (.inr rfl), fun _ _ => rfl⟩
  | .groups [] => exact ⟨_, rfl, fun _ _ => rfl⟩
  | .groups (group :: items) =>
    refine ⟨_, fold_items (group :: items) [] [.value none pairs name], ?_⟩
    have settles := settles_items ((group :: items).map Group.node).reverse pairs name
    rw [List.reverse_reverse] at settles
    rw [List.append_nil]
    exact settles

/-- An entry joins the pairs of the mapping. -/
theorem fold_entry (entry : Entry) {r : Reader} {pairs : List (Node × Node)}
    (settles : Settles r pairs) :
    ∃ r', entry.tokens.foldlM step? r = some r' ∧ Settles r' (entry.pair :: pairs) := by
  obtain ⟨r', folds, settles'⟩ := fold_content entry.content pairs entry.name.node
  refine ⟨r', ?_, settles'⟩
  have key := settles .key (by decide)
  rw [Entry.tokens, List.foldlM_cons, key]
  exact folds

theorem fold_entries (entries : List Entry) {r : Reader} {pairs : List (Node × Node)}
    (settles : Settles r pairs) :
    ∃ r', (entries.flatMap Entry.tokens).foldlM step? r = some r' ∧
      Settles r' ((entries.map Entry.pair).reverse ++ pairs) := by
  induction entries generalizing r pairs with
  | nil => exact ⟨r, rfl, settles⟩
  | cons entry entries ih =>
    obtain ⟨middle, first, settles⟩ := fold_entry entry settles
    obtain ⟨r', more, settles⟩ := ih settles
    refine ⟨r', ?_, by simpa using settles⟩
    rw [List.flatMap_cons, List.foldlM_append, first]
    exact more

end Reader

/-- A text of entries, of which there is at least one, is a mapping of their names. -/
theorem parse_entries (first : Entry) (others : List Entry) :
    Document.parse? (String.ofList ((first :: others).flatMap Entry.lines)) =
      some (.ofRoot (.mapping none ((first :: others).map Entry.pair))) := by
  have start : ({} : Reader).step? .blockMappingStart = some (Reader.inside [.pairs none []]) := rfl
  have empty : Reader.Settles (Reader.inside [.pairs none []]) [] := fun _ _ => rfl
  obtain ⟨r, folds, settles⟩ := Reader.fold_entries (first :: others) empty
  have ends := settles .blockEnd (by decide)
  rw [Document.parse?, String.toList_ofList, tokens_entries, Option.bind_some, Document.ofTokens?,
    List.foldlM_cons, start]
  change (List.foldlM Reader.step? _ _).bind _ = _
  rw [List.foldlM_append, folds]
  change (List.foldlM Reader.step? r [.blockEnd, .streamEnd]).bind _ = _
  rw [List.foldlM_cons, ends, List.append_nil]
  change some (Document.ofRoot (.mapping none (List.reverse (List.reverse _)))) = _
  rw [List.reverse_reverse]

/-! ## Reading -/

namespace Document
variable (d : Document)

theorem fields_group (group : Group) :
    d.fields? group.node =
      some (group.fields.map fun field => (field.name.text, field.value.node)) := by
  change (group.fields.map Field.pair).mapM _ = _
  rw [List.mapM_map]
  exact List.mapM_pure

theorem fields_entries (entries : List Entry) :
    d.fields? (.mapping none (entries.map Entry.pair)) =
      some (entries.map fun entry => (entry.name.text, entry.content.node)) := by
  change (entries.map Entry.pair).mapM _ = _
  rw [List.mapM_map]
  exact List.mapM_pure

theorem items_groups (items : List Group) :
    d.items? (Content.groups items).node = some (items.map Group.node) :=
  rfl

end Document

end Sentry.Yaml
