import Sentry.Proofs.Yaml.Lines

/-! Mappings of phrases, of groups of phrases and of lists of such groups, in the
notation in which settings are saved: their texts, and the tokens that the lexer
finds in them. -/
namespace Sentry.Yaml

/-! ## Texts -/

/-- A plain scalar of one line. -/
structure Phrase where
  text : String
  is_phrase : isPhrase text.toList = true

/-- A phrase short enough for a key, and no mark between documents. -/
structure Name extends Phrase where
  short : byteCount text.toList ≤ Lexer.keyLimit
  no_marker : isMarker (text.toList ++ [':']) = false

/-- A name with a phrase. -/
structure Field where
  name : Name
  value : Phrase

/-- Some fields, at least one. -/
structure Group where
  first : Field
  others : List Field

/-- What stands behind a name. -/
inductive Content where
  | phrase (value : Phrase)
  | group (fields : Group)
  | groups (items : List Group)

/-- A name with what stands behind it. -/
structure Entry where
  name : Name
  content : Content

def Phrase.chars (phrase : Phrase) : List Char :=
  phrase.text.toList

namespace Field

def line (field : Field) : List Char :=
  field.name.chars ++ ':' :: ' ' :: (field.value.chars ++ ['\n'])

def indented (field : Field) : List Char :=
  ' ' :: ' ' :: field.line

end Field

namespace Group

def fields (group : Group) : List Field :=
  group.first :: group.others

/-- Lines of which the first one begins behind an indentation or a dash. -/
def lines (group : Group) : List Char :=
  group.first.line ++ group.others.flatMap Field.indented

def item (group : Group) : List Char :=
  '-' :: ' ' :: group.lines

end Group

def Content.lines : Content → List Char
  | .phrase value => ' ' :: (value.chars ++ ['\n'])
  | .group fields => '\n' :: ' ' :: ' ' :: fields.lines
  | .groups [] => " []\n".toList
  | .groups items => '\n' :: items.flatMap Group.item

def Entry.lines (entry : Entry) : List Char :=
  entry.name.chars ++ ':' :: entry.content.lines

/-! ## Tokens -/

def Phrase.token (phrase : Phrase) : Token :=
  .scalar .plain phrase.text

def Field.tokens (field : Field) : List Token :=
  [.key, field.name.token, .value, field.value.token]

def Group.tokens (group : Group) : List Token :=
  .blockMappingStart :: (group.fields.flatMap Field.tokens ++ [.blockEnd])

def Content.tokens : Content → List Token
  | .phrase value => [value.token]
  | .group fields => fields.tokens
  | .groups [] => [.flowSequenceStart, .flowSequenceEnd]
  | .groups items => items.flatMap fun group => .blockEntry :: group.tokens

def Entry.tokens (entry : Entry) : List Token :=
  .key :: entry.name.token :: .value :: entry.content.tokens

namespace Lexer

variable {rest : List Char} {line column : Nat} {margins outer : List Nat} {keyAllowed : Bool}
  {found tokens : List Token}

theorem solid_field (field : Field) (rest : List Char) : Solid (field.line ++ rest) := by
  rw [Field.line, List.append_assoc]
  exact phrase_solid field.name.is_phrase _

theorem solid_group (group : Group) (rest : List Char) : Solid (group.lines ++ rest) := by
  rw [Group.lines, List.append_assoc]
  exact solid_field group.first _

theorem ofList_chars (phrase : Phrase) :
    Token.scalar .plain (String.ofList phrase.chars) = phrase.token := by
  rw [Phrase.chars, String.ofList_toList, Phrase.token]

/-- A key in a column is in the mapping of that column. -/
theorem opened_margin (within : margins.headD 0 ≤ column + 1) :
    (opened column margins).headD 0 = column + 1 := by
  unfold opened
  split
  · rfl
  · omega

/-- Over a field and the indentation of the next line, which is not deeper. -/
theorem gives_field (field : Field) (blanks : Nat) (solid : Solid rest) (back : blanks ≤ column)
    (within : margins.headD 0 ≤ column + 1)
    (gives : (scene rest (line + 1) blanks (opened column margins) true
      (field.tokens.reverse ++ ((opening column margins).reverse ++ found))).run = some tokens) :
    (scene (field.line ++ (List.replicate blanks ' ' ++ rest)) line column margins true found).run =
      some tokens := by
  have margin := opened_margin within
  have shape : field.line ++ (List.replicate blanks ' ' ++ rest) =
      field.name.chars ++ ':' :: ' ' :: (field.value.chars ++
        '\n' :: (List.replicate blanks ' ' ++ rest)) := by
    simp [Field.line]
  rw [shape]
  refine gives_key field.name.is_phrase field.name.short field.name.no_marker within rfl
    (gives_blank (phrase_solid field.value.is_phrase _)
      (gives_value field.value.is_phrase blanks solid (by omega) (by omega) (by omega) ?_))
  change (scene rest _ blanks _ true (.scalar .plain (String.ofList field.value.chars) ::
    .value :: .scalar .plain (String.ofList field.name.chars) :: .key :: _)).run = _
  rw [ofList_chars, ofList_chars]
  exact gives

/-- Over fields in the third column. -/
theorem gives_fields (field : Field) (others : List Field) (solid : Solid rest)
    (inside : opened 2 margins = 3 :: outer) (within : margins.headD 0 ≤ 3)
    (gives : ∀ line, (scene rest line 0 (3 :: outer) true
      (((field :: others).flatMap Field.tokens).reverse ++
        ((opening 2 margins).reverse ++ found))).run = some tokens) :
    (scene (field.line ++ (others.flatMap Field.indented ++ rest)) line 2 margins true found).run =
      some tokens := by
  -- The gap behind a value holds the indentation of the next line, so each field goes up to the
  -- name of the next one.
  induction others generalizing field line margins found with
  | nil =>
    refine gives_field field 0 solid (Nat.zero_le _) within ?_
    rw [inside]
    simpa using gives (line + 1)
  | cons next others ih =>
    have shape : field.line ++ ((next :: others).flatMap Field.indented ++ rest) =
        field.line ++ (List.replicate 2 ' ' ++
          (next.line ++ (others.flatMap Field.indented ++ rest))) := by
      simp [Field.indented, List.replicate_succ]
    rw [shape]
    refine gives_field field 2 (solid_field next _) le_rfl within ?_
    rw [inside]
    refine ih next (by simp [opened]) (by simp) fun line => ?_
    have no_opening : opening 2 (3 :: outer) = [] := by simp [opening]
    rw [no_opening]
    simpa using gives line

/-- Over a group, back to the margin around it. -/
theorem gives_group (group : Group) (solid : Solid rest) (outside : outer.headD 0 ≤ 1)
    (gives : ∀ line, (scene rest line 0 outer true (group.tokens.reverse ++ found)).run =
      some tokens) :
    (scene (group.lines ++ rest) line 2 outer true found).run = some tokens := by
  have deeper : outer.headD 0 ≤ 2 := by omega
  rw [Group.lines, List.append_assoc]
  refine gives_fields group.first group.others solid (if_pos deeper) (by omega) fun line => ?_
  refine gives_ends solid (by omega) outside ?_
  have opens : opening 2 outer = [.blockMappingStart] := if_pos deeper
  rw [opens]
  simpa [Group.tokens, Group.fields] using gives line

/-- Over the items of a list in the first column. -/
theorem gives_items (items : List Group) (solid : Solid rest)
    (gives : ∀ line, (scene rest line 0 [1] true
      ((items.flatMap fun group => .blockEntry :: group.tokens).reverse ++ found)).run =
        some tokens) :
    (scene (items.flatMap Group.item ++ rest) line 0 [1] true found).run = some tokens := by
  induction items generalizing line found with
  | nil => exact gives line
  | cons group items ih =>
    have solid' : Solid (items.flatMap Group.item ++ rest) := by
      cases items with
      | nil => exact solid
      | cons next items => exact solid_cons (by decide)
    have shape : (group :: items).flatMap Group.item ++ rest =
        '-' :: ' ' :: (group.lines ++ (items.flatMap Group.item ++ rest)) := by
      simp [Group.item]
    rw [shape]
    refine gives_dash rfl rfl (gives_blank (solid_group group _)
      (gives_group group solid' le_rfl fun line => ih fun line => ?_))
    simpa using gives line

/-- Over what stands behind a colon. -/
theorem gives_content (content : Content) (solid : Solid rest) (behind : 0 < column)
    (gives : ∀ line, (scene rest line 0 [1] true (content.tokens.reverse ++ found)).run =
      some tokens) :
    (scene (content.lines ++ rest) line column [1] false found).run = some tokens := by
  match content with
  | .phrase value =>
    have shape : Content.lines (.phrase value) ++ rest = ' ' :: (value.chars ++ '\n' :: rest) := by
      simp [Content.lines]
    rw [shape]
    refine gives_blank (phrase_solid value.is_phrase _)
      (gives_value value.is_phrase 0 solid (by simp) (by omega) (by simp) ?_)
    change (scene rest _ 0 _ true (.scalar .plain (String.ofList value.chars) :: _)).run = _
    rw [ofList_chars]
    exact gives _
  | .group fields =>
    exact gives_break 2 (solid_group fields rest) (gives_group fields solid le_rfl gives)
  | .groups [] =>
    have solid' : Solid ('[' :: ']' :: '\n' :: rest) := solid_cons (by decide)
    exact gives_blank solid' (gives_brackets (by simp) (gives_break 0 solid (gives _)))
  | .groups (group :: items) =>
    have solid' : Solid ((group :: items).flatMap Group.item ++ rest) := solid_cons (by decide)
    exact gives_break 0 solid' (gives_items (group :: items) solid gives)

/-- Over an entry in the first column. The first entry opens the mapping. -/
theorem gives_entry (entry : Entry) (solid : Solid rest) (inside : opened 0 margins = [1])
    (within : margins.headD 0 ≤ 1)
    (gives : ∀ line, (scene rest line 0 [1] true
      (entry.tokens.reverse ++ ((opening 0 margins).reverse ++ found))).run = some tokens) :
    (scene (entry.lines ++ rest) line 0 margins true found).run = some tokens := by
  have shape : entry.lines ++ rest = entry.name.chars ++ ':' :: (entry.content.lines ++ rest) := by
    simp [Entry.lines]
  have ended : endsWord (entry.content.lines ++ rest) = true := by
    unfold Content.lines
    split <;> rfl
  rw [shape]
  refine gives_key entry.name.is_phrase entry.name.short entry.name.no_marker within ended ?_
  rw [inside]
  refine gives_content entry.content solid (by omega) fun line => ?_
  rw [ofList_chars]
  simpa [Entry.tokens] using gives line

/-- Over entries in the first column, to the end of the text. -/
theorem gives_entries (first : Entry) (others : List Entry) (inside : opened 0 margins = [1])
    (within : margins.headD 0 ≤ 1)
    (gives : ∀ line, (scene [] line 0 [1] true (((first :: others).flatMap Entry.tokens).reverse ++
      ((opening 0 margins).reverse ++ found))).run = some tokens) :
    (scene ((first :: others).flatMap Entry.lines) line 0 margins true found).run =
      some tokens := by
  induction others generalizing first line margins found with
  | nil =>
    have solid : Solid [] := by simp [Solid]
    refine gives_entry first solid inside within fun line => ?_
    simpa using gives line
  | cons next others ih =>
    have solid : Solid ((next :: others).flatMap Entry.lines) := by
      rw [List.flatMap_cons, Entry.lines, List.append_assoc]
      exact phrase_solid next.name.is_phrase _
    refine gives_entry first solid inside within fun line => ?_
    refine ih next rfl le_rfl fun line => ?_
    have no_opening : opening 0 [1] = [] := rfl
    rw [no_opening]
    simpa using gives line

end Lexer

/-! ## Characters -/

theorem unifyBreaks_kept {text : List Char} (kept : text.all isKept = true) :
    unifyBreaks text = text := by
  induction text with
  | nil => rfl
  | cons c text ih =>
    simp only [List.all_cons, isKept, Bool.and_eq_true, bne_iff_ne] at kept
    obtain ⟨⟨⟨-, no_return⟩, no_line⟩, kept⟩ := kept
    rw [unifyBreaks, ih kept, if_neg (by simp [no_return, no_line])]
    intro rest same
    exact absurd same no_return

theorem kept_field (field : Field) : field.line.all isKept = true := by
  simp only [Field.line, List.all_append, List.all_cons, Bool.and_eq_true]
  exact ⟨kept_phrase field.name.is_phrase, rfl, rfl, kept_phrase field.value.is_phrase, rfl, rfl⟩

theorem kept_group (group : Group) : group.lines.all isKept = true := by
  simp only [Group.lines, List.all_append, Bool.and_eq_true, List.all_flatMap]
  refine ⟨kept_field _, List.all_eq_true.mpr fun field _ => ?_⟩
  exact kept_field field

theorem kept_item (group : Group) : group.item.all isKept = true :=
  kept_group group

theorem kept_content (content : Content) : content.lines.all isKept = true := by
  match content with
  | .phrase value =>
    simp only [Content.lines, List.all_append, List.all_cons, Bool.and_eq_true]
    exact ⟨rfl, kept_phrase value.is_phrase, rfl, rfl⟩
  | .group fields => exact kept_group fields
  | .groups [] => rfl
  | .groups (group :: items) =>
    rw [Content.lines, List.all_cons, List.all_flatMap]
    · exact List.all_eq_true.mpr fun item _ => kept_item item
    · exact List.cons_ne_nil _ _

theorem kept_entry (entry : Entry) : entry.lines.all isKept = true := by
  simp only [Entry.lines, List.all_append, List.all_cons, Bool.and_eq_true]
  exact ⟨kept_phrase entry.name.is_phrase, rfl, kept_content _⟩

/-- The tokens of a text of entries, of which there is at least one. -/
theorem tokens_entries (first : Entry) (others : List Entry) :
    tokens? ((first :: others).flatMap Entry.lines) =
      some (.blockMappingStart :: ((first :: others).flatMap Entry.tokens ++
        [.blockEnd, .streamEnd])) := by
  have kept : ((first :: others).flatMap Entry.lines).all isKept = true := by
    rw [List.all_flatMap]
    exact List.all_eq_true.mpr fun entry _ => kept_entry entry
  have allowed : ((first :: others).flatMap Entry.lines).all isAllowed = true := by
    rw [List.all_eq_true] at kept ⊢
    intro c member
    have kept := kept c member
    simp only [isKept, Bool.and_eq_true] at kept
    exact kept.1.1
  rw [tokens?, if_pos allowed, unifyBreaks_kept kept]
  change (Lexer.scene _ 0 0 [] true []).run = _
  refine Lexer.gives_entries first others rfl (Nat.zero_le _) fun line => ?_
  rw [Lexer.gives_end]
  simp [Lexer.endBlocks, Lexer.opening]

end Sentry.Yaml
