import Sentry.Proofs.Yaml.Words

/-! Lines of block mappings. Each lemma goes over one piece of a line: what the
lexer finds behind the piece, it finds in front of it, with the tokens of the
piece put before. -/
namespace Sentry.Yaml.Lexer

variable {rest : List Char} {line column : Nat} {margins : List Nat} {keyAllowed : Bool}
  {found tokens : List Token}

/-- The lexer outside of flow collections, with no key in sight. -/
def scene (rest : List Char) (line column : Nat) (margins : List Nat) (keyAllowed : Bool)
    (found : List Token) : Lexer where
  cursor := ⟨rest, line, column⟩
  margins := margins
  keyAllowed := keyAllowed
  found := found

/-! ## Steps -/

/-- The lexer takes one token. -/
theorem run_step {s ahead next : Lexer} (approach : s.approach? = some ahead)
    (step : ahead.step? = some next)
    (shorter : next.cursor.rest.length < s.cursor.rest.length) (gives : next.run = some tokens) :
    s.run = some tokens := by
  have more : ahead.cursor.rest.isEmpty = false := by
    unfold step? at step
    cases shape : ahead.cursor.rest with
    | nil => simp [shape] at step
    | cons c rest => rfl
  rw [run, approach]
  simp only [more, Bool.false_eq_true, ↓reduceIte, step, if_pos shorter, gives]

/-- Two places from which the same token lies ahead. -/
theorem run_alike {s t : Lexer} (same : s.approach? = t.approach?)
    (behind : t.cursor.rest.length ≤ s.cursor.rest.length) (gives : t.run = some tokens) :
    s.run = some tokens := by
  rw [run] at gives ⊢
  rw [same]
  cases approach : t.approach? with
  | none => simp [approach] at gives
  | some ahead =>
    simp only [approach] at gives ⊢
    split_ifs at gives ⊢
    · exact gives
    · cases step : ahead.step? with
      | none => simp [step] at gives
      | some next =>
        simp only [step] at gives ⊢
        -- A run goes on only where less text is left than it began with, and `s` began with no
        -- less than `t`.
        split_ifs at gives with shorter
        rw [if_pos (shorter.trans_le behind)]
        exact gives

/-! ## Gaps -/

theorem skip_solid (line column : Nat) (solid : Solid rest) :
    Cursor.skipBlank false keyAllowed false line column rest = (keyAllowed, ⟨rest, line, column⟩) := by
  cases rest with
  | nil => rfl
  | cons c rest =>
    obtain ⟨no_break, no_blank, no_comment, no_mark⟩ := solid c rfl
    simp only [isBlank, Bool.or_eq_false_iff] at no_blank
    simp [Cursor.skipBlank, no_break, Cursor.isSeparator, no_blank, no_comment, no_mark]

theorem skip_blanks (line column blanks : Nat) (rest : List Char) :
    Cursor.skipBlank false keyAllowed false line column (List.replicate blanks ' ' ++ rest) =
      Cursor.skipBlank false keyAllowed false line (column + blanks) rest := by
  induction blanks generalizing column with
  | zero => rfl
  | succ blanks ih =>
    rw [List.replicate_succ, List.cons_append, Cursor.skipBlank, if_neg (by decide),
      if_neg (by decide), if_pos (by simp [Cursor.isSeparator]), ih, Nat.add_assoc, Nat.add_comm 1]

/-- Past a gap, with the candidate still fresh. -/
theorem approach_skip {s : Lexer} (moved : Lexer) {cursor : Cursor}
    (skips : Cursor.skipBlank s.inFlow s.keyAllowed false s.cursor.line s.cursor.column
      s.cursor.rest = (keyAllowed, cursor))
    (moves : { s with keyAllowed, cursor } = moved) (fresh : moved.dropStale? = some moved) :
    s.approach? = some (moved.unroll (moved.cursor.column + 1)) := by
  unfold approach?
  rw [skips]
  simp only [moves, fresh, Option.map_some]

theorem approach_scene {text : List Char} {line' column' : Nat} {keyAllowed' : Bool}
    (skips : Cursor.skipBlank false keyAllowed false line column text =
      (keyAllowed', ⟨rest, line', column'⟩)) :
    (scene text line column margins keyAllowed found).approach? =
      some ((scene rest line' column' margins keyAllowed' found).unroll (column' + 1)) :=
  approach_skip (scene rest line' column' margins keyAllowed' found) skips rfl rfl

/-- What ends where the indentation falls back to a column. -/
theorem unroll_scene (limit : Nat) :
    (scene rest line column margins keyAllowed found).unroll limit =
      scene rest line column (endBlocks limit margins found).1 keyAllowed
        (endBlocks limit margins found).2 := rfl

theorem endBlocks_within {limit : Nat} (within : margins.headD 0 ≤ limit) :
    endBlocks limit margins found = (margins, found) := by
  cases margins with
  | nil => rfl
  | cons margin outer => exact if_neg (not_lt.mpr within)

theorem unroll_within (s : Lexer) {limit : Nat} (within : s.margin ≤ limit) :
    s.unroll limit = s := by
  unfold unroll
  split
  · rfl
  · rw [endBlocks_within within]

/-- In front of a token that lies within the margin. -/
theorem approach_solid (solid : Solid rest) (within : margins.headD 0 ≤ column + 1) :
    (scene rest line column margins keyAllowed found).approach? =
      some (scene rest line column margins keyAllowed found) := by
  rw [approach_scene (skip_solid line column solid), unroll_within _ within]

/-- Over a line break and the indentation behind it. -/
theorem gives_break (blanks : Nat) (solid : Solid rest)
    (gives : (scene rest (line + 1) blanks margins true found).run = some tokens) :
    (scene ('\n' :: (List.replicate blanks ' ' ++ rest)) line column margins keyAllowed found).run =
      some tokens := by
  have skips : Cursor.skipBlank false keyAllowed false line column
      ('\n' :: (List.replicate blanks ' ' ++ rest)) = (true, ⟨rest, line + 1, blanks⟩) := by
    rw [Cursor.skipBlank, if_pos (by decide)]
    simp only [Bool.not_false, Bool.or_true]
    rw [skip_blanks, Nat.zero_add, skip_solid _ _ solid]
  refine run_alike ?_ ?_ gives
  · rw [approach_scene skips, approach_scene (skip_solid _ _ solid)]
  · simp only [scene, List.length_cons, List.length_append]
    omega

/-- Over a blank. -/
theorem gives_blank (solid : Solid rest)
    (gives : (scene rest line (column + 1) margins keyAllowed found).run = some tokens) :
    (scene (' ' :: rest) line column margins keyAllowed found).run = some tokens := by
  have skips : Cursor.skipBlank false keyAllowed false line column (' ' :: rest) =
      (keyAllowed, ⟨rest, line, column + 1⟩) := by
    rw [← skip_solid line (column + 1) solid]
    exact skip_blanks line column 1 rest
  refine run_alike ?_ ?_ gives
  · rw [approach_scene skips, approach_scene (skip_solid _ _ solid)]
  · simp [scene]

/-- Over the ends of the collections that the indentation closes. -/
theorem gives_ends (solid : Solid rest) {inner : Nat} (falls : column + 1 < inner)
    (within : margins.headD 0 ≤ column + 1)
    (gives : (scene rest line column margins keyAllowed (.blockEnd :: found)).run = some tokens) :
    (scene rest line column (inner :: margins) keyAllowed found).run = some tokens := by
  refine run_alike (t := scene rest line column margins keyAllowed (.blockEnd :: found)) ?_
    (Nat.le_refl _) gives
  rw [approach_solid solid within, approach_scene (skip_solid _ _ solid), unroll_scene, endBlocks,
    if_pos falls, endBlocks_within within]

theorem endBlocks_endBlocks {low high : Nat} (le : low ≤ high) (margins : List Nat)
    (found : List Token) :
    endBlocks low (endBlocks high margins found).1 (endBlocks high margins found).2 =
      endBlocks low margins found := by
  induction margins generalizing found with
  | nil => rfl
  | cons margin outer ih =>
    by_cases deep : high < margin
    · rw [endBlocks, if_pos deep, ih, endBlocks, if_pos (lt_of_le_of_lt le deep)]
    · rw [endBlocks, if_neg deep]

/-- At the end of the text all collections end. -/
theorem gives_end (line column : Nat) (margins : List Nat) (keyAllowed : Bool)
    (found : List Token) :
    (scene [] line column margins keyAllowed found).run =
      some (.streamEnd :: (endBlocks 0 margins found).2).reverse := by
  have solid : Solid [] := by simp [Solid]
  rw [run, approach_scene (skip_solid line column solid), unroll_scene]
  simp only [scene, List.isEmpty_nil, ↓reduceIte]
  change some (List.reverse (_ :: (endBlocks 0 _ _).2)) = _
  -- The margins have been unrolled in front of the end and are unrolled again behind it.
  rw [endBlocks_endBlocks (Nat.zero_le _)]

/-! ## Phrases -/

/-- A phrase begins a plain scalar, unless it begins with a mark between documents. -/
theorem token_phrase {s : Lexer} {c : Char} {more tail : List Char}
    (is_phrase : isPhrase (c :: more) = true) (flow : s.inFlow = false)
    (no_marker : s.cursor.column = 0 → isMarker (c :: (more ++ tail)) = false) :
    s.token? c (more ++ tail) = s.plainScalar? := by
  have in_front {mark : Bool} (none : s.cursor.column = 0 → mark = false) :
      (s.cursor.column == 0 && mark) = false := by
    by_cases first : s.cursor.column = 0
    · rw [none first, Bool.and_false]
    · simp [first]
  have no_start := in_front fun first => (Bool.or_eq_false_iff.mp (no_marker first)).1
  have no_end := in_front fun first => (Bool.or_eq_false_iff.mp (no_marker first)).2
  obtain ⟨c', more', shape, no_blank, no_break, -, begins⟩ := phrase_cons is_phrase
  obtain ⟨rfl, rfl⟩ := List.cons.inj shape
  unfold token?
  rcases begins with plain | ⟨mark, present, goes⟩
  · have begins : beginsPlain false c (more ++ tail) = true := by
      simp [beginsPlain, no_blank, no_break, plain]
    simp only [isIndicator, isFlowIndicator, Bool.or_eq_false_iff, beq_eq_false_iff_ne] at plain
    obtain ⟨⟨⟨⟨⟨comma, open_⟩, close⟩, open'⟩, close'⟩, others⟩ := plain
    simp at others
    simp [flow, no_start, no_end, begins, comma, open_, close, open', close', others]
  · have goes : endsWord (more ++ tail) = false := by rwa [endsWord_append present]
    have behind : (more ++ tail).head?.any isBlank = false := by
      cases shape : more ++ tail with
      | nil => rfl
      | cons d rest =>
        rw [shape, endsWord, Bool.or_eq_false_iff] at goes
        exact goes.1
    have begins : beginsPlain false c (more ++ tail) = true := by
      rcases mark with rfl | rfl | rfl <;> simp only [beginsPlain, behind, goes] <;> rfl
    rcases mark with rfl | rfl | rfl <;> simp [flow, no_start, no_end, goes, begins]

/-! ## Keys -/

/-- Where a key began. -/
def keyStart (key rest : List Char) (line column : Nat) (margins : List Nat)
    (found : List Token) : Candidate where
  count := found.length
  line := line
  column := column
  rest := key ++ ':' :: rest
  required := margins.headD 0 == column + 1

/-- Behind a key, in front of its colon. -/
def behindKey (key rest : List Char) (line column : Nat) (margins : List Nat)
    (found : List Token) : Lexer :=
  { scene (':' :: rest) line (column + key.length) margins false
      (.scalar .plain (String.ofList key) :: found) with
    candidate := some (keyStart key rest line column margins found) }

/-- The margins within a mapping in a column, which a key there opens unless it is open. -/
def opened (column : Nat) (margins : List Nat) : List Nat :=
  if margins.headD 0 ≤ column then (column + 1) :: margins else margins

/-- The token that opens a mapping in a column, unless it is open. -/
def opening (column : Nat) (margins : List Nat) : List Token :=
  if margins.headD 0 ≤ column then [.blockMappingStart] else []

theorem isMarker_cons (a b c : Char) (rest : List Char) :
    isMarker (a :: b :: c :: rest) =
      ((a == '-' && b == '-' && c == '-' || a == '.' && b == '.' && c == '.') && endsWord rest) := by
  have start : isStartMarker (a :: b :: c :: rest) =
      (a == '-' && b == '-' && c == '-' && endsWord rest) := by
    unfold isStartMarker
    split
    · grind
    · next other =>
      have differs := other rest
      grind
  have stop : isEndMarker (a :: b :: c :: rest) =
      (a == '.' && b == '.' && c == '.' && endsWord rest) := by
    unfold isEndMarker
    split
    · grind
    · next other =>
      have differs := other rest
      grind
  rw [isMarker, start, stop, Bool.and_or_distrib_right]

/-- A mark between documents shows within the key and its colon. -/
theorem isMarker_key (key rest : List Char) :
    isMarker (key ++ ':' :: rest) = isMarker (key ++ [':']) := by
  have ends (more : List Char) : endsWord (more ++ ':' :: rest) = endsWord (more ++ [':']) := by
    cases more <;> rfl
  match key with
  | [] => rfl
  | [a] => simp [isMarker, isStartMarker, isEndMarker]
  | [a, b] => simp [isMarker, isStartMarker, isEndMarker]
  | a :: b :: c :: more =>
    simp only [List.cons_append, isMarker_cons, ends more]

section
variable {key : List Char} (is_phrase : isPhrase key = true)
include is_phrase

theorem step_key (no_marker : isMarker (key ++ [':']) = false)
    (within : margins.headD 0 ≤ column + 1) (ended : endsWord rest = true) :
    (scene (key ++ ':' :: rest) line column margins true found).step? =
      some (behindKey key rest line column margins found) := by
  rw [← isMarker_key key rest] at no_marker
  have plain := plain_key is_phrase line within ended
  obtain ⟨c, more, rfl, -⟩ := phrase_cons is_phrase
  change (scene (c :: (more ++ ':' :: rest)) line column margins true found).token? c
    (more ++ ':' :: rest) = _
  rw [token_phrase is_phrase rfl fun _ => no_marker, plainScalar?]
  change (Scalar.plain? false (margins.headD 0) [] .none line column
    (c :: more ++ ':' :: rest)).map _ = _
  rw [plain]
  rfl

end

theorem approach_behindKey {key : List Char} (short : byteCount key ≤ keyLimit)
    (within : margins.headD 0 ≤ column + 1) :
    (behindKey key rest line column margins found).approach? =
      some (behindKey key rest line column margins found) := by
  have solid : Solid (':' :: rest) := solid_cons (by decide)
  have stale : (behindKey key rest line column margins found).isStale
      (keyStart key rest line column margins found) = false := by
    simp [isStale, keyStart, behindKey, scene, short]
  have fresh : (behindKey key rest line column margins found).dropStale? =
      some (behindKey key rest line column margins found) := by
    change Option.bind (if !_ then _ else _) _ = _
    rw [stale]
    rfl
  have deeper : (behindKey key rest line column margins found).margin ≤ column + key.length + 1 := by
    change margins.headD 0 ≤ _
    omega
  rw [approach_skip (s := behindKey key rest line column margins found) _
    (skip_solid line (column + key.length) solid) rfl fresh]
  exact congrArg some (unroll_within _ deeper)

/-- A key opens the mapping in its column, unless it is open. -/
theorem roll_mapping (s : Lexer) (flow : s.inFlow = false) (column count : Nat)
    (behind : List Token) :
    s.roll column count .blockMappingStart behind =
      { s.insert count (opening column s.margins ++ behind) with
        margins := opened column s.margins } := by
  unfold roll opening opened margin
  rw [flow]
  by_cases opens : s.margins.headD 0 ≤ column
  · simp only [opens, decide_true, Bool.not_false, Bool.and_true, ↓reduceIte, List.singleton_append]
  · simp only [opens, decide_false, Bool.not_false, Bool.and_false, Bool.false_eq_true, ↓reduceIte,
      List.nil_append]
    rfl

/-- A colon behind a key shows that it is one. -/
theorem step_colon (key : List Char) (ended : endsWord rest = true) :
    (behindKey key rest line column margins found).step? =
      some (scene rest line (column + key.length + 1) (opened column margins) false
        (.value :: .scalar .plain (String.ofList key) :: .key ::
          ((opening column margins).reverse ++ found))) := by
  change (behindKey key rest line column margins found).token? ':' rest = _
  have is_value : (behindKey key rest line column margins found).token? ':' rest =
      (behindKey key rest line column margins found).value? := by
    simp [token?, isStartMarker, isEndMarker, ended]
  have later : (found.length + 1) - found.length = 1 := by omega
  have rolled := roll_mapping (behindKey key rest line column margins found) rfl column found.length
    [.key]
  rw [is_value, value?]
  simp only [behindKey, keyStart, scene] at rolled ⊢
  rw [rolled]
  simp [insert, emit, later, Cursor.forward]

/-- Over a key and its colon. -/
theorem gives_key {key : List Char} (is_phrase : isPhrase key = true)
    (short : byteCount key ≤ keyLimit) (no_marker : isMarker (key ++ [':']) = false)
    (within : margins.headD 0 ≤ column + 1) (ended : endsWord rest = true)
    (gives : (scene rest line (column + key.length + 1) (opened column margins) false
      (.value :: .scalar .plain (String.ofList key) :: .key ::
        ((opening column margins).reverse ++ found))).run = some tokens) :
    (scene (key ++ ':' :: rest) line column margins true found).run = some tokens := by
  have solid := phrase_solid is_phrase (':' :: rest)
  refine run_step (approach_solid solid within) (step_key is_phrase no_marker within ended) ?_
    (run_step (approach_behindKey short within) (step_colon key ended) ?_ gives)
  · obtain ⟨c, more, rfl, -⟩ := phrase_cons is_phrase
    simp [scene, behindKey]
  · simp [scene, behindKey]

/-- Over a value and the gap behind it. -/
theorem gives_value {value : List Char} (is_phrase : isPhrase value = true) (blanks : Nat)
    (solid : Solid rest) (outside : blanks < margins.headD 0) (behind : 0 < column)
    (within : margins.headD 0 ≤ column + 1)
    (gives : (scene rest (line + 1) blanks margins true
      (.scalar .plain (String.ofList value) :: found)).run = some tokens) :
    (scene (value ++ '\n' :: (List.replicate blanks ' ' ++ rest)) line column margins false
      found).run = some tokens := by
  refine run_step (approach_solid (phrase_solid is_phrase _) within) ?_ ?_ gives
  · have plain := plain_value line is_phrase solid outside within
    obtain ⟨c, more, rfl, -⟩ := phrase_cons is_phrase
    change token? _ c (more ++ '\n' :: (List.replicate blanks ' ' ++ rest)) = _
    rw [token_phrase is_phrase rfl fun first => absurd first behind.ne', plainScalar?]
    change (Scalar.plain? false (margins.headD 0) [] .none line column
      (c :: more ++ '\n' :: (List.replicate blanks ' ' ++ rest))).map _ = _
    rw [plain]
    rfl
  · simp only [scene, List.length_append, List.length_cons]
    omega

/-- Over a dash in the column of the keys around it. -/
theorem gives_dash (open_ : margins.headD 0 = column + 1) (ended : endsWord rest = true)
    (gives : (scene rest line (column + 1) margins true (.blockEntry :: found)).run =
      some tokens) :
    (scene ('-' :: rest) line column margins true found).run = some tokens := by
  have solid : Solid ('-' :: rest) := solid_cons (by decide)
  refine run_step (approach_solid solid open_.le) ?_ ?_ gives
  · have is_entry (s : Lexer) (flow : s.inFlow = false) :
        s.token? '-' rest = s.blockEntry? := by
      have no_start : isStartMarker ('-' :: rest) = false := by
        cases rest with
        | nil => rfl
        | cons c rest =>
          have other : c ≠ '-' := by
            rintro rfl
            have : endsWord ('-' :: rest) = false := rfl
            rw [this] at ended
            cases ended
          simp [isStartMarker, other]
      simp [token?, isEndMarker, no_start, ended]
    have stays : (scene ('-' :: rest) line column margins true found).roll column found.length
        .blockSequenceStart [] = scene ('-' :: rest) line column margins true found := by
      have deeper : ¬ (scene ('-' :: rest) line column margins true found).margin ≤ column := by
        change ¬ margins.headD 0 ≤ column
        omega
      rw [roll, decide_eq_false deeper, Bool.and_false, if_neg Bool.false_ne_true]
      simp [insert, scene]
    change token? _ '-' rest = _
    rw [is_entry _ rfl, blockEntry?]
    change (Option.map _ ((roll _ column found.length _ []).dropCandidate?)) = _
    rw [stays]
    rfl
  · simp [scene]

/-- Over an empty flow sequence. -/
theorem gives_brackets (within : margins.headD 0 ≤ column + 1)
    (gives : (scene rest line (column + 2) margins false
      (.flowSequenceEnd :: .flowSequenceStart :: found)).run = some tokens) :
    (scene ('[' :: ']' :: rest) line column margins false found).run = some tokens := by
  have open_ : Solid ('[' :: ']' :: rest) := solid_cons (by decide)
  have close : Solid (']' :: rest) := solid_cons (by decide)
  let inside : Lexer :=
    { scene (']' :: rest) line (column + 1) margins true (.flowSequenceStart :: found) with
      outer := [none] }
  have opens : (scene ('[' :: ']' :: rest) line column margins false found).step? = some inside := by
    change token? _ '[' (']' :: rest) = _
    simp [token?, isStartMarker, isEndMarker, openFlow?, markCandidate?, scene, emit,
      Cursor.forward, inside]
  refine run_step (approach_solid open_ within) opens (by simp [scene, inside])
    (run_step (s := inside) (approach_skip inside
      (skip_solid line (column + 1) close) rfl rfl) ?_ ?_ gives)
  · change token? inside ']' rest = _
    simp [token?, isStartMarker, isEndMarker, closeFlow?, dropCandidate?, scene, emit,
      Cursor.forward, inside]
  · simp [scene, inside]

end Sentry.Yaml.Lexer
