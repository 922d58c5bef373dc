import Mathlib
import Sentry.Yaml.Lexer

/-! Plain scalars of one line. A phrase has words with blanks between them, and no
mark in it that would end it. It is read to its end in one go, and so is the gap
between two lines. A phrase without gaps is a word: letters, digits and a few marks
that mean nothing to the lexer. -/
namespace Sentry.Yaml

/-! ## Characters -/

/-- A character that may stand in a text and is kept as it is. -/
def isKept (c : Char) : Bool :=
  isAllowed c && c != '\r' && c != '\u0085'

/-- The next token starts here: no gap and no comment. -/
def Solid (text : List Char) : Prop :=
  ∀ c ∈ text.head?, isBreak c = false ∧ isBlank c = false ∧ c ≠ '#' ∧ c ≠ '\ufeff'

theorem solid_cons {c : Char} {text : List Char} (solid : isBreak c = false ∧
    isBlank c = false ∧ c ≠ '#' ∧ c ≠ '\ufeff') : Solid (c :: text) := by
  rintro c' first
  cases first
  exact solid

theorem endsWord_append {text : List Char} (present : text ≠ []) (tail : List Char) :
    endsWord (text ++ tail) = endsWord text := by
  cases text with
  | nil => exact absurd rfl present
  | cons c text => rfl

/-! ## Phrases -/

/-- A plain scalar goes on to the end of the text, in its line. No comment begins
behind a blank, no colon ends a word, and no blank comes last. -/
def goesOn (blank : Bool) : List Char → Bool
  | [] => !blank
  | c :: rest =>
    if isBlank c then goesOn true rest
    else isKept c && !isBreak c && !(blank && c == '#') && !(c == ':' && endsWord rest) &&
      goesOn false rest

/-- A plain scalar of one line. Of the indicators a dash, a question mark or a colon
may come first, if a word goes on behind it. -/
def isPhrase : List Char → Bool
  | [] => false
  | c :: rest =>
    !isBlank c && c != '\ufeff' &&
      (!Lexer.isIndicator c || ("-?:".toList.contains c && !endsWord rest)) &&
      goesOn false (c :: rest)

theorem goesOn_solid {blank : Bool} {c : Char} {rest : List Char} (no_blank : isBlank c = false)
    (goes : goesOn blank (c :: rest) = true) :
    isKept c = true ∧ isBreak c = false ∧ (blank && c == '#') = false ∧
      (c == ':' && endsWord rest) = false ∧ goesOn false rest = true := by
  rw [goesOn, no_blank, if_neg Bool.false_ne_true] at goes
  simpa only [Bool.and_eq_true, Bool.not_eq_true', and_assoc] using goes

theorem kept_goesOn {blank : Bool} {text : List Char} (goes : goesOn blank text = true) :
    text.all isKept = true := by
  induction text generalizing blank with
  | nil => rfl
  | cons c text ih =>
    rw [List.all_cons, Bool.and_eq_true]
    by_cases gap : isBlank c = true
    · rw [goesOn, if_pos gap] at goes
      simp only [isBlank, Bool.or_eq_true, beq_iff_eq] at gap
      refine ⟨?_, ih goes⟩
      rcases gap with rfl | rfl <;> decide
    · obtain ⟨kept, -, -, -, goes⟩ := goesOn_solid (Bool.not_eq_true _ ▸ gap) goes
      exact ⟨kept, ih goes⟩

theorem fold_blank {gap : Gap} (flat : gap.hasBreak = false) (c : Char) :
    (gap.blank c).hasBreak = false ∧ (gap.blank c).isOpen = true ∧
      (gap.blank c).fold = c :: gap.fold := by
  cases gap with
  | none => exact ⟨rfl, rfl, rfl⟩
  | blanks seen => exact ⟨rfl, rfl, rfl⟩
  | breaks first others => cases flat

/-- Nothing in a phrase ends a plain scalar, unless it has begun in front of the
margin. -/
theorem plain_goesOn {margin : Nat} (line column : Nat) {gap : Gap} {text : List Char}
    (flat : gap.hasBreak = false) (goes : goesOn gap.isOpen text = true)
    (within : margin ≤ column + 1) (inside : gap.isOpen = true → margin ≤ column ∧ 0 < column)
    (read tail : List Char) :
    Scalar.plain? false margin read gap line column (text ++ tail) =
      Scalar.plain? false margin (text.reverse ++ (gap.fold ++ read)) .none line
        (column + text.length) tail := by
  -- Blanks gather in the gap until a word folds it into what is read; only behind an open gap do
  -- the margin and the column matter.
  induction text generalizing gap column read with
  | nil =>
    cases gap with
    | none => rfl
    | blanks seen => cases goes
    | breaks first others => cases flat
  | cons c text ih =>
    by_cases blank : isBlank c = true
    · obtain ⟨flat', isOpen, fold⟩ := fold_blank flat c
      have no_break : isBreak c = false := by
        simp only [isBlank, Bool.or_eq_true, beq_iff_eq] at blank
        rcases blank with rfl | rfl <;> rfl
      rw [goesOn, if_pos blank] at goes
      rw [List.cons_append, Scalar.plain?, no_break, blank, flat]
      simp only [Bool.false_eq_true, Bool.false_and, ↓reduceIte]
      rw [ih (column + 1) flat' (isOpen ▸ goes) (by omega) (by omega), fold]
      simp [Nat.add_assoc, Nat.add_comm 1]
    · have no_blank : isBlank c = false := Bool.not_eq_true _ ▸ blank
      obtain ⟨-, no_break, no_comment, no_colon, goes⟩ := goesOn_solid no_blank goes
      have no_end : Scalar.endsWithin false c (text ++ tail) = false := by
        rw [Scalar.endsWithin, Bool.false_and, Bool.or_false]
        by_cases last : text = []
        · subst last
          rw [show endsWord [] = true from rfl, Bool.and_true] at no_colon
          rw [no_colon, Bool.false_and]
        · rwa [endsWord_append last]
      have stays : (gap.isOpen && Scalar.endsBeforeWord false margin column (c :: (text ++ tail))) =
          false := by
        cases opened : gap.isOpen with
        | false => rfl
        | true =>
          obtain ⟨deep, behind⟩ := inside opened
          rw [opened, Bool.true_and] at no_comment
          simp [Scalar.endsBeforeWord, deep, behind.ne', beq_eq_false_iff_ne.mp no_comment]
      rw [List.cons_append, Scalar.plain?, no_break, no_blank, stays, no_end]
      simp only [Bool.false_eq_true, Bool.false_and, ↓reduceIte]
      have more := ih (column + 1) (show Gap.none.hasBreak = false from rfl) goes (by omega)
        (fun opened => absurd opened Bool.false_ne_true) (c :: (gap.fold ++ read))
      rw [more]
      simp [Gap.fold, Nat.add_assoc, Nat.add_comm 1]

section
variable {text : List Char} (is_phrase : isPhrase text = true)
include is_phrase

theorem phrase_goesOn : goesOn false text = true := by
  cases text with
  | nil => cases is_phrase
  | cons c rest =>
    rw [isPhrase, Bool.and_eq_true] at is_phrase
    exact is_phrase.2

theorem kept_phrase : text.all isKept = true :=
  kept_goesOn (phrase_goesOn is_phrase)

/-- How a phrase begins. -/
theorem phrase_cons : ∃ c rest, text = c :: rest ∧ isBlank c = false ∧ isBreak c = false ∧
    c ≠ '\ufeff' ∧ (Lexer.isIndicator c = false ∨
      ((c = '-' ∨ c = '?' ∨ c = ':') ∧ rest ≠ [] ∧ endsWord rest = false)) := by
  have goes := phrase_goesOn is_phrase
  cases text with
  | nil => cases is_phrase
  | cons c rest =>
    simp only [isPhrase, Bool.and_eq_true, Bool.or_eq_true, Bool.not_eq_true', bne_iff_ne] at is_phrase
    obtain ⟨⟨⟨no_blank, no_mark⟩, begins⟩, -⟩ := is_phrase
    obtain ⟨-, no_break, -⟩ := goesOn_solid no_blank goes
    refine ⟨c, rest, rfl, no_blank, no_break, no_mark, begins.imp_right ?_⟩
    rintro ⟨mark, more⟩
    refine ⟨by simpa using mark, ?_, more⟩
    rintro rfl
    cases more

theorem phrase_solid (rest : List Char) : Solid (text ++ rest) := by
  obtain ⟨c, more, rfl, no_blank, no_break, no_mark, begins⟩ := phrase_cons is_phrase
  refine solid_cons ⟨no_break, no_blank, ?_, no_mark⟩
  rintro rfl
  rcases begins with plain | ⟨mark, -⟩
  · cases plain
  · simp at mark

/-- A phrase is read to its end. -/
theorem plain_phrase {margin column : Nat} (line : Nat) (within : margin ≤ column + 1)
    (tail : List Char) :
    Scalar.plain? false margin [] .none line column (text ++ tail) =
      Scalar.plain? false margin text.reverse .none line (column + text.length) tail := by
  have read := plain_goesOn line column (show Gap.none.hasBreak = false from rfl)
    (phrase_goesOn is_phrase) within (fun opened => absurd opened Bool.false_ne_true) [] tail
  simpa [Gap.fold] using read

/-- A key ends at its colon. -/
theorem plain_key {margin column : Nat} (line : Nat) (within : margin ≤ column + 1)
    {rest : List Char} (ended : endsWord rest = true) :
    Scalar.plain? false margin [] .none line column (text ++ ':' :: rest) =
      some (String.ofList text, false, ⟨':' :: rest, line, column + text.length⟩) := by
  rw [plain_phrase is_phrase line within, Scalar.plain?]
  simp [isBreak, isUnicodeBreak, isBlank, Gap.isOpen, Scalar.isStrayColon, Scalar.endsWithin, ended,
    Gap.hasBreak]

end

/-- Blanks after a break are passed over. -/
theorem plain_blanks (margin line column : Nat) (read : List Char) (first : Option Char)
    (others : List Char) (blanks : Nat) (rest : List Char) :
    Scalar.plain? false margin read (.breaks first others) line column
        (List.replicate blanks ' ' ++ rest) =
      Scalar.plain? false margin read (.breaks first others) line (column + blanks) rest := by
  induction blanks generalizing column with
  | zero => rfl
  | succ blanks ih =>
    rw [List.replicate_succ, List.cons_append, Scalar.plain?, if_neg (by decide),
      if_pos (show isBlank ' ' = true from rfl), if_neg (by simp)]
    change Scalar.plain? false margin read (.breaks first others) line (column + 1) _ = _
    rw [ih, Nat.add_assoc, Nat.add_comm 1]

/-- A value ends with its line, where the next line starts in front of the
margin. -/
theorem plain_value {margin blanks column : Nat} (line : Nat) {value : List Char}
    (is_phrase : isPhrase value = true) {rest : List Char} (solid : Solid rest)
    (outside : blanks < margin) (within : margin ≤ column + 1) :
    Scalar.plain? false margin [] .none line column
        (value ++ '\n' :: (List.replicate blanks ' ' ++ rest)) =
      some (String.ofList value, true, ⟨rest, line + 1, blanks⟩) := by
  rw [plain_phrase is_phrase line within, Scalar.plain?,
    if_pos (show isBreak '\n' = true from rfl)]
  change Scalar.plain? false margin value.reverse (.breaks (some '\n') []) (line + 1) 0 _ = _
  rw [plain_blanks, Nat.zero_add]
  cases rest with
  | nil => simp [Scalar.plain?, Gap.hasBreak]
  | cons c rest =>
    obtain ⟨no_break, no_blank, -⟩ := solid c rfl
    rw [Scalar.plain?]
    simp [no_break, no_blank, Gap.isOpen, Scalar.endsBeforeWord, outside, Gap.hasBreak]

/-! ## Words -/

/-- Letters, digits and marks that mean nothing within a plain scalar. -/
def isWordPart (c : Char) : Bool :=
  c.isAlphanum || c == '_' || c == '.' || c == '-' || c == '+'

/-- A plain scalar without gaps. A lone dash is none. -/
structure IsWord (text : List Char) : Prop where
  parts : ∀ c ∈ text, isWordPart c = true
  present : text ≠ []
  no_dash : text ≠ ['-']

instance (text : List Char) : Decidable (IsWord text) :=
  decidable_of_iff (text.all isWordPart = true ∧ text ≠ [] ∧ text ≠ ['-'])
    ⟨fun ⟨parts, present, no_dash⟩ => ⟨List.all_eq_true.mp parts, present, no_dash⟩,
      fun ⟨parts, present, no_dash⟩ => ⟨List.all_eq_true.mpr parts, present, no_dash⟩⟩

theorem part_ne {c special : Char} (part : isWordPart c = true)
    (other : isWordPart special = false) : c ≠ special := by
  rintro rfl
  rw [part] at other
  cases other

theorem part_solid {c : Char} (part : isWordPart c = true) :
    isBreak c = false ∧ isBlank c = false ∧ c ≠ '#' ∧ c ≠ '\ufeff' := by
  refine ⟨?_, ?_, part_ne part rfl, part_ne part rfl⟩
  · simp only [isBreak, isUnicodeBreak, Bool.or_eq_false_iff, beq_eq_false_iff_ne]
    exact ⟨part_ne part rfl, part_ne part rfl, part_ne part rfl⟩
  · simp only [isBlank, Bool.or_eq_false_iff, beq_eq_false_iff_ne]
    exact ⟨part_ne part rfl, part_ne part rfl⟩

theorem part_code {c : Char} (part : isWordPart c = true) : 0x20 ≤ c.toNat ∧ c.toNat ≤ 0x7E := by
  simp only [isWordPart, Char.isAlphanum, Char.isAlpha, Char.isUpper, Char.isLower, Char.isDigit,
    Bool.or_eq_true, Bool.and_eq_true, decide_eq_true_eq, beq_iff_eq, ge_iff_le,
    UInt32.le_iff_toNat_le] at part
  change 0x20 ≤ c.val.toNat ∧ c.val.toNat ≤ 0x7E
  rcases part with ((((((upper | lower) | digit) | rfl) | rfl) | rfl) | rfl)
  · change 65 ≤ c.val.toNat ∧ c.val.toNat ≤ 90 at upper
    omega
  · change 97 ≤ c.val.toNat ∧ c.val.toNat ≤ 122 at lower
    omega
  · change 48 ≤ c.val.toNat ∧ c.val.toNat ≤ 57 at digit
    omega
  all_goals decide

theorem part_kept {c : Char} (part : isWordPart c = true) : isKept c = true := by
  obtain ⟨low, high⟩ := part_code part
  simp [isKept, isAllowed, low, high, part_ne part (show isWordPart '\r' = false from rfl),
    part_ne part (show isWordPart '\u0085' = false from rfl)]

theorem part_indicator {c : Char} (part : isWordPart c = true) (no_dash : c ≠ '-') :
    Lexer.isIndicator c = false := by
  have marks : "-?:#&*!|>'\"%@\x60,[]\x7b\x7d".toList.all (fun special =>
      special == '-' || !isWordPart special) = true := by decide
  have indicators : Lexer.isIndicator c = true → c ∈ "-?:#&*!|>'\"%@\x60,[]\x7b\x7d".toList := by
    simp only [Lexer.isIndicator, isFlowIndicator, Bool.or_eq_true, beq_iff_eq, List.contains_iff_mem]
    rintro (((((rfl | rfl) | rfl) | rfl) | rfl) | member)
    any_goals decide
    exact List.mem_append_left [',', '[', ']', '\x7b', '\x7d'] member
  rw [← Bool.not_eq_true]
  intro indicator
  have mark := List.all_eq_true.mp marks c (indicators indicator)
  simp [part, no_dash] at mark

theorem word_goesOn {word : List Char} (parts : ∀ c ∈ word, isWordPart c = true) :
    goesOn false word = true := by
  induction word with
  | nil => rfl
  | cons c word ih =>
    rw [List.forall_mem_cons] at parts
    obtain ⟨no_break, no_blank, -⟩ := part_solid parts.1
    have no_colon : c ≠ ':' := part_ne parts.1 rfl
    simp [goesOn, no_blank, no_break, no_colon, part_kept parts.1, ih parts.2]

/-- A word is a phrase. -/
theorem word_phrase {word : List Char} (is_word : IsWord word) : isPhrase word = true := by
  obtain ⟨parts, present, no_dash⟩ := is_word
  have goes := word_goesOn parts
  cases word with
  | nil => exact absurd rfl present
  | cons c rest =>
    have part := parts c List.mem_cons_self
    obtain ⟨-, no_blank, -, no_mark⟩ := part_solid part
    have begins : (!Lexer.isIndicator c || ("-?:".toList.contains c && !endsWord rest)) = true := by
      by_cases dash : c = '-'
      · cases rest with
        | nil => exact absurd (dash ▸ rfl) no_dash
        | cons d rest =>
          obtain ⟨no_break, no_blank, -⟩ := part_solid (parts d (by simp))
          simp [dash, endsWord, no_break, no_blank]
      · rw [part_indicator part dash]
        rfl
    simp only [isPhrase, no_blank, begins, goes, bne_iff_ne.mpr no_mark, Bool.not_false, Bool.and_self]

end Sentry.Yaml
