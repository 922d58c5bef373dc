import Mathlib.Data.List.TakeWhile
import Sentry.Json.Printer
import Sentry.Json.Reader

/-! What is printed is cut into lexemes again. A number or a word is finished only
by what comes after it, so a text is followed to where its last lexeme could be
finished, and a mark of punctuation finishes it. -/
namespace Sentry.Json

/-! ## Values that have a text -/

/-- Numbers are spelled by the grammar, and strings and names are text. -/
inductive Value.Written : Value → Prop
  | null : Written .null
  | bool (value : Bool) : Written (.bool value)
  | number {spelling : String} (legal : Number.isSpelling spelling.toList = true) :
      Written (.number spelling)
  | string (text : String) : Written (.string (some text))
  | array {items : List Value} (each : ∀ item ∈ items, Written item) : Written (.array items)
  | object {members : List (Option String × Value)}
      (named : ∀ member ∈ members, ∃ name, member.1 = some name)
      (each : ∀ member ∈ members, Written member.2) : Written (.object members)

namespace Value

mutual

/-- The lexemes of a value. -/
def lexemes : Value → List Lexeme
  | .array items => .openArray :: itemLexemes items ++ [.closeArray]
  | .object members => .openObject :: memberLexemes members ++ [.closeObject]
  | .null => [.scalar .null]
  | .bool value => [.scalar (.bool value)]
  | .number spelling => [.scalar (.number spelling)]
  | .string text => [.scalar (.string text)]

/-- The items of an array, with the commas between them. -/
def itemLexemes : List Value → List Lexeme
  | [] => []
  | [value] => value.lexemes
  | value :: rest => value.lexemes ++ .comma :: itemLexemes rest

/-- The members of an object, with the commas between them. -/
def memberLexemes : List (Option String × Value) → List Lexeme
  | [] => []
  | [(name, value)] => .scalar (.string name) :: .colon :: value.lexemes
  | (name, value) :: rest =>
    .scalar (.string name) :: .colon :: value.lexemes ++ .comma :: memberLexemes rest

end

end Value

/-! ## Texts and their lexemes -/

/-- Read from between two lexemes, a text adds some lexemes to those found. The
last of them may be unfinished, if it could be finished here. -/
def Scans (text : List Char) (lexemes : List Lexeme) : Prop :=
  ∀ found, ∃ s, text.foldlM Scanner.step ⟨.between, found⟩ = some s ∧
    s.finish? = some (found.reverse ++ lexemes)

/-- Marks that stand between values or around them. -/
inductive Punctuation : Char → Lexeme → Prop
  | comma : Punctuation ',' .comma
  | colon : Punctuation ':' .colon
  | openArray : Punctuation '[' .openArray
  | closeArray : Punctuation ']' .closeArray
  | openObject : Punctuation '\x7b' .openObject
  | closeObject : Punctuation '\x7d' .closeObject

section
variable {c : Char} {mark : Lexeme} {text more : List Char} {lexemes others : List Lexeme}

theorem punctuation_start (is_mark : Punctuation c mark) (found : List Lexeme) :
    Scanner.start c found = some ⟨.between, mark :: found⟩ := by
  cases is_mark <;> rfl

/-- A mark finishes what can be finished. -/
theorem punctuation_ends (is_mark : Punctuation c mark) {s : Scanner}
    (finished : s.finish? = some lexemes) :
    s.step c = some ⟨.between, mark :: lexemes.reverse⟩ := by
  obtain ⟨no_letter, no_part⟩ : c.isAlpha = false ∧ Number.isPart c = false := by
    cases is_mark <;> decide
  obtain ⟨place, found⟩ := s
  cases place with
  | between =>
    obtain rfl : found.reverse = lexemes := by simpa [Scanner.finish?] using finished
    rw [List.reverse_reverse]
    exact punctuation_start is_mark found
  | word letters =>
    obtain ⟨last, known, rfl⟩ := Option.map_eq_some_iff.mp finished
    simp [Scanner.step, no_letter, known, punctuation_start is_mark]
  | number part =>
    obtain ⟨last, known, rfl⟩ := Option.map_eq_some_iff.mp finished
    simp [Scanner.step, no_part, known, punctuation_start is_mark]
  | string units => cases finished
  | escape units => cases finished
  | hex units left value => cases finished

theorem scans_nil : Scans [] [] :=
  fun found => ⟨⟨.between, found⟩, rfl, by simp [Scanner.finish?]⟩

/-- Two texts with a mark between them. -/
theorem scans_around (first : Scans text lexemes) (is_mark : Punctuation c mark)
    (second : Scans more others) : Scans (text ++ c :: more) (lexemes ++ mark :: others) := by
  intro found
  obtain ⟨s, read, finished⟩ := first found
  have marked := punctuation_ends is_mark finished
  obtain ⟨s', read', finished'⟩ := second (mark :: (found.reverse ++ lexemes).reverse)
  refine ⟨s', ?_, ?_⟩
  · rw [List.foldlM_append, read]
    change (s.step c >>= fun s => more.foldlM Scanner.step s) = some s'
    rw [marked]
    exact read'
  · rw [finished']
    simp

end

/-! ## Words -/

/-- A word is finished by anything but a letter. -/
theorem scans_word {word : List Char} {lexeme : Lexeme}
    (known : Scanner.word? word.reverse = some lexeme)
    (read : ∀ found, word.foldlM Scanner.step ⟨.between, found⟩ = some ⟨.word word.reverse, found⟩) :
    Scans word [lexeme] :=
  fun found => ⟨⟨.word word.reverse, found⟩, read found, by simp [Scanner.finish?, known]⟩

theorem scans_null : Scans "null".toList [.scalar .null] :=
  scans_word rfl fun _ => rfl

theorem scans_bool (value : Bool) : Scans (Value.bool value).chars [.scalar (.bool value)] := by
  cases value
  · exact scans_word rfl fun _ => rfl
  · exact scans_word rfl fun _ => rfl

/-! ## Numbers -/

section
variable {c : Char} {text rest : List Char}

theorem digit_is_part (digit : c.isDigit = true) : Number.isPart c = true := by
  simp [Number.isPart, digit]

private theorem run_parts (text : List Char) :
    ∃ digits, text = digits ++ text.dropWhile Char.isDigit ∧
      ∀ c ∈ digits, Number.isPart c = true :=
  ⟨text.takeWhile Char.isDigit, List.takeWhile_append_dropWhile.symm,
    fun _ member => digit_is_part (List.mem_takeWhile_imp member)⟩

theorem digits_parts (read : Number.afterDigits? text = some rest) :
    ∃ digits, text = digits ++ rest ∧ ∀ c ∈ digits, Number.isPart c = true := by
  cases text with
  | nil => cases read
  | cons c others =>
    simp only [Number.afterDigits?] at read
    split at read
    next digit =>
      cases read
      obtain ⟨digits, shape, parts⟩ := run_parts others
      exact ⟨c :: digits, congrArg (c :: ·) shape,
        List.forall_mem_cons.mpr ⟨digit_is_part digit, parts⟩⟩
    next => cases read

/-- The digits before the point are there. -/
theorem whole_parts (read : Number.afterWhole? text = some rest) :
    ∃ first digits, text = first :: digits ++ rest ∧ first.isDigit = true ∧
      ∀ c ∈ digits, Number.isPart c = true := by
  unfold Number.afterWhole? at read
  split at read
  next others =>
    cases read
    exact ⟨'0', [], rfl, by decide, by simp⟩
  next c others _ =>
    split at read
    next digit =>
      cases read
      obtain ⟨digits, shape, parts⟩ := run_parts others
      exact ⟨c, digits, congrArg (c :: ·) shape, digit, parts⟩
    next => cases read
  next => cases read

theorem fraction_parts (read : Number.afterFraction? text = some rest) :
    ∃ fraction, text = fraction ++ rest ∧ ∀ c ∈ fraction, Number.isPart c = true := by
  unfold Number.afterFraction? at read
  split at read
  next others =>
    obtain ⟨digits, rfl, parts⟩ := digits_parts read
    exact ⟨'.' :: digits, rfl, List.forall_mem_cons.mpr ⟨by decide, parts⟩⟩
  next =>
    cases read
    exact ⟨[], rfl, by simp⟩

theorem exponent_parts (read : Number.afterExponent? text = some rest) :
    ∃ exponent, text = exponent ++ rest ∧ ∀ c ∈ exponent, Number.isPart c = true := by
  unfold Number.afterExponent? at read
  split at read
  next c others =>
    split at read
    next letter =>
      have part : Number.isPart c = true := by
        rcases letter with rfl | rfl <;> decide
      split at read
      next sign digits =>
        split at read
        next signed =>
          have sign_part : Number.isPart sign = true := by
            rcases signed with rfl | rfl <;> decide
          obtain ⟨digits, rfl, parts⟩ := digits_parts read
          exact ⟨c :: sign :: digits, rfl, List.forall_mem_cons.mpr
            ⟨part, List.forall_mem_cons.mpr ⟨sign_part, parts⟩⟩⟩
        next =>
          obtain ⟨digits, shape, parts⟩ := digits_parts read
          exact ⟨c :: digits, congrArg (c :: ·) shape, List.forall_mem_cons.mpr ⟨part, parts⟩⟩
      next => cases read
    next =>
      cases read
      exact ⟨[], rfl, by simp⟩
  next =>
    cases read
    exact ⟨[], rfl, by simp⟩

/-- A number begins with a sign or a digit, and holds nothing else than numbers
may hold. -/
theorem spelling_parts (legal : Number.isSpelling text = true) :
    (∀ c ∈ text, Number.isPart c = true) ∧
      ∃ first rest, text = first :: rest ∧ (first = '-' ∨ first.isDigit = true) := by
  have unsigned_parts : ∀ unsigned : List Char,
      (((Number.afterWhole? unsigned).bind Number.afterFraction?).bind Number.afterExponent? ==
        some []) = true →
        (∀ c ∈ unsigned, Number.isPart c = true) ∧
          ∃ first rest, unsigned = first :: rest ∧ first.isDigit = true := by
    intro unsigned read
    obtain ⟨behind, read, exponent⟩ := Option.bind_eq_some_iff.mp (beq_iff_eq.mp read)
    obtain ⟨point, whole, fraction⟩ := Option.bind_eq_some_iff.mp read
    obtain ⟨first, digits, rfl, digit, digits_part⟩ := whole_parts whole
    obtain ⟨decimals, rfl, decimals_part⟩ := fraction_parts fraction
    obtain ⟨power, rfl, power_part⟩ := exponent_parts exponent
    refine ⟨?_, first, _, rfl, digit⟩
    simp only [List.cons_append, List.append_nil, List.forall_mem_cons, List.forall_mem_append]
    exact ⟨digit_is_part digit, digits_part, decimals_part, power_part⟩
  unfold Number.isSpelling at legal
  dsimp only at legal
  split at legal
  next unsigned =>
    obtain ⟨parts, -⟩ := unsigned_parts unsigned legal
    exact ⟨List.forall_mem_cons.mpr ⟨by decide, parts⟩, '-', unsigned, rfl, .inl rfl⟩
  next =>
    obtain ⟨parts, first, rest, shape, digit⟩ := unsigned_parts text legal
    exact ⟨parts, first, rest, shape, .inr digit⟩

theorem fold_number (parts : ∀ c ∈ text, Number.isPart c = true) (read : List Char)
    (found : List Lexeme) : text.foldlM Scanner.step ⟨.number read, found⟩ =
      some ⟨.number (text.reverse ++ read), found⟩ := by
  induction text generalizing read with
  | nil => rfl
  | cons c others ih =>
    obtain ⟨part, others_part⟩ := List.forall_mem_cons.mp parts
    have step : Scanner.step ⟨.number read, found⟩ c = some ⟨.number (c :: read), found⟩ := by
      simp [Scanner.step, part]
    rw [List.foldlM_cons, step]
    simpa using ih others_part (c :: read)

theorem start_number {first : Char} (begins : first = '-' ∨ first.isDigit = true)
    (found : List Lexeme) : Scanner.start first found = some ⟨.number [first], found⟩ := by
  have part : Number.isPart first = true := by
    rcases begins with rfl | digit
    · decide
    · exact digit_is_part digit
  have other : ∀ c : Char, c.isDigit = false → c ≠ '-' → first ≠ c := by
    rintro c no_digit no_sign rfl
    rcases begins with sign | digit
    · exact no_sign sign
    · rw [no_digit] at digit
      cases digit
  have no_blank : Scanner.isBlank first = false := by
    simp [Scanner.isBlank, other ' ', other '\t', other '\n', other '\r']
  have no_letter : first ≠ 'e' ∧ first ≠ 'E' := ⟨other 'e' (by decide) (by decide),
    other 'E' (by decide) (by decide)⟩
  simp [Scanner.start, no_blank, part, no_letter]

theorem scans_number {spelling : String} (legal : Number.isSpelling spelling.toList = true) :
    Scans spelling.toList [.scalar (.number spelling)] := by
  intro found
  obtain ⟨parts, first, rest, shape, begins⟩ := spelling_parts legal
  have known : Scanner.number? spelling.toList.reverse = some (.scalar (.number spelling)) := by
    simp [Scanner.number?, legal]
  refine ⟨⟨.number spelling.toList.reverse, found⟩, ?_, by simp [Scanner.finish?, known]⟩
  rw [shape] at parts ⊢
  have step : Scanner.step ⟨.between, found⟩ first = some ⟨.number [first], found⟩ :=
    start_number begins found
  rw [List.foldlM_cons, step]
  simpa using fold_number (List.forall_mem_cons.mp parts).2 [first] found

end

/-! ## Strings -/

section
variable (c : Char) (units : List Nat) (found : List Lexeme)

theorem hexValue_hexDigit (n : Nat) : hexValue? (hexDigit n) = some (n % 16) := by
  have each : ∀ digit < 16, hexValue? (Nat.digitChar digit) = some digit := by decide
  exact each (n % 16) (Nat.mod_lt n (by decide))

/-- An escape is read as the character that it stands for. -/
theorem fold_escape : (escape c).foldlM Scanner.step ⟨.string units, found⟩ =
    some ⟨.string (c.toNat :: units), found⟩ := by
  unfold escape
  split
  all_goals try rfl
  next no_quote no_slash _ _ _ _ _ =>
    split
    next control =>
      have value : 16 * (c.toNat / 16 % 16) + c.toNat % 16 = c.toNat := by omega
      have zero : hexValue? '0' = some 0 := by decide
      simp [Scanner.step, hexValue_hexDigit, zero, value]
    next plain =>
      have other : c ≠ '"' ∧ c ≠ '\\' := ⟨no_quote, no_slash⟩
      simp [Scanner.step, other, plain]

theorem fold_text (text : List Char) :
    (text.flatMap escape).foldlM Scanner.step ⟨.string units, found⟩ =
      some ⟨.string ((text.map Char.toNat).reverse ++ units), found⟩ := by
  induction text generalizing units with
  | nil => rfl
  | cons c rest ih =>
    rw [List.flatMap_cons, List.foldlM_append, fold_escape]
    simpa using ih (c.toNat :: units)

/-- No character is half of a surrogate pair. -/
theorem char_is_whole : Units.isLead c.toNat = false ∧ Units.isTrail c.toNat = false := by
  have valid : c.toNat < 0xD800 ∨ 0xDFFF < c.toNat ∧ c.toNat < 0x110000 := c.valid
  simp only [Units.isLead, Units.isTrail, Bool.and_eq_false_iff, decide_eq_false_iff_not]
  omega

theorem chars_of_units (text : List Char) : Units.chars? (text.map Char.toNat) = some text := by
  induction text with
  | nil => rfl
  | cons c rest ih =>
    obtain ⟨no_lead, no_trail⟩ := char_is_whole c
    cases rest with
    | nil => simp [Units.chars?, no_lead, no_trail, Char.ofNat_toNat]
    | cons next others =>
      rw [List.map_cons] at ih
      rw [List.map_cons, List.map_cons, Units.chars?, no_lead, no_trail, ih]
      simp [Char.ofNat_toNat]

end

theorem scans_quote (text : String) :
    Scans (quote text.toList) [.scalar (.string (some text))] := by
  intro found
  have opened : Scanner.step ⟨.between, found⟩ '"' = some ⟨.string [], found⟩ := rfl
  have closed : ∀ units, Scanner.step ⟨.string units, found⟩ '"' =
      some ⟨.between, Scanner.string units :: found⟩ := fun units => rfl
  refine ⟨⟨.between, .scalar (.string (some text)) :: found⟩, ?_, by simp [Scanner.finish?]⟩
  rw [quote, List.cons_append, List.foldlM_cons, opened]
  change ((text.toList.flatMap escape ++ ['"']).foldlM Scanner.step ⟨.string [], found⟩) = _
  rw [List.foldlM_append, fold_text]
  simp [closed, Scanner.string, chars_of_units]

/-! ## Values -/

theorem scans_items {items : List Value} (each : ∀ item ∈ items, Scans item.chars item.lexemes) :
    Scans (Value.itemChars items) (Value.itemLexemes items) := by
  induction items with
  | nil => exact scans_nil
  | cons item rest ih =>
    obtain ⟨first, others⟩ := List.forall_mem_cons.mp each
    cases rest with
    | nil => exact first
    | cons next more => exact scans_around first .comma (ih others)

theorem scans_member {name : Option String} {value : Value} (named : ∃ text, name = some text)
    (read : Scans value.chars value.lexemes) :
    Scans (quote (name.getD "").toList ++ ':' :: value.chars)
      (.scalar (.string name) :: .colon :: value.lexemes) := by
  obtain ⟨text, rfl⟩ := named
  exact scans_around (scans_quote text) .colon read

theorem scans_members {members : List (Option String × Value)}
    (named : ∀ member ∈ members, ∃ name, member.1 = some name)
    (each : ∀ member ∈ members, Scans member.2.chars member.2.lexemes) :
    Scans (Value.memberChars members) (Value.memberLexemes members) := by
  induction members with
  | nil => exact scans_nil
  | cons member rest ih =>
    obtain ⟨name, value⟩ := member
    obtain ⟨first, others⟩ := List.forall_mem_cons.mp each
    obtain ⟨first_named, others_named⟩ := List.forall_mem_cons.mp named
    have begun := scans_member first_named first
    cases rest with
    | nil => exact begun
    | cons next more => exact scans_around begun .comma (ih others_named others)

/-- The text of a value is cut into the lexemes of the value. -/
theorem scans_value {value : Value} (written : value.Written) :
    Scans value.chars value.lexemes := by
  induction written with
  | null => exact scans_null
  | bool value =>
    rw [Value.lexemes]
    exact scans_bool value
  | number legal => exact scans_number legal
  | string text => exact scans_quote text
  | array each ih =>
    have opened := scans_around scans_nil .openArray (scans_items ih)
    exact scans_around opened .closeArray scans_nil
  | object named each ih =>
    have opened := scans_around scans_nil .openObject (scans_members named ih)
    exact scans_around opened .closeObject scans_nil

theorem lexemes_chars {value : Value} (written : value.Written) :
    lexemes? value.chars = some value.lexemes := by
  obtain ⟨s, read, finished⟩ := scans_value written []
  have from_start : value.chars.foldlM Scanner.step {} = some s := read
  rw [lexemes?, from_start]
  exact finished

end Sentry.Json
