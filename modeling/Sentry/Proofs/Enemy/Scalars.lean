import Sentry.Proofs.Decimal.Literals
import Sentry.Proofs.Enemy.Numbers
import Sentry.Proofs.Yaml.Documents

/-! Scalars in files. A grammar says which texts denote numbers and which numbers
they denote; what it derives is read as just that. All such texts are words, so they
can stand as plain scalars. -/
namespace Sentry.Enemy
open Yaml (Document IsWord Phrase)
open Numeral (AllDigits)

/-- The texts of numbers, with the binary64 numbers that they denote. -/
inductive DenotesNumber : List Char → Float → Prop
  | literal (literal : Literal) (finite : literal.numeral.value.isFinite = true) :
    DenotesNumber literal.chars literal.numeral.value
  | infinity (sign : Literal.Sign) {word : List Char}
    (spelled : word ∈ [".inf".toList, ".Inf".toList, ".INF".toList]) :
    DenotesNumber (sign.chars ++ word)
      (.ofBits (if sign.isMinus then 0xFFF0000000000000 else 0x7FF0000000000000))
  | nan {word : List Char} (spelled : word ∈ [".nan".toList, ".NaN".toList, ".NAN".toList]) :
    DenotesNumber word (.ofBits 0x7FF8000000000000)

/-- A plus, or nothing. -/
def plusChars (plus : Bool) : List Char :=
  if plus then ['+'] else []

/-- The texts of natural numbers: decimals without leading zeros, and digits in a
base that a letter names. -/
inductive DenotesNatural : List Char → ℕ → Prop
  | decimal (plus : Bool) {digits : List Char} (all_digits : AllDigits digits)
    (present : digits ≠ []) (leading : digits.head? = some '0' → digits = ['0']) :
    DenotesNatural (plusChars plus ++ digits) (Numeral.ofDigits digits)
  | based (plus : Bool) {letter : Char} {base : ℕ}
    (known : (letter, base) ∈ [('x', 16), ('o', 8), ('b', 2)]) {digits : List Char}
    {values : List ℕ}
    (each : List.Forall₂ (fun digit value => digitValue? base digit = some value) digits values)
    (present : digits ≠ []) :
    DenotesNatural (plusChars plus ++ '0' :: letter :: digits) (Nat.ofDigits base values.reverse)

/-! ## Numbers -/

/-- A plus in front of a number is passed over. -/
theorem readNumber_plus {rest : List Char} (no_sign : ∀ c ∈ rest.head?, c ≠ '+' ∧ c ≠ '-')
    (no_nan : ∀ word ∈ [".nan", ".NaN", ".NAN"], rest ≠ word.toList) :
    readNumber? ('+' :: rest) = readNumber? rest := by
  have no_plus : rest.head? ≠ some '+' := fun first => (no_sign '+' first).1 rfl
  have no_minus : rest.head? ≠ some '-' := fun first => (no_sign '-' first).2 rfl
  have negative : ["-.inf", "-.Inf", "-.INF"].contains (String.ofList rest) = false := by
    refine contains_eq_false ?_
    simp only [List.forall_mem_cons, List.not_mem_nil, IsEmpty.forall_iff, implies_true, and_true]
    refine ⟨?_, ?_, ?_⟩ <;> rintro rfl <;> exact (no_sign '-' rfl).2 rfl
  have negative' : ["-.inf", "-.Inf", "-.INF"].contains (String.ofList ('+' :: rest)) = false :=
    contains_eq_false (by simp)
  have undefined' : [".nan", ".NaN", ".NAN"].contains (String.ofList ('+' :: rest)) = false :=
    contains_eq_false (by simp)
  have unmarked : readNumber? rest =
      if [".inf", ".Inf", ".INF"].contains (String.ofList rest) then
        some (.ofBits 0x7FF0000000000000)
      else ((Numeral.parse? rest).map Numeral.value).filter Float.isFinite := by
    unfold readNumber?
    split
    · exact absurd rfl no_plus
    · simp only [beq_eq_false_iff_ne.mpr no_plus, negative, contains_eq_false no_nan, Bool.false_and,
        Bool.false_eq_true, ↓reduceIte]
  rw [unmarked]
  unfold readNumber?
  simp only [beq_eq_false_iff_ne.mpr no_plus, beq_eq_false_iff_ne.mpr no_minus, negative', undefined',
    Bool.or_self, Bool.and_false, Bool.false_eq_true, ↓reduceIte]

/-- No character of a literal occurs in the words for numbers that are no numerals. -/
theorem literal_no_word (literal : Literal) {text : List Char} (part : text ⊆ literal.chars) :
    ∀ word ∈ numberWords, text ≠ word.toList := by
  have marks : ∀ word ∈ numberWords, 'n' ∈ word.toList ∨ 'N' ∈ word.toList := by decide
  rintro word member rfl
  rcases marks word member with small | large
  · have part := literal.chars_parts 'n' (part small)
    exact absurd part (by decide)
  · have part := literal.chars_parts 'N' (part large)
    exact absurd part (by decide)

theorem readNumber_literal (literal : Literal) (finite : literal.numeral.value.isFinite = true) :
    readNumber? literal.chars = some literal.numeral.value := by
  have parsed (other : Literal) (part : other.chars ⊆ literal.chars)
      (no_plus : other.chars.head? ≠ some '+') (same : other.numeral = literal.numeral) :
      readNumber? other.chars = some literal.numeral.value := by
    rw [readNumber_numeral no_plus (literal_no_word literal part), other.parse_chars, same,
      Option.map_some, Option.filter_some, if_pos finite]
  have no_sign := literal.unsigned_no_sign
  cases shape : literal.sign with
  | none =>
    refine parsed literal (List.Subset.refl _) ?_ rfl
    rw [Literal.chars, shape]
    exact fun first => (no_sign '+' first).1 rfl
  | minus =>
    refine parsed literal (List.Subset.refl _) ?_ rfl
    simp [Literal.chars, shape, Literal.Sign.chars]
  | plus =>
    let unsigned : Literal := { literal with sign := .none }
    have chars : literal.chars = '+' :: unsigned.chars := by
      rw [Literal.chars, shape]
      rfl
    have part : unsigned.chars ⊆ literal.chars := by
      rw [chars]
      exact List.subset_cons_self _ _
    have words := literal_no_word literal part
    have plus : readNumber? ('+' :: unsigned.chars) = readNumber? unsigned.chars :=
      readNumber_plus no_sign fun word member =>
        words word (List.mem_append_right _ (List.mem_append_right _ member))
    rw [chars, plus]
    refine parsed unsigned part (fun first => (no_sign '+' first).1 rfl) ?_
    simp [Literal.numeral, unsigned, shape, Literal.Sign.isMinus]

/-- A text is read as the number that it denotes. -/
theorem readNumber_denoted {text : List Char} {value : Float} (denotes : DenotesNumber text value) :
    readNumber? text = some value := by
  cases denotes with
  | literal literal finite => exact readNumber_literal literal finite
  | infinity sign spelled =>
    simp only [List.mem_cons, List.not_mem_nil, or_false] at spelled
    rcases spelled with rfl | rfl | rfl <;> cases sign <;> rfl
  | nan spelled =>
    simp only [List.mem_cons, List.not_mem_nil, or_false] at spelled
    rcases spelled with rfl | rfl | rfl <;> rfl

/-- A text that denotes a number is a word. -/
theorem number_is_word {text : List Char} {value : Float} (denotes : DenotesNumber text value) :
    IsWord text := by
  cases denotes with
  | infinity sign spelled =>
    simp only [List.mem_cons, List.not_mem_nil, or_false] at spelled
    rcases spelled with rfl | rfl | rfl <;> cases sign <;> decide +kernel
  | nan spelled =>
    simp only [List.mem_cons, List.not_mem_nil, or_false] at spelled
    rcases spelled with rfl | rfl | rfl <;> decide +kernel
  | literal literal finite =>
    have parts : ∀ c ∈ literal.chars, Yaml.isWordPart c = true := by
      intro c member
      rcases literal.chars_parts c member with digit | mark
      · simp [Yaml.isWordPart, Char.isAlphanum, digit]
      · simp only [List.mem_cons, List.not_mem_nil, or_false] at mark
        rcases mark with rfl | rfl | rfl | rfl | rfl <;> rfl
    refine ⟨parts, ?_, ?_⟩
    · exact fun empty => literal.unsigned_present (List.append_eq_nil_iff.mp empty).2
    · intro dash
      have parsed := literal.parse_chars
      rw [dash] at parsed
      cases parsed

/-! ## Natural numbers -/

theorem readDigits_based {base : ℕ} {digits : List Char} {values : List ℕ}
    (each : List.Forall₂ (fun digit value => digitValue? base digit = some value) digits values)
    (present : digits ≠ []) :
    readDigits? base digits = some (Nat.ofDigits base values.reverse) := by
  have folds (n : ℕ) : digits.foldlM
      (fun value c => (digitValue? base c).map (base * value + ·)) n =
        some (values.foldl (fun value digit => base * value + digit) n) := by
    clear present
    induction each generalizing n with
    | nil => rfl
    | cons first others ih =>
      rw [List.foldlM_cons, first]
      exact ih _
  have horner : Nat.ofDigits base values.reverse =
      values.foldl (fun value digit => base * value + digit) 0 := by
    rw [Nat.ofDigits_eq_foldr, List.foldr_reverse]
    congr 1
    funext value digit
    exact Nat.add_comm _ _
  rw [horner]
  cases digits with
  | nil => exact absurd rfl present
  | cons c digits => exact folds 0

/-- A plus in front of a natural number is passed over. -/
theorem readNatural_plus (plus : Bool) {rest : List Char} (no_plus : rest.head? ≠ some '+') :
    readNatural? (plusChars plus ++ rest) = readNatural? rest := by
  cases plus with
  | false => rfl
  | true =>
    conv_rhs => unfold readNatural?
    split
    · exact absurd rfl no_plus
    · rfl

/-- A text is read as the natural number that it denotes. -/
theorem readNatural_denoted {text : List Char} {n : ℕ} (denotes : DenotesNatural text n) :
    readNatural? text = some n := by
  cases denotes with
  | decimal plus all_digits present leading =>
    rw [readNatural_plus plus, readNatural_decimal all_digits present leading]
    intro first
    exact absurd (all_digits '+' (List.mem_of_mem_head? first)) (by decide)
  | based plus known each present =>
    rw [readNatural_plus plus (by simp)]
    simp only [List.mem_cons, List.not_mem_nil, or_false, Prod.mk.injEq] at known
    rcases known with ⟨rfl, rfl⟩ | ⟨rfl, rfl⟩ | ⟨rfl, rfl⟩ <;> exact readDigits_based each present

theorem digit_part {base : ℕ} {c : Char} {value : ℕ} (digit : digitValue? base c = some value) :
    Yaml.isWordPart c = true := by
  have alphanumeric : c.isAlphanum = true := by
    have digit := (Option.filter_eq_some_iff.mp digit).1
    unfold hexValue? at digit
    simp only [Char.isAlphanum, Char.isAlpha, Char.isUpper, Char.isLower, Bool.or_eq_true,
      Bool.and_eq_true, decide_eq_true_eq, ge_iff_le, UInt32.le_iff_toNat_le]
    split_ifs at digit with decimal small large
    · exact .inr decimal
    · simp only [Char.le_def, UInt32.le_iff_toNat_le] at small
      exact .inl (.inr ⟨small.1, small.2.trans (by decide)⟩)
    · simp only [Char.le_def, UInt32.le_iff_toNat_le] at large
      exact .inl (.inl ⟨large.1, large.2.trans (by decide)⟩)
  simp [Yaml.isWordPart, alphanumeric]

/-- A text that denotes a natural number is a word. -/
theorem natural_text_is_word {text : List Char} {n : ℕ} (denotes : DenotesNatural text n) :
    IsWord text := by
  have signs (plus : Bool) : ∀ c ∈ plusChars plus, Yaml.isWordPart c = true := by
    cases plus <;> simp [plusChars, Yaml.isWordPart]
  cases denotes with
  | @decimal plus digits all_digits present leading =>
    refine ⟨?_, by simp [present], ?_⟩
    · refine List.forall_mem_append.mpr ⟨signs plus, fun c member => ?_⟩
      simp [Yaml.isWordPart, Char.isAlphanum, all_digits c member]
    · intro dash
      have member : '-' ∈ plusChars plus ++ digits := by simp [dash]
      rcases List.mem_append.mp member with sign | digit
      · cases plus <;> simp [plusChars] at sign
      · exact absurd (all_digits '-' digit) (by decide)
  | @based plus letter base known digits values each present =>
    have letter_part : Yaml.isWordPart letter = true := by
      simp only [List.mem_cons, List.not_mem_nil, or_false, Prod.mk.injEq] at known
      rcases known with ⟨rfl, -⟩ | ⟨rfl, -⟩ | ⟨rfl, -⟩ <;> rfl
    have digit_parts : ∀ c ∈ digits, Yaml.isWordPart c = true := by
      clear present
      induction each with
      | nil => simp
      | cons first others ih => exact List.forall_mem_cons.mpr ⟨digit_part first, ih⟩
    refine ⟨?_, by simp, ?_⟩
    · exact List.forall_mem_append.mpr ⟨signs plus,
        List.forall_mem_cons.mpr ⟨rfl, List.forall_mem_cons.mpr ⟨letter_part, digit_parts⟩⟩⟩
    · cases plus <;> simp [plusChars]

/-! ## Texts -/

/-- The text of a number. -/
structure NumberText where
  text : String
  value : Float
  denotes : DenotesNumber text.toList value

/-- The text of a natural number of 32 bits. -/
structure NaturalText where
  text : String
  value : UInt32
  denotes : DenotesNatural text.toList value.toNat

/-- A literal as the text of its value. -/
def NumberText.ofLiteral (literal : Literal) (finite : literal.numeral.value.isFinite = true) :
    NumberText where
  text := String.ofList literal.chars
  value := literal.numeral.value
  denotes := String.toList_ofList ▸ .literal literal finite

def NumberText.phrase (number : NumberText) : Phrase :=
  ⟨number.text, Yaml.word_phrase (number_is_word number.denotes)⟩

def NaturalText.phrase (natural : NaturalText) : Phrase :=
  ⟨natural.text, Yaml.word_phrase (natural_text_is_word natural.denotes)⟩

section
variable (d : Document)

/-- A number is read with binary64 and rounded to binary32. -/
theorem number_text (number : NumberText) :
    number? d number.phrase.node = some (narrow number.value) := by
  have text : d.valueText? "tag:yaml.org,2002:float" number.phrase.node = some number.text := rfl
  rw [number?, text, Option.bind_some, readNumber_denoted number.denotes, Option.map_some]

theorem word_text (natural : NaturalText) :
    word? d natural.phrase.node = some natural.value := by
  have text : d.valueText? "tag:yaml.org,2002:int" natural.phrase.node = some natural.text := rfl
  rw [word?, text, Option.bind_some, readNatural_denoted natural.denotes, Option.filter_some,
    if_pos (by simpa using natural.value.toNat_lt), Option.map_some, UInt32.ofNat_toNat]

end

end Sentry.Enemy
