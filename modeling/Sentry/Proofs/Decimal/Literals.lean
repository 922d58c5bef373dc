import Sentry.Proofs.Decimal.Spelling

/-! Decimal literals: the grammar of numerals. What the grammar spells is parsed, as
the numeral that its parts name. -/
namespace Sentry
open Numeral (AllDigits NoDigitFirst)

namespace Literal

/-- What may stand in front of digits. -/
inductive Sign where
  | none
  | plus
  | minus

namespace Sign

def chars : Sign → List Char
  | .none => []
  | .plus => ['+']
  | .minus => ['-']

def isMinus : Sign → Bool
  | .minus => true
  | _ => false

end Sign

/-- An exponent behind its mark. -/
structure Power where
  mark : Char
  sign : Sign
  digits : List Char
  is_mark : mark = 'e' ∨ mark = 'E'
  all_digits : AllDigits digits
  present : digits ≠ []

namespace Power

def chars (power : Power) : List Char :=
  power.mark :: (power.sign.chars ++ power.digits)

def value (power : Power) : ℤ :=
  if power.sign.isMinus then -(Numeral.ofDigits power.digits : ℤ) else Numeral.ofDigits power.digits

end Power

end Literal

/-- A number as it is spelled: digits with at most one point among or beside them. -/
structure Literal where
  sign : Literal.Sign
  whole : List Char
  /-- What stands behind the point, if there is a point. -/
  fraction : Option (List Char)
  power : Option Literal.Power
  all_digits : AllDigits (whole ++ fraction.getD [])
  present : whole ++ fraction.getD [] ≠ []

namespace Literal

def fractionChars (literal : Literal) : List Char :=
  match literal.fraction with
  | none => []
  | some digits => '.' :: digits

def powerChars (literal : Literal) : List Char :=
  match literal.power with
  | none => []
  | some power => power.chars

/-- The text behind the sign. -/
def unsigned (literal : Literal) : List Char :=
  literal.whole ++ (literal.fractionChars ++ literal.powerChars)

def chars (literal : Literal) : List Char :=
  literal.sign.chars ++ literal.unsigned

/-- The number that the parts name. Digits behind the point count as tenths,
hundredths and so on. -/
def numeral (literal : Literal) : Numeral where
  negative := literal.sign.isMinus
  digits := Numeral.ofDigits (literal.whole ++ literal.fraction.getD [])
  exponent := (literal.power.map Power.value).getD 0 - (literal.fraction.getD []).length

/-! ## Parsing -/

theorem digit_no_sign {c : Char} (digit : c.isDigit = true) : c ≠ '+' ∧ c ≠ '-' := by
  constructor
  all_goals
    rintro rfl
    cases digit

theorem splitSign_sign (sign : Sign) {text : List Char}
    (no_sign : ∀ c ∈ text.head?, c ≠ '+' ∧ c ≠ '-') :
    Numeral.splitSign (sign.chars ++ text) = (sign.isMinus, text) := by
  cases sign with
  | plus => rfl
  | minus => rfl
  | none =>
    change Numeral.splitSign text = (false, text)
    cases text with
    | nil => rfl
    | cons c rest =>
      obtain ⟨no_plus, no_minus⟩ := no_sign c rfl
      unfold Numeral.splitSign
      split
      · next same => exact absurd (List.cons.inj same).1 no_minus
      · next same => exact absurd (List.cons.inj same).1 no_plus
      · rfl

theorem exponent_power (power : Power) : Numeral.exponent? power.chars = some power.value := by
  have no_sign : ∀ c ∈ power.digits.head?, c ≠ '+' ∧ c ≠ '-' := fun c first =>
    digit_no_sign (power.all_digits c (List.mem_of_mem_head? first))
  have accepted : (power.digits.isEmpty || !power.digits.all Char.isDigit) = false := by
    rw [Bool.or_eq_false_iff, Bool.not_eq_false', List.all_eq_true]
    exact ⟨by simp [power.present], power.all_digits⟩
  simp only [Power.chars, Numeral.exponent?, if_pos power.is_mark, splitSign_sign power.sign no_sign,
    accepted, Bool.false_eq_true, ↓reduceIte, Power.value]
  split <;> rfl

variable (literal : Literal)

theorem exponent_powerChars :
    Numeral.exponent? literal.powerChars = some ((literal.power.map Power.value).getD 0) := by
  unfold powerChars
  cases literal.power with
  | none => rfl
  | some power => exact exponent_power power

theorem powerChars_no_digit : NoDigitFirst literal.powerChars := by
  unfold powerChars
  intro c first
  cases shape : literal.power with
  | none => simp [shape] at first
  | some power =>
    simp only [shape, Power.chars, List.head?_cons, Option.mem_def, Option.some.injEq] at first
    subst first
    rcases power.is_mark with mark | mark <;> rw [mark] <;> rfl

/-- A literal does not begin with a second sign. -/
theorem unsigned_no_sign : ∀ c ∈ literal.unsigned.head?, c ≠ '+' ∧ c ≠ '-' := by
  intro c first
  obtain ⟨sign, whole, fraction, power, all_digits, present⟩ := literal
  cases whole with
  | cons d whole =>
    obtain rfl : d = c := Option.some.inj first
    exact digit_no_sign (all_digits d List.mem_cons_self)
  | nil =>
    cases fraction with
    | none => exact absurd rfl present
    | some digits =>
      obtain rfl : '.' = c := Option.some.inj first
      decide

theorem splitFraction_chars :
    Numeral.splitFraction (literal.fractionChars ++ literal.powerChars) =
      (literal.fraction.getD [], literal.powerChars) := by
  have digits := (Numeral.allDigits_append.mp literal.all_digits).2
  unfold fractionChars
  cases shape : literal.fraction with
  | some fraction =>
    rw [shape] at digits
    obtain ⟨taken, left⟩ := Numeral.take_digits digits literal.powerChars_no_digit
    exact congrArg₂ Prod.mk taken left
  | none =>
    change Numeral.splitFraction literal.powerChars = ([], literal.powerChars)
    unfold powerChars
    cases literal.power with
    | none => rfl
    | some power => rcases power.is_mark with mark | mark <;> simp [Power.chars, mark, Numeral.splitFraction]

theorem fraction_no_digit : NoDigitFirst (literal.fractionChars ++ literal.powerChars) := by
  have no_digit := literal.powerChars_no_digit
  unfold fractionChars
  cases literal.fraction with
  | none => exact no_digit
  | some digits =>
    intro c first
    obtain rfl : '.' = c := Option.some.inj first
    rfl

/-- What the grammar spells is parsed. -/
theorem parse_chars : Numeral.parse? literal.chars = some literal.numeral := by
  have digits := (Numeral.allDigits_append.mp literal.all_digits).1
  obtain ⟨taken, left⟩ := Numeral.take_digits digits literal.fraction_no_digit
  unfold Numeral.parse?
  rw [chars, splitSign_sign literal.sign literal.unsigned_no_sign]
  simp only [unsigned, taken, left, splitFraction_chars, exponent_powerChars, Option.map_some]
  rw [if_neg (by simpa using literal.present)]
  rfl

theorem sign_parts (sign : Sign) : ∀ c ∈ sign.chars, c ∈ ['+', '-'] := by
  cases sign <;> simp [Sign.chars]

/-- The characters of a literal. -/
theorem chars_parts : ∀ c ∈ literal.chars, c.isDigit = true ∨ c ∈ ['+', '-', '.', 'e', 'E'] := by
  obtain ⟨whole, fraction⟩ := Numeral.allDigits_append.mp literal.all_digits
  have signs (sign : Sign) : ∀ c ∈ sign.chars, c ∈ ['+', '-', '.', 'e', 'E'] :=
    fun c member => List.mem_append_left ['.', 'e', 'E'] (sign_parts sign c member)
  simp only [chars, unsigned, List.forall_mem_append]
  refine ⟨fun c member => .inr (signs _ c member), fun c member => .inl (whole c member), ?_, ?_⟩
  · unfold fractionChars
    cases shape : literal.fraction with
    | none => simp
    | some digits =>
      rw [shape] at fraction
      exact List.forall_mem_cons.mpr ⟨.inr (by simp), fun c member => .inl (fraction c member)⟩
  · unfold powerChars
    cases literal.power with
    | none => simp
    | some power =>
      simp only [Power.chars, List.forall_mem_cons, List.forall_mem_append]
      refine ⟨.inr ?_, fun c member => .inr (signs _ c member),
        fun c member => .inl (power.all_digits c member)⟩
      rcases power.is_mark with mark | mark <;> simp [mark]

theorem unsigned_present : literal.unsigned ≠ [] := by
  intro empty
  obtain ⟨whole, behind⟩ := List.append_eq_nil_iff.mp empty
  have no_fraction := (List.append_eq_nil_iff.mp behind).1
  apply literal.present
  rw [whole]
  unfold fractionChars at no_fraction
  cases shape : literal.fraction with
  | none => rfl
  | some digits => simp [shape] at no_fraction

end Literal

end Sentry
