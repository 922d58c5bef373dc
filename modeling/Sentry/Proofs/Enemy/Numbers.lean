import Sentry.Enemy.ConfigFile
import Sentry.Proofs.Decimal.Return
import Sentry.Proofs.Decimal.Spelling

/-! Numbers in files. Every number of a record comes back as it was written, also an
infinity or a NaN, except for one and its negative, which come back as the next
number farther from zero. -/
namespace Sentry.Enemy
open Float.Model (Format UnpackedFloat)
open Float.Model.UnpackedFloat hiding round normalize
open Rounding

/-- What becomes of a number that is written to a file and read again. -/
def drift (x : Float32) : Float32 :=
  if x.toBits = 0x15ae43fd then .ofBits 0x15ae43fe
  else if x.toBits = 0x95ae43fd then .ofBits 0x95ae43fe
  else x

/-! ## Reading numbers -/

theorem contains_eq_false {words : List String} {text : List Char}
    (other : ∀ word ∈ words, text ≠ word.toList) :
    words.contains (String.ofList text) = false := by
  rw [List.contains_eq_any_beq, List.any_eq_false]
  intro word member same
  rw [beq_iff_eq] at same
  exact other word member (by rw [← same, String.toList_ofList])

/-- The words for numbers that are no numerals. -/
def numberWords : List String :=
  [".inf", ".Inf", ".INF"] ++ (["-.inf", "-.Inf", "-.INF"] ++ [".nan", ".NaN", ".NAN"])

theorem readNumber_numeral {text : List Char} (no_plus : text.head? ≠ some '+')
    (other : ∀ word ∈ numberWords, text ≠ word.toList) :
    readNumber? text = ((Numeral.parse? text).map Numeral.value).filter Float.isFinite := by
  have infinite : [".inf", ".Inf", ".INF"].contains (String.ofList text) = false :=
    contains_eq_false fun word member => other word (List.mem_append_left _ member)
  have negative : ["-.inf", "-.Inf", "-.INF"].contains (String.ofList text) = false :=
    contains_eq_false fun word member => other word
      (List.mem_append_right _ (List.mem_append_left _ member))
  have undefined : [".nan", ".NaN", ".NAN"].contains (String.ofList text) = false :=
    contains_eq_false fun word member => other word
      (List.mem_append_right _ (List.mem_append_right _ member))
  have unmarked : (text.head? == some '+') = false := beq_eq_false_iff_ne.mpr no_plus
  unfold readNumber?
  split
  · exact absurd rfl no_plus
  · simp only [unmarked, infinite, negative, undefined, Bool.false_and, Bool.false_eq_true,
      ↓reduceIte]

section
variable {text : List Char} (digital : Layout.Digital text) (sign : UnpackedFloat.Sign)
include digital

theorem digital_cons : ∃ c rest, text = c :: rest ∧ c.isDigit = true := by
  obtain ⟨⟨c, first, digit⟩, -⟩ := digital
  cases text with
  | nil => cases first
  | cons c' rest => exact ⟨c', rest, rfl, (Option.some_inj.mp first) ▸ digit⟩

/-- A number that starts with a digit, behind its sign, is none of the words. -/
theorem readNumber_signed :
    readNumber? (Layout.number.signed sign text) =
      ((Numeral.parse? (Layout.number.signed sign text)).map Numeral.value).filter Float.isFinite := by
  obtain ⟨c, rest, rfl, digit⟩ := digital_cons digital
  have other (special : Char) (no_digit : special.isDigit = false) : c ≠ special := by
    rintro rfl
    rw [no_digit] at digit
    cases digit
  have no_point := other '.' rfl
  have no_minus := other '-' rfl
  apply readNumber_numeral
  · cases sign with
    | positive => simpa [Layout.number.signed] using other '+' rfl
    | negative => simp [Layout.number.signed]
  · cases sign <;> simp [numberWords, Layout.number.signed, no_point, no_minus]

theorem parse_signed {n : Numeral} (parsed : Numeral.parse? text = some n)
    (unsigned : n.negative = false) :
    Numeral.parse? (Layout.number.signed sign text) =
      some { n with negative := sign == .negative } := by
  cases sign with
  | positive =>
    obtain ⟨negative, digits, exponent⟩ := n
    obtain rfl : negative = false := unsigned
    exact parsed
  | negative =>
    obtain ⟨c, rest, rfl, digit⟩ := digital_cons digital
    have digits : Numeral.AllDigits [c] := by simpa [Numeral.AllDigits] using digit
    have no_sign := Numeral.splitSign_digits digits (List.cons_ne_nil _ _) rest
    rw [List.singleton_append] at no_sign
    unfold Numeral.parse? at parsed ⊢
    rw [no_sign] at parsed
    simp only [Layout.number.signed, Numeral.splitSign] at parsed ⊢
    split_ifs at parsed ⊢ with empty
    rw [Option.map_eq_some_iff] at parsed ⊢
    obtain ⟨exponent, power, rfl⟩ := parsed
    exact ⟨exponent, power, rfl⟩

end

/-! ## Numbers that come back -/

/-- The text of a finite number: its sign, and a text that starts with a digit. -/
theorem single_finite (layout : Layout) {x : Float32} {sign : UnpackedFloat.Sign} {m : ℕ} {e : ℤ}
    {pos : 0 < m} (shape : x.toModel.unpack = .finite sign m e pos) :
    (layout.single x).toList = Layout.number.signed sign
      (layout.decimal ((Span.ofBinary .binary32 m e).shortest layout.tie)) := by
  rw [Layout.single, String.toList_ofList, shape]
  rfl

theorem reread_regular {x : Float32} {sign : UnpackedFloat.Sign} {m : ℕ} {e : ℤ}
    {pos : 0 < m} (shape : x.toModel.unpack = .finite sign m e pos) (regular : ¬ Stray x) :
    (readNumber? (fileLayout.single x).toList).map narrow = some x := by
  let d := (Span.ofBinary .binary32 m e).shortest fileLayout.tie
  have digital := Layout.digital_decimal fileLayout d
  obtain ⟨n, parsed, unsigned, spelled⟩ := Layout.spells_decimal fileLayout d
  have signed := parse_signed digital sign parsed unsigned
  obtain ⟨finite, back⟩ := narrow_value shape regular fileLayout.tie
    (n := { n with negative := sign == .negative })
    (by cases sign <;> rfl) spelled
  rw [single_finite fileLayout shape, readNumber_signed digital sign, signed, Option.map_some,
    Option.filter_some, if_pos finite, Option.map_some, back]

/-- A stored number is known by what it unpacks to. -/
theorem eq_of_unpack {x y : Float32} (same : x.toModel.unpack = y.toModel.unpack) : x = y :=
  eq_of_bits ((unpack_inj_of_valid x.toModel.valid y.toModel.valid).mp same)

private theorem unpack_stray :
    (Float32.ofBits 0x15ae43fd).toModel.unpack = .finite .positive 11420669 (-107) (by decide) := by
  rfl

private theorem unpack_stray_negative :
    (Float32.ofBits 0x95ae43fd).toModel.unpack = .finite .negative 11420669 (-107) (by decide) := by
  rfl

/-- Two numbers stray, one of either sign. -/
theorem stray_iff (x : Float32) : Stray x ↔ x.toBits = 0x15ae43fd ∨ x.toBits = 0x95ae43fd := by
  constructor
  · rintro ⟨sign, pos, shape⟩
    cases sign with
    | positive =>
      left
      rw [eq_of_unpack (shape.trans unpack_stray.symm)]
      rfl
    | negative =>
      right
      rw [eq_of_unpack (shape.trans unpack_stray_negative.symm)]
      rfl
  · rintro (bits | bits)
    · have same : x = .ofBits 0x15ae43fd := eq_of_bits (congrArg UInt32.toBitVec bits)
      exact ⟨.positive, _, same ▸ unpack_stray⟩
    · have same : x = .ofBits 0x95ae43fd := eq_of_bits (congrArg UInt32.toBitVec bits)
      exact ⟨.negative, _, same ▸ unpack_stray_negative⟩

theorem stray_eq {x : Float32} (stray : Stray x) :
    x = .ofBits 0x15ae43fd ∨ x = .ofBits 0x95ae43fd :=
  ((stray_iff x).mp stray).imp (fun bits => eq_of_bits (congrArg UInt32.toBitVec bits))
    fun bits => eq_of_bits (congrArg UInt32.toBitVec bits)

theorem drift_regular {x : Float32} (regular : ¬ Stray x) : drift x = x := by
  rw [stray_iff, not_or] at regular
  rw [drift, if_neg regular.1, if_neg regular.2]

theorem drift_eq_iff (x : Float32) : drift x = x ↔ ¬ Stray x := by
  refine ⟨?_, drift_regular⟩
  intro same stray
  rcases stray_eq stray with rfl | rfl
  · exact absurd same (by decide +kernel)
  · exact absurd same (by decide +kernel)

/-- A drift is too small for the tests of a record to notice. -/
theorem drift_tests (x : Float32) :
    (drift x).isFinite = x.isFinite ∧ Config.isMagnitude (drift x) = Config.isMagnitude x ∧
      Config.isTolerance (drift x) = Config.isTolerance x := by
  by_cases stray : Stray x
  · rcases stray_eq stray with rfl | rfl
    · decide +kernel
    · decide +kernel
  · rw [drift_regular stray]
    exact ⟨rfl, rfl, rfl⟩

/-- Zeros, infinities and the NaN come back as they are. -/
private theorem reread_special {x : Float32}
    (special : ∀ sign m e pos, x.toModel.unpack ≠ .finite sign m e pos) :
    (readNumber? (fileLayout.single x).toList).map narrow = some x := by
  cases shape : x.toModel.unpack with
  | finite sign m e pos => exact absurd shape (special sign m e pos)
  | notANumber =>
    have same : x = .ofBits 0x7FC00000 := eq_of_unpack shape
    rw [same]
    decide +kernel
  | infinity sign =>
    cases sign with
    | positive =>
      have same : x = .ofBits 0x7F800000 := eq_of_unpack shape
      rw [same]
      decide +kernel
    | negative =>
      have same : x = .ofBits 0xFF800000 := eq_of_unpack shape
      rw [same]
      decide +kernel
  | zero sign =>
    cases sign with
    | positive =>
      have same : x = .ofBits 0 := eq_of_unpack shape
      rw [same]
      decide +kernel
    | negative =>
      have same : x = .ofBits 0x80000000 := eq_of_unpack shape
      rw [same]
      decide +kernel

/-- Every number comes back up to its drift. -/
theorem reread (x : Float32) :
    (readNumber? (fileLayout.single x).toList).map narrow = some (drift x) := by
  by_cases stray : Stray x
  · rcases stray_eq stray with rfl | rfl
    · decide +kernel
    · decide +kernel
  rw [drift_regular stray]
  cases shape : x.toModel.unpack with
  | finite sign m e pos => exact reread_regular shape stray
  | _ => exact reread_special (by simp [shape])

/-! ## Natural numbers -/

theorem readDigits_ten {digits : List Char} (all : Numeral.AllDigits digits) (present : digits ≠ []) :
    readDigits? 10 digits = some (Nat.ofDigitChars 10 digits 0) := by
  have folds (n : ℕ) : digits.foldlM
      (fun value c => (digitValue? 10 c).map (10 * value + ·)) n =
        some (Nat.ofDigitChars 10 digits n) := by
    clear present
    induction digits generalizing n with
    | nil => rfl
    | cons c digits ih =>
      rw [Numeral.AllDigits, List.forall_mem_cons] at all
      have value : digitValue? 10 c = some (c.toNat - '0'.toNat) := by
        have digit := all.1
        simp only [Char.isDigit, Bool.and_eq_true, decide_eq_true_eq, ge_iff_le,
          UInt32.le_iff_toNat_le] at digit
        have small : c.toNat - '0'.toNat < 10 := by
          have high : c.toNat ≤ 57 := digit.2
          change c.toNat - 48 < 10
          omega
        rw [digitValue?, hexValue?, if_pos all.1, Option.filter_some, if_pos (by simpa using small)]
      rw [List.foldlM_cons, value]
      exact ih all.2 _
  cases digits with
  | nil => exact absurd rfl present
  | cons c digits => exact folds 0

/-- A decimal without leading zeros is read as the number that its digits spell. -/
theorem readNatural_decimal {digits : List Char} (all : Numeral.AllDigits digits)
    (present : digits ≠ []) (leading : digits.head? = some '0' → digits = ['0']) :
    readNatural? digits = some (Numeral.ofDigits digits) := by
  have value := readDigits_ten all present
  unfold readNatural?
  split
  · exact absurd (all '+' List.mem_cons_self) (by decide)
  · dsimp only
    split
    case h_5 => exact value
    all_goals exact absurd (leading rfl) (by simp)

/-- Natural numbers come back as they are. -/
theorem reread_natural (n : ℕ) : readNatural? (toString n).toList = some n := by
  have text : (toString n).toList = Nat.toDigits 10 n := Nat.toList_repr
  have leading : (Nat.toDigits 10 n).head? = some '0' → Nat.toDigits 10 n = ['0'] := by
    rcases n.eq_zero_or_pos with rfl | pos
    · exact fun _ => rfl
    · exact fun zero => absurd zero (Numeral.toDigits_leading pos)
  rw [text, readNatural_decimal (Numeral.allDigits_toDigits n) Nat.toDigits_ne_nil leading]
  exact congrArg some Nat.ofDigitChars_ten_toDigits

end Sentry.Enemy
