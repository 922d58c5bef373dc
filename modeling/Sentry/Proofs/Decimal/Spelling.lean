import Sentry.Decimal.Layout
import Sentry.Decimal.Numeral
import Sentry.Proofs.Decimal.Choice

/-! What is written for a decimal reads as that decimal. The three ways to place
the point, and the exponent, move digits and powers of ten against each other but
keep the value. -/
namespace Sentry

/-! ## Reading numerals -/

namespace Numeral

variable {whole fraction rest : List Char} {exponent : ℤ}

/-- All characters are digits. -/
def AllDigits (text : List Char) : Prop :=
  ∀ c ∈ text, c.isDigit = true

instance (text : List Char) : Decidable (AllDigits text) :=
  decidable_of_iff (text.all Char.isDigit = true) List.all_eq_true

/-- No digit comes first. -/
def NoDigitFirst (text : List Char) : Prop :=
  ∀ c ∈ text.head?, c.isDigit = false

theorem noDigitFirst_nil : NoDigitFirst [] := by simp [NoDigitFirst]

theorem allDigits_append {text more : List Char} :
    AllDigits (text ++ more) ↔ AllDigits text ∧ AllDigits more :=
  List.forall_mem_append

theorem allDigits_toDigits (n : ℕ) : AllDigits (Nat.toDigits 10 n) :=
  fun _ member => Nat.isDigit_of_mem_toDigits (by norm_num) (by norm_num) member

/-- Only zero has a leading zero. -/
theorem toDigits_leading {n : ℕ} (pos : 0 < n) : (Nat.toDigits 10 n).head? ≠ some '0' := by
  induction n using Nat.strongRecOn with
  | ind n ih =>
    by_cases single : n < 10
    · rw [Nat.toDigits_of_lt_base single]
      interval_cases n <;> decide
    · have shorter := ih (n / 10) (by omega) (by omega)
      rw [Nat.toDigits_of_base_le (by norm_num) (by omega), List.head?_append]
      cases first : (Nat.toDigits 10 (n / 10)).head? with
      | none => exact absurd (List.head?_eq_none_iff.mp first) Nat.toDigits_ne_nil
      | some c => simpa [first] using shorter

theorem allDigits_zeros (n : ℕ) : AllDigits (List.replicate n '0') := by
  intro c member
  rw [List.eq_of_mem_replicate member]
  rfl

theorem take_digits (digits : AllDigits whole) (ended : NoDigitFirst rest) :
    (whole ++ rest).takeWhile Char.isDigit = whole ∧
      (whole ++ rest).dropWhile Char.isDigit = rest := by
  rw [List.takeWhile_append_of_pos digits, List.dropWhile_append_of_pos digits]
  cases rest with
  | nil => simp
  | cons c rest =>
    have other : c.isDigit = false := ended c rfl
    simp [other]

/-- Digits have no sign. -/
theorem splitSign_digits (digits : AllDigits whole) (present : whole ≠ []) (rest : List Char) :
    splitSign (whole ++ rest) = (false, whole ++ rest) := by
  cases whole with
  | nil => exact absurd rfl present
  | cons c more =>
    have digit : c.isDigit = true := digits c List.mem_cons_self
    rw [List.cons_append]
    unfold splitSign
    split
    · next shape =>
      obtain ⟨rfl, -⟩ := List.cons.inj shape
      cases digit
    · next shape =>
      obtain ⟨rfl, -⟩ := List.cons.inj shape
      cases digit
    · rfl

theorem toString_negSucc (n : ℕ) :
    (toString (Int.negSucc n)).toList = '-' :: Nat.toDigits 10 (n + 1) := by
  change ("-" ++ (n + 1).repr).toList = _
  rw [String.toList_append, Nat.toList_repr]
  rfl

theorem exponent_toString (z : ℤ) : exponent? ('e' :: (toString z).toList) = some z := by
  have digits (n : ℕ) := allDigits_toDigits n
  have read (n : ℕ) : ofDigits (Nat.toDigits 10 n) = n := Nat.ofDigitChars_ten_toDigits
  have accepted (n : ℕ) :
      ((Nat.toDigits 10 n).isEmpty || !(Nat.toDigits 10 n).all Char.isDigit) = false := by
    rw [Bool.or_eq_false_iff, Bool.not_eq_false', List.all_eq_true]
    exact ⟨by simp [Nat.toDigits_ne_nil], digits n⟩
  unfold exponent?
  cases z with
  | ofNat n =>
    have text : (toString (Int.ofNat n)).toList = Nat.toDigits 10 n := Nat.toList_repr
    have unsigned := splitSign_digits (digits n) Nat.toDigits_ne_nil []
    rw [List.append_nil] at unsigned
    simp only [text, unsigned, accepted, read, true_or, ↓reduceIte, Bool.false_eq_true]
    rfl
  | negSucc n =>
    simp only [toString_negSucc, splitSign, accepted, read, true_or, ↓reduceIte, Bool.false_eq_true]
    rfl

/-- A numeral with a point in it. -/
theorem parse_pointed (digits : AllDigits (whole ++ fraction)) (present : whole ≠ [])
    (ended : NoDigitFirst rest) (power : exponent? rest = some exponent) :
    parse? (whole ++ '.' :: fraction ++ rest) =
      some ⟨false, ofDigits (whole ++ fraction), exponent - fraction.length⟩ := by
  obtain ⟨first, second⟩ := allDigits_append.mp digits
  have shape : whole ++ '.' :: fraction ++ rest = whole ++ ('.' :: (fraction ++ rest)) := by simp
  have pointed : NoDigitFirst ('.' :: (fraction ++ rest)) := fun c point => by cases point; rfl
  obtain ⟨taken, left⟩ := take_digits first pointed
  obtain ⟨taken', left'⟩ := take_digits second ended
  unfold parse?
  rw [shape, splitSign_digits first present]
  simp only [taken, left, splitFraction, taken', left', power, Option.map_some]
  rw [if_neg (by simp [present])]

/-- A numeral without a point. -/
theorem parse_whole (digits : AllDigits whole) (present : whole ≠ []) (ended : NoDigitFirst rest)
    (no_point : ∀ c ∈ rest.head?, c ≠ '.') (power : exponent? rest = some exponent) :
    parse? (whole ++ rest) = some ⟨false, ofDigits whole, exponent⟩ := by
  obtain ⟨taken, left⟩ := take_digits digits ended
  have no_fraction : splitFraction rest = ([], rest) := by
    unfold splitFraction
    split
    · exact absurd rfl (no_point '.' rfl)
    · rfl
  unfold parse?
  rw [splitSign_digits digits present]
  simp only [taken, left, no_fraction, power, Option.map_some, List.append_nil, List.length_nil]
  rw [if_neg (by simp [present])]
  simp

end Numeral

/-! ## Reading layouts -/

/-- The text spells a number that is not below zero. -/
def Spells (text : List Char) (value : ℝ) : Prop :=
  ∃ n : Numeral, Numeral.parse? text = some n ∧ n.negative = false ∧
    Decimal.real ⟨n.digits, n.exponent⟩ = value

theorem spells_of_parse {text : List Char} {digits : ℕ} {exponent : ℤ} {value : ℝ}
    (parsed : Numeral.parse? text = some ⟨false, digits, exponent⟩)
    (same : (digits : ℝ) * 10 ^ exponent = value) : Spells text value :=
  ⟨_, parsed, rfl, same⟩

namespace Layout
open Numeral

section
variable (n : ℕ) (exponent : ℤ)

/-- The point stands in front of all digits. -/
theorem spells_leading (zeros : ℕ)
    (place : (Nat.toDigits 10 n).length + exponent = -zeros) :
    Spells ('0' :: '.' :: List.replicate zeros '0' ++ Nat.toDigits 10 n) (n * 10 ^ exponent) := by
  have digits : AllDigits (['0'] ++ (List.replicate zeros '0' ++ Nat.toDigits 10 n)) := by
    rw [allDigits_append, allDigits_append]
    exact ⟨by simp [AllDigits], allDigits_zeros _, allDigits_toDigits n⟩
  have parsed := parse_pointed digits (by simp) noDigitFirst_nil rfl
  rw [List.append_nil] at parsed
  have value : ofDigits (['0'] ++ (List.replicate zeros '0' ++ Nat.toDigits 10 n)) = n := by
    rw [← List.append_assoc, ofDigits, Nat.ofDigitChars_append]
    change Nat.ofDigitChars 10 _ (Nat.ofDigitChars 10 (List.replicate (_ + 1) '0') 0) = n
    rw [Nat.ofDigitChars_replicate_zero, mul_zero, Nat.ofDigitChars_ten_toDigits]
  refine spells_of_parse parsed ?_
  rw [value]
  congr 2
  simp only [List.length_append, List.length_replicate]
  omega

theorem ofDigits_zeros (zeros : ℕ) :
    ofDigits (Nat.toDigits 10 n ++ List.replicate zeros '0') = n * 10 ^ zeros := by
  rw [ofDigits, Nat.ofDigitChars_append, Nat.ofDigitChars_ten_toDigits,
    Nat.ofDigitChars_replicate_zero, mul_comm]

/-- The point stands behind all digits, or is left out. -/
theorem spells_trailing (zeros : ℕ) (keepsPoint : Bool) (raised : exponent = zeros) :
    Spells (Nat.toDigits 10 n ++ List.replicate zeros '0' ++
      (if keepsPoint then ['.', '0'] else [])) (n * 10 ^ exponent) := by
  have digits : AllDigits (Nat.toDigits 10 n ++ List.replicate zeros '0') :=
    allDigits_append.mpr ⟨allDigits_toDigits n, allDigits_zeros _⟩
  have present : Nat.toDigits 10 n ++ List.replicate zeros '0' ≠ [] := by
    simp [Nat.toDigits_ne_nil]
  subst raised
  cases keepsPoint with
  | false =>
    have parsed := parse_whole digits present noDigitFirst_nil (by simp) rfl
    refine spells_of_parse parsed ?_
    rw [ofDigits_zeros]
    push_cast
    rw [zpow_zero, mul_one, zpow_natCast]
  | true =>
    have pointed : AllDigits (Nat.toDigits 10 n ++ List.replicate zeros '0' ++ ['0']) :=
      allDigits_append.mpr ⟨digits, by simp [AllDigits]⟩
    have parsed := parse_pointed pointed present noDigitFirst_nil rfl
    rw [List.append_nil] at parsed
    refine spells_of_parse parsed ?_
    rw [List.append_assoc, ← List.replicate_succ', ofDigits_zeros]
    push_cast
    rw [pow_succ, zpow_natCast]
    change (n : ℝ) * (10 ^ zeros * 10) * 10 ^ (-1 : ℤ) = n * 10 ^ zeros
    rw [zpow_neg_one]
    field_simp

/-- The point stands among the digits. -/
theorem spells_inside (place : ℕ) (some_before : 0 < place)
    (some_behind : place < (Nat.toDigits 10 n).length)
    (placed : (Nat.toDigits 10 n).length + exponent = place) :
    Spells ((Nat.toDigits 10 n).take place ++ '.' :: (Nat.toDigits 10 n).drop place)
      (n * 10 ^ exponent) := by
  have digits : AllDigits ((Nat.toDigits 10 n).take place ++ (Nat.toDigits 10 n).drop place) := by
    rw [List.take_append_drop]
    exact allDigits_toDigits n
  have present : (Nat.toDigits 10 n).take place ≠ [] := by
    rw [Ne, List.take_eq_nil_iff]
    simp [Nat.toDigits_ne_nil, some_before.ne']
  have parsed := parse_pointed digits present noDigitFirst_nil rfl
  rw [List.append_nil, List.take_append_drop] at parsed
  refine spells_of_parse parsed ?_
  rw [ofDigits, Nat.ofDigitChars_ten_toDigits, List.length_drop]
  congr 2
  omega

theorem spells_positional (layout : Layout) :
    Spells (layout.positional (Nat.toDigits 10 n) ((Nat.toDigits 10 n).length + exponent))
      (n * 10 ^ exponent) := by
  unfold positional
  by_cases small : ((Nat.toDigits 10 n).length : ℤ) + exponent ≤ 0
  · rw [if_pos small]
    exact spells_leading n exponent _ (by omega)
  rw [if_neg small]
  by_cases large : ((Nat.toDigits 10 n).length : ℤ) ≤ (Nat.toDigits 10 n).length + exponent
  · rw [if_pos large]
    have raised : (((Nat.toDigits 10 n).length + exponent).toNat - (Nat.toDigits 10 n).length : ℕ) =
        exponent := by
      omega
    exact spells_trailing n exponent _ layout.keepsPoint raised.symm
  · rw [if_neg large]
    exact spells_inside n exponent _ (by omega) (by omega) (by omega)

/-- The point stands behind the first digit, and an exponent makes up for it. -/
theorem spells_scientific :
    Spells (scientific (Nat.toDigits 10 n) ((Nat.toDigits 10 n).length + exponent))
      (n * 10 ^ exponent) := by
  have some_digits : 0 < (Nat.toDigits 10 n).length := Nat.length_toDigits_pos
  have all := allDigits_toDigits n
  have read : ofDigits (Nat.toDigits 10 n) = n := Nat.ofDigitChars_ten_toDigits
  have ended : NoDigitFirst
      ('e' :: (toString ((Nat.toDigits 10 n).length + exponent - 1)).toList) := by
    simp [NoDigitFirst]
  have power := exponent_toString ((Nat.toDigits 10 n).length + exponent - 1)
  unfold scientific
  generalize Nat.toDigits 10 n = digits at *
  cases digits with
  | nil => simp at some_digits
  | cons first others =>
    cases others with
    | nil =>
      have parsed := parse_whole all (by simp) ended (by simp) power
      refine spells_of_parse parsed ?_
      rw [read]
      congr 2
      simp
    | cons second others =>
      have pointed : AllDigits ([first] ++ (second :: others)) := all
      have parsed := parse_pointed pointed (by simp) ended power
      refine ⟨_, by simpa using parsed, rfl, ?_⟩
      change (ofDigits (first :: second :: others) : ℝ) * _ = _
      rw [read]
      congr 2
      push_cast [List.length_cons]
      ring

end

/-! ## Characters -/

/-- The characters of numbers. -/
def IsPart (c : Char) : Prop :=
  c.isDigit = true ∨ c = '.' ∨ c = 'e' ∨ c = '-'

/-- A text that starts with a digit and has characters of numbers only. -/
def Digital (text : List Char) : Prop :=
  (∃ c ∈ text.head?, c.isDigit = true) ∧ ∀ c ∈ text, IsPart c

theorem digital_append {text more : List Char} (digital : Digital text)
    (parts : ∀ c ∈ more, IsPart c) : Digital (text ++ more) := by
  obtain ⟨⟨c, first, digit⟩, all⟩ := digital
  refine ⟨⟨c, ?_, digit⟩, List.forall_mem_append.mpr ⟨all, parts⟩⟩
  rw [List.head?_append, Option.mem_def.mp first]
  rfl

theorem digital_of_digits {text : List Char} (digits : AllDigits text) (present : text ≠ []) :
    Digital text := by
  refine ⟨?_, fun c member => .inl (digits c member)⟩
  cases text with
  | nil => exact absurd rfl present
  | cons c more => exact ⟨c, rfl, digits c List.mem_cons_self⟩

theorem toString_parts (z : ℤ) : ∀ c ∈ (toString z).toList, IsPart c := by
  have digits (n : ℕ) : ∀ c ∈ Nat.toDigits 10 n, IsPart c :=
    fun c member => .inl (allDigits_toDigits n c member)
  cases z with
  | ofNat n =>
    have text : (toString (Int.ofNat n)).toList = Nat.toDigits 10 n := Nat.toList_repr
    rw [text]
    exact digits n
  | negSucc n =>
    rw [toString_negSucc, List.forall_mem_cons]
    exact ⟨.inr (.inr (.inr rfl)), digits (n + 1)⟩

theorem digital_decimal (layout : Layout) (d : Decimal) : Digital (layout.decimal d) := by
  have digits := allDigits_toDigits d.digits
  have present : Nat.toDigits 10 d.digits ≠ [] := Nat.toDigits_ne_nil
  have point : IsPart '.' := .inr (.inl rfl)
  have mark : IsPart 'e' := .inr (.inr (.inl rfl))
  have parts {text : List Char} (digits : AllDigits text) : ∀ c ∈ text, IsPart c :=
    fun c member => .inl (digits c member)
  have taken (count : ℕ) (some_taken : 0 < count) :
      Digital ((Nat.toDigits 10 d.digits).take count) := by
    refine digital_of_digits (fun c member => digits c (List.mem_of_mem_take member)) ?_
    rw [Ne, List.take_eq_nil_iff]
    simp [present, some_taken.ne']
  have left (count : ℕ) : AllDigits ((Nat.toDigits 10 d.digits).drop count) :=
    fun c member => digits c (List.mem_of_mem_drop member)
  unfold decimal positional scientific
  dsimp only
  split_ifs with _ small large
  · have zero : Digital ['0'] := digital_of_digits (by simp [AllDigits]) (by simp)
    have behind := List.forall_mem_cons.mpr ⟨point, parts (allDigits_zeros
      (-((Nat.toDigits 10 d.digits).length + d.exponent)).toNat)⟩
    exact digital_append (digital_append zero behind) (parts digits)
  · refine digital_append (digital_append (digital_of_digits digits present)
      (parts (allDigits_zeros _))) ?_
    simpa using ⟨point, .inl rfl⟩
  · refine digital_append (digital_append (digital_of_digits digits present)
      (parts (allDigits_zeros _))) (by simp)
  · refine digital_append (taken _ (by omega)) ?_
    rw [List.forall_mem_cons]
    exact ⟨point, parts (left _)⟩
  · refine digital_append (digital_append (taken 1 one_pos) ?_) ?_
    · split
      · simp
      · next rest shape =>
        rw [List.forall_mem_cons]
        exact ⟨point, parts (left 1)⟩
    · rw [List.forall_mem_cons]
      exact ⟨mark, toString_parts _⟩

/-- Whatever the layout, the text of a decimal spells it. -/
theorem spells_decimal (layout : Layout) (d : Decimal) : Spells (layout.decimal d) d.real := by
  unfold decimal Decimal.real
  dsimp only
  split_ifs
  · exact spells_positional d.digits d.exponent layout
  · exact spells_scientific d.digits d.exponent

end Layout

end Sentry
