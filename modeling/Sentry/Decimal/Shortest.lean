import Sentry.Number.Width

/-! The fewest decimal digits that read back as a given binary number. A binary
number stands for all reals that round to it, and a decimal reads back exactly if
it lies among them. Grids of decimals are tried from coarse to fine; on each grid
only the two neighbours of the number can be the nearest that lies inside. -/
namespace Sentry

open Float.Model

/-- The number `digits × 10 ^ exponent`. -/
structure Decimal where
  digits : Nat
  exponent : Int
  deriving DecidableEq, Inhabited

/-- Which neighbour a decimal takes when both are equally near. -/
inductive Tie where
  /-- The larger one. -/
  | up
  /-- The one whose last digit is even. -/
  | even
  deriving DecidableEq

/-- A positive binary number and the reals that round to it, all in units of `2 ^ exponent`. -/
structure Span where
  low : Nat
  value : Nat
  high : Nat
  exponent : Int
  /-- The two ends round to the number as well. -/
  closed : Bool

namespace Span

/-- The span of `significand × 2 ^ exponent`. The gap below a power of two is half as wide as the
gap above it, unless the numbers below are subnormal. A tie between two binary numbers goes to the
even significand, so exactly the even ones own their ends. -/
def ofBinary (format : Format) (significand : Nat) (exponent : Int) : Span where
  low :=
    if significand = Nat.pow 2 format.mantissaBitsWithoutImplicit ∧ format.minExponent < exponent
    then 4 * significand - 1
    else 4 * significand - 2
  value := 4 * significand
  high := 4 * significand + 2
  exponent := exponent - 2
  closed := significand % 2 == 0

/-- What a unit of the span is multiplied by to be compared with points of the grid of `10 ^ k`. -/
def unitScale (s : Span) (k : Int) : Nat :=
  Nat.pow 2 s.exponent.toNat * Nat.pow 10 (-k).toNat

/-- What a point of the grid of `10 ^ k` is multiplied by to be compared with the span. -/
def gridScale (s : Span) (k : Int) : Nat :=
  Nat.pow 2 (-s.exponent).toNat * Nat.pow 10 k.toNat

/-- The decimal `c × 10 ^ k` rounds to the number. -/
def holds (s : Span) (k : Int) (c : Nat) : Bool :=
  if s.closed then
    s.low * s.unitScale k ≤ c * s.gridScale k && c * s.gridScale k ≤ s.high * s.unitScale k
  else
    s.low * s.unitScale k < c * s.gridScale k && c * s.gridScale k < s.high * s.unitScale k

/-- Of `c` and `c + 1`, between which the number lies, the nearer one. -/
def nearer (s : Span) (tie : Tie) (k : Int) (c : Nat) : Nat :=
  match compare (2 * (s.value * s.unitScale k)) ((2 * c + 1) * s.gridScale k) with
  | .lt => c
  | .gt => c + 1
  | .eq => match tie with
    | .up => c + 1
    | .even => c + c % 2

/-- The nearest point of the grid of `10 ^ k` that rounds to the number, if there is one. -/
def onGrid? (s : Span) (tie : Tie) (k : Int) : Option Nat :=
  let c := s.value * s.unitScale k / s.gridScale k
  match s.holds k c, s.holds k (c + 1) with
  | true, true => some (s.nearer tie k c)
  | true, false => some c
  | false, true => some (c + 1)
  | false, false => none

def exact (s : Span) : Decimal :=
  if 0 ≤ s.exponent then ⟨s.value * Nat.pow 2 s.exponent.toNat, 0⟩
  else ⟨s.value * Nat.pow 5 (-s.exponent).toNat, s.exponent⟩

/-- The first hit among the grids of `10 ^ k`, `10 ^ (k - 1)` and so on. -/
def search (s : Span) (tie : Tie) : Nat → Int → Decimal
  | 0, _ => s.exact
  | tries + 1, k =>
    match s.onGrid? tie k with
    | some c => ⟨c, k⟩
    | none => search s tie tries (k - 1)

/-- A power of ten above the whole span; its exponent is at most two above the least such one. -/
def ceiling (s : Span) : Int :=
  (s.high.log2 + 1 + s.exponent) * 30103 / 100000 + 1

/-- The shortest decimal that rounds to the number. A gap of binary64 holds a decimal of seventeen
digits, so the search ends before its tries do. -/
def shortest (s : Span) (tie : Tie) : Decimal :=
  s.search tie 24 s.ceiling

end Span

end Sentry
