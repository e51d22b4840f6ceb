import CodeCausality.Decimal.Binary64

/-!
# The shortest decimal that reads back

A float is the nearest binary64 number to every decimal in a small interval around it. This file
fixes which of those decimals is written: the one with the fewest digits, and among those of equally
few digits the nearest.

The search tries the grids of one, two, up to seventeen significant digits; on each it looks at the
two neighbours of the value only. If a point of a grid lies in the interval, then so does one of the
two neighbours, since they lie between that point and the value.
-/

namespace CodeCausality

namespace Decimal

open Binary64 (digitCount)

/-! ## 1. Digits and places -/

/-- The decimal `digits * 10 ^ exponent`. -/
structure Digits where
  digits : Nat
  exponent : Int
  deriving Repr, DecidableEq

/-- What happens to a value that lies half-way between two neighbours. -/
inductive Tie where
  | up
  | toEven
  deriving Repr, DecidableEq

/-- Rounds `num / den` to a natural number. -/
def roundDiv (tie : Tie) (num den : Nat) : Nat :=
  let q := num / den
  let r := num % den
  if den < 2 * r then q + 1
  else if 2 * r < den then q
  else match tie with
    | .up => if r = 0 then q else q + 1
    | .toEven => if q % 2 = 0 then q else q + 1

/-- The exponent of the leading decimal digit of `m * 2 ^ e`, for a positive `m`. -/
def leadingPlace (m : Nat) (e : Int) : Int :=
  if 0 ≤ e then digitCount (m * Nat.pow 2 e.toNat) - 1
  else digitCount (m * Nat.pow 10 400 / Nat.pow 2 (-e).toNat) - 401

/-- Numerator and denominator of `2 ^ e / 10 ^ k`. -/
def gridRatio (e k : Int) : Nat × Nat :=
  (Nat.pow 2 e.toNat * Nat.pow 10 (-k).toNat, Nat.pow 2 (-e).toNat * Nat.pow 10 k.toNat)

/-- The decimal without the zeros at its end. -/
def Digits.strip (d : Digits) : Digits := go d.digits d.digits d.exponent
where
  go : Nat → Nat → Int → Digits
    | 0, n, k => ⟨n, k⟩
    | fuel + 1, n, k => if n ≠ 0 ∧ n % 10 = 0 then go (fuel / 10) (n / 10) (k + 1) else ⟨n, k⟩

/-! ## 2. The search -/

/-- The decimals that read back as one float, in quarters of its last binary place: the float is
`value`, the interval reaches from `low` to `high` and has its ends in it if `closed`. -/
structure Interval where
  value : Nat
  low : Nat
  high : Nat
  closed : Bool

/-- The interval of `m * 2 ^ e`. Below a power of two the neighbour is only half as far away. -/
def Interval.around (m : Nat) (e : Int) : Interval where
  value := 4 * m
  low := if m = Nat.pow 2 52 ∧ -1074 < e then 4 * m - 1 else 4 * m - 2
  high := 4 * m + 2
  closed := m % 2 = 0

/-- Whether `num / den` lies in the interval. -/
def Interval.holds (i : Interval) (num den : Nat) : Bool :=
  if i.closed then decide (i.low * den ≤ num ∧ num ≤ i.high * den)
  else decide (i.low * den < num ∧ num < i.high * den)

/-- The multiple of `10 ^ k` next to the value that lies in the interval, if there is one. -/
def Interval.onGrid (i : Interval) (tie : Tie) (e k : Int) : Option Nat :=
  -- one quarter of the last place is `p / q` grid units
  let (p, q) := gridRatio (e - 2) k
  let below := i.value * p / q
  match i.holds (below * q) p, i.holds ((below + 1) * q) p with
  | true, true => some (roundDiv tie (i.value * p) q)
  | true, false => some below
  | false, true => some (below + 1)
  | false, false => none

/-- Tries grids of growing fineness. -/
def Interval.search (i : Interval) (tie : Tie) (e : Int) : Nat → Int → Option Digits
  | 0, _ => none
  | tries + 1, k =>
    match i.onGrid tie e k with
    | some n => some ⟨n, k⟩
    | none => i.search tie e tries (k - 1)

/-- The shortest decimal that reads back as `m * 2 ^ e`, for a positive `m`. Seventeen digits
always suffice. -/
def shortest (tie : Tie) (m : Nat) (e : Int) : Digits :=
  let top := leadingPlace m e
  match (Interval.around m e).search tie e 17 top with
  | some d => d.strip
  | none => ⟨roundDiv tie (m * (gridRatio e (top - 16)).1) (gridRatio e (top - 16)).2, top - 16⟩

end Decimal

end CodeCausality
