import CodeCausality.Numeric.Scalar

/-!
# Summary statistics of samples

* `mean` and `populationStd` are zero on an empty sample;
* `Reference` is the location and spread that an effect is measured against, `effectSize` the
  standardised difference of another sample from it;
* `percentile` interpolates linearly between the two neighbouring ranks of a sorted sample;
* `mode` is the most frequent class code, the smallest one among equally frequent codes.
-/

namespace CodeCausality

namespace Stats

variable {α : Type} [Scalar α]

/-! ## 1. Location and spread -/

@[specialize] def mean (xs : List α) : α :=
  if xs.isEmpty then 0 else Scalar.sum xs / Scalar.ofNat xs.length

/-- The biased standard deviation of `xs` about `m`. -/
@[specialize] def populationStd (xs : List α) (m : α) : α :=
  if xs.isEmpty then 0
  else Scalar.sqrt (Scalar.sum (xs.map fun x => Scalar.square (x - m)) / Scalar.ofNat xs.length)

/-- The location and spread of the sample an effect is measured against. -/
structure Reference (α : Type) where
  mean : α
  std : α

@[specialize] def Reference.ofSample (xs : List α) : Reference α :=
  let m := Stats.mean xs
  ⟨m, populationStd xs m⟩

/-- The difference of the means in units of the reference's spread. Without a spread the pooled
spread of both samples is the unit, and the difference itself stands where that is zero too. -/
@[specialize] def Reference.effectSize (r : Reference α) (xs : List α) : α :=
  let m := Stats.mean xs
  let difference := m - r.mean
  if 0 < r.std then difference / r.std
  else
    let other := populationStd xs m
    let pooled := Scalar.sqrt ((Scalar.square r.std + Scalar.square other) / 2)
    if 0 < pooled then difference / pooled else difference

/-! ## 2. Ranks -/

/-- The percentile at `q` (clamped to the interval from 0 to 1) of a sorted sample. -/
@[specialize] def percentile (sorted : List α) (q : α) : α :=
  match sorted with
  | [] => 0
  | [x] => x
  | xs =>
    let rank := Scalar.clamp q 0 1 * Scalar.ofNat (xs.length - 1)
    let lo := Scalar.floor rank
    let hi := Scalar.ceil rank
    let low := xs.getD lo 0
    low + (xs.getD hi 0 - low) * (rank - Scalar.ofNat lo)

/-! ## 3. Frequencies -/

/-- The class that a code stands for: its whole part, if it is a finite number not below zero. -/
@[inline] def codeOf (x : α) : Option Nat :=
  if Scalar.isFinite x && decide (0 ≤ x) then some (Scalar.floor x) else none

/-- How many of the codes stand for each of the classes. -/
@[specialize] def frequencies (codes : List α) (classes : Nat) : List Nat :=
  (List.range classes).map fun k => codes.countP fun x => codeOf x == some k

/-- The first position of the largest element, given the best position so far and its element. -/
def argmaxFrom (best : Nat) (top : Nat) (i : Nat) : List Nat → Nat
  | [] => best
  | n :: rest => if top < n then argmaxFrom i n (i + 1) rest else argmaxFrom best top (i + 1) rest

/-- The most frequent class below `classes`; the smallest of equally frequent ones; zero if there
are no classes. Codes outside the classes do not count. -/
@[specialize] def mode (codes : List α) (classes : Nat) : Nat :=
  match frequencies codes classes with
  | [] => 0
  | n :: rest => argmaxFrom 0 n 1 rest

end Stats

end CodeCausality
