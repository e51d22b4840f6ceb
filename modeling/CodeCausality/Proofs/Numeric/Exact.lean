import Mathlib.Algebra.BigOperators.Group.List.Basic
import Mathlib.Algebra.Order.Field.Basic
import Mathlib.Algebra.Order.Floor.Semiring
import Mathlib.Analysis.Complex.Exponential
import Mathlib.Analysis.Real.Sqrt
import CodeCausality.Numeric.Stats
import CodeCausality.Regression.Predictor

/-!
# Exact arithmetic

The definitions of this library compute in any `Scalar`. In an ordered field they have their exact
meaning: nothing is rounded, all values are finite, and sums do not depend on their order. The root
and the exponential stay open, as no statement needs more of them than it names.

* `RootExp`, `Scalar.exact` -- **an ordered field with any root and any exponential is a `Scalar`**,
  the real numbers for one;
* `Scalar.sum_eq`, `Scalar.dot_eq`, `Scalar.clamp_eq`, `linear_eq`, `mean_eq` -- what the
  combinations come to.
-/

namespace CodeCausality

/-- The two functions that exact arithmetic leaves open. -/
class RootExp (K : Type) where
  root : K → K
  exp : K → K

noncomputable instance : RootExp ℝ where
  root := Real.sqrt
  exp := Real.exp

/-- The rationals, with stand-ins for both: they compute what takes no root and no exponential. -/
instance : RootExp ℚ where
  root x := x
  exp x := x

variable {K : Type} [Field K] [LinearOrder K] [FloorSemiring K] [RootExp K]

/-- The arithmetic of an ordered field. -/
instance (priority := low) Scalar.exact : Scalar K where
  ofNat n := n
  ofDecimal m places := m / 10 ^ places
  abs x := |x|
  sqrt := RootExp.root
  exp := RootExp.exp
  floor x := ⌊x⌋₊
  ceil x := ⌈x⌉₊
  isFinite _ := true
  totalLE x y := decide (x ≤ y)
  decLT := inferInstance
  decLE := inferInstance

namespace Scalar

@[simp] theorem isFinite_exact (x : K) : isFinite x = true := rfl

theorem ofNat_eq (n : Nat) : (ofNat n : K) = n := rfl

theorem ofDecimal_eq (m places : Nat) : (ofDecimal m places : K) = m / 10 ^ places := rfl

theorem ofNat_zero : (ofNat 0 : K) = 0 := Nat.cast_zero

theorem ofNat_one : (ofNat 1 : K) = 1 := Nat.cast_one

/-- **A sum from left to right is the sum.** -/
theorem sum_eq (xs : List K) : sum xs = xs.sum := by
  have hzero : sum xs = xs.foldl (· + ·) (ofNat 0) := rfl
  rw [hzero, ofNat_zero, List.sum_eq_foldl]

theorem dot_eq (xs ys : List K) : dot xs ys = (List.zipWith (· * ·) xs ys).sum := by
  rw [dot, sum_eq]

/-- What is moved into an interval. -/
theorem clamp_eq {x lo hi : K} (h : lo ≤ hi) : clamp x lo hi = max lo (min x hi) := by
  rw [clamp]
  split
  · rename_i hlow
    rw [max_eq_left ((min_le_left _ _).trans hlow.le)]
  · rename_i hlow
    split
    · rename_i hhigh
      rw [min_eq_right hhigh.le, max_eq_right h]
    · rename_i hhigh
      rw [min_eq_left (le_of_not_gt hhigh), max_eq_right (le_of_not_gt hlow)]

end Scalar

theorem Regression.linear_eq (b : K) (cs xs : List K) :
    Regression.linear b cs xs = b + (List.zipWith (· * ·) cs xs).sum := by
  rw [Regression.linear, Scalar.dot_eq]

theorem Stats.mean_eq {xs : List K} (h : xs ≠ []) : Stats.mean xs = xs.sum / xs.length := by
  rw [Stats.mean, if_neg fun he => h (List.isEmpty_iff.mp he), Scalar.sum_eq, Scalar.ofNat_eq]

end CodeCausality
