import CodeCausality.Regression.Estimator

/-!
# The normal equations, row by row

The coefficients of the normal equations are symmetric, so one triangle of them is enough. Each row
adds the products of its values to the sums so far, of each value with itself and with those after
it. The other triangle mirrors this one.

* `Moments` holds the sums; `add` adds what a row contributes;
* `accumulate` adds the rows of a table, and `equations` reads off the equations.
-/

namespace CodeCausality

namespace Regression

/-- The sums of products: for each column, those with itself and with the columns after it, and
those with the targets. -/
structure Moments (α : Type) where
  triangle : List (List α)
  constants : List α

namespace Moments

variable {α : Type} [Scalar α]

/-- The sums of no rows. -/
def zero (p : Nat) : Moments α where
  triangle := (List.range p).map fun i => List.replicate (p - i) 0
  constants := List.replicate p 0

/-- Adds the products of a row's values with those after them, and with the target. -/
def add (m : Moments α) (row : List α) (target : α) : Moments α where
  triangle := m.triangle.zipIdx.map fun (sums, i) =>
    List.zipWith (fun s b => s + row.getD i 0 * b) sums (row.drop i)
  constants := List.zipWith (fun s a => s + a * target) m.constants row

/-- The sum for two columns, whichever of them comes first. -/
def product (m : Moments α) (i j : Nat) : α :=
  if i ≤ j then (m.triangle.getD i []).getD (j - i) 0 else (m.triangle.getD j []).getD (i - j) 0

/-- One equation for each of `p` columns. -/
def equations (m : Moments α) (p : Nat) : List (Equation α) :=
  (List.range p).map fun i => ⟨(List.range p).map (m.product i), m.constants.getD i 0⟩

end Moments

/-- The sums over the rows of a table, with ones in front. -/
def accumulate {α : Type} [Scalar α] (x : List (List α)) (y : List α) : Moments α :=
  ((augment x).zip y).foldl (fun m e => m.add e.1 e.2) (.zero (width x + 1))

end Regression

end CodeCausality
