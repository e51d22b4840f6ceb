import CodeCausality.Numeric.LinearSystem
import CodeCausality.Regression.Predictor

/-!
# Estimators

A table of features (one row an observation, without a column for the intercept) and a target for
each row become a predictor:

* `fitLinear` solves the normal equations of least squares;
* `fitLogistic` takes Newton steps on the penalised likelihood of a truth value;
* `fitSoftmax` takes gradient steps on the penalised likelihood of a class, on standardised
  features, and maps the result back to the raw ones.

The first two fail where a linear system is singular.
-/

namespace CodeCausality

namespace Regression

variable {α : Type} [Scalar α]

/-! ## 1. Tables -/

/-- The number of features, read off the first row. -/
def width (x : List (List α)) : Nat := (x.headD []).length

/-- Column `j` of a table. -/
@[specialize] def columnOf (x : List (List α)) (j : Nat) : List α := x.map fun row => row.getD j 0

/-- The first `p` columns of a table. -/
@[specialize] def columnsOf (p : Nat) (x : List (List α)) : List (List α) :=
  (List.range p).map (columnOf x)

/-- The rows with a one in front, which the intercept multiplies. -/
def augment (x : List (List α)) : List (List α) := x.map (1 :: ·)

/-- The equations with the given rows of coefficients and right-hand sides. -/
def equations (rows : List (List α)) (constants : List α) : List (Equation α) :=
  List.zipWith Equation.mk rows constants

/-- A solution read as intercept and coefficients. -/
def splitIntercept : List α → α × List α
  | [] => (0, [])
  | b :: cs => (b, cs)

/-! ## 2. Least squares -/

/-- The normal equations of least squares. -/
@[specialize] def normalEquations (x : List (List α)) (y : List α) : List (Equation α) :=
  let columns := columnsOf (width x + 1) (augment x)
  equations (columns.map fun c => columns.map (Scalar.dot c)) (columns.map fun c => Scalar.dot c y)

def fitLinear (x : List (List α)) (y : List α) : Option (Predictor α) :=
  (LinearSystem.solve (normalEquations x y)).map fun beta =>
    let (b, cs) := splitIntercept beta
    .linear b cs

/-! ## 3. Logistic regression -/

/-- The smallest weight that a row has in a Newton step. -/
def leastWeight : α := Scalar.ofDecimal 1 12

/-- What keeps the intercept's second derivative from vanishing. -/
def interceptRidge : α := Scalar.ofDecimal 1 9

/-- The longest step after which the coefficients count as found. -/
def stepTolerance : α := Scalar.ofDecimal 1 8

/-- The equations of one Newton step. The penalty spares the intercept. -/
@[specialize] def newtonEquations (penalty : α) (x : List (List α)) (y beta : List α) :
    List (Equation α) :=
  let (b, cs) := splitIntercept beta
  let columns := columnsOf (width x + 1) (augment x)
  let probabilities := x.map fun row => sigmoid (linear b cs row)
  let errors := List.zipWith (· - ·) probabilities y
  let weights := probabilities.map fun p => Scalar.maxNum (p * (1 - p)) leastWeight
  let gradient := columns.map (Scalar.dot errors)
  let hessian := columns.map fun c =>
    let weighted := List.zipWith (· * ·) weights c
    columns.map (Scalar.dot weighted)
  let penalisedGradient := gradient.zipIdx.map fun (g, i) =>
    if i = 0 then g else g + penalty * beta.getD i 0
  let penalisedHessian := hessian.zipIdx.map fun (row, i) =>
    row.modify i fun h => h + if i = 0 then interceptRidge else penalty
  equations penalisedHessian penalisedGradient

/-- Newton steps until one is short or none are left. -/
@[specialize] def newton (penalty : α) (x : List (List α)) (y : List α) :
    Nat → List α → Option (List α)
  | 0, beta => some beta
  | steps + 1, beta =>
    match LinearSystem.solve (newtonEquations penalty x y beta) with
    | none => none
    | some step =>
      let next := List.zipWith (· - ·) beta step
      let longest := (step.map Scalar.abs).foldl Scalar.maxNum 0
      if longest < stepTolerance then some next else newton penalty x y steps next

def fitLogistic (penalty : α) (steps : Nat) (x : List (List α)) (y : List α) :
    Option (Predictor α) :=
  (newton penalty x y steps (List.replicate (width x + 1) 0)).map fun beta =>
    let (b, cs) := splitIntercept beta
    .logistic b cs

/-! ## 4. Softmax regression -/

/-- Location and spread of each column; a constant column has spread one. -/
structure Standard (α : Type) where
  means : List α
  spreads : List α

/-- The number of rows as a divisor. -/
def rowCount (x : List (List α)) : α := Scalar.ofNat (max x.length 1)

def Standard.ofTable (x : List (List α)) : Standard α :=
  let n := rowCount x
  let columns := columnsOf (width x) x
  let means := columns.map fun c => Scalar.sum c / n
  let spread (c : List α) (m : α) : α :=
    let variance := Scalar.sum (c.map fun v => Scalar.square (v - m)) / n
    if 0 < variance then Scalar.sqrt variance else 1
  ⟨means, List.zipWith spread columns means⟩

/-- A row in units of spread about the means. -/
def Standard.row (s : Standard α) (row : List α) : List α :=
  List.zipWith (· / ·) (List.zipWith (· - ·) row s.means) s.spreads

/-- Intercepts and weight rows of all classes. -/
structure ClassWeights (α : Type) where
  intercepts : List α
  weights : List (List α)

/-- Whether a target code stands for class `k`, as a number. -/
def isClass (target : α) (k : Nat) : α := Scalar.indicator (decide (Scalar.floor target = k))

/-- By how much the probabilities of each class miss the targets, a row an observation. -/
@[specialize] def classErrors (w : ClassWeights α) (z : List (List α)) (y : List α) :
    List (List α) :=
  List.zipWith
    (fun row target => (classProbabilities w.intercepts w.weights row).zipIdx.map
      fun (p, k) => p - isClass target k)
    z y

/-- One gradient step; `columns` are those of the standardised table `z`. -/
@[specialize] def gradientStep (penalty rate n : α) (z columns : List (List α)) (y : List α)
    (w : ClassWeights α) : ClassWeights α :=
  let errors := columnsOf w.intercepts.length (classErrors w z y)
  { intercepts := List.zipWith (fun b e => b - rate * Scalar.sum e / n) w.intercepts errors
    weights := List.zipWith
      (fun row e => List.zipWith
        (fun v c => v - rate * (Scalar.dot e c / n + penalty * v)) row columns)
      w.weights errors }

/-- Gradient steps from `w` on. -/
@[specialize] def descend (penalty rate n : α) (z columns : List (List α)) (y : List α) :
    Nat → ClassWeights α → ClassWeights α
  | 0, w => w
  | steps + 1, w => descend penalty rate n z columns y steps
      (gradientStep penalty rate n z columns y w)

/-- The weights on raw features that give what `w` gives on standardised ones. -/
def Standard.toRaw (s : Standard α) (w : ClassWeights α) : ClassWeights α where
  intercepts := List.zipWith
    (fun b row => b - Scalar.sum
      (List.zipWith (· / ·) (List.zipWith (· * ·) row s.means) s.spreads))
    w.intercepts w.weights
  weights := w.weights.map fun row => List.zipWith (· / ·) row s.spreads

/-- The weights learned on standardised features. -/
def learnStandardised (classes : Nat) (penalty : α) (steps : Nat) (rate : α) (x : List (List α))
    (y : List α) : ClassWeights α :=
  let z := x.map (Standard.ofTable x).row
  descend penalty rate (rowCount x) z (columnsOf (width x) z) y steps
    ⟨List.replicate classes 0, List.replicate classes (List.replicate (width x) 0)⟩

def fitSoftmax (classes : Nat) (penalty : α) (steps : Nat) (rate : α) (x : List (List α))
    (y : List α) : Predictor α :=
  let raw := (Standard.ofTable x).toRaw (learnStandardised classes penalty steps rate x y)
  .softmax raw.intercepts raw.weights

/-! ## 5. Estimators -/

inductive Estimator (α : Type) where
  | leastSquares
  | logistic (penalty : α) (steps : Nat)
  | softmax (classes : Nat) (penalty : α) (steps : Nat) (rate : α)

namespace Estimator

def fit : Estimator α → List (List α) → List α → Option (Predictor α)
  | leastSquares, x, y => fitLinear x y
  | logistic penalty steps, x, y => fitLogistic penalty steps x y
  | softmax classes penalty steps rate, x, y => some (fitSoftmax classes penalty steps rate x y)

/-- The targets as rows that compare with predictions. -/
def targets : Estimator α → List α → List (List α)
  | softmax classes _ _ _, y => y.map fun v => (List.range classes).map (isClass v)
  | _, y => y.map fun v => [v]

end Estimator

end Regression

end CodeCausality
