import CodeCausality.Random.Noise
import CodeCausality.Regression.Estimator

/-!
# Cross-validation

Every row is predicted by an estimator that was fitted on the rows outside the row's fold, and the
predictions are scored by the share of the targets' variation that they explain (`explainedShare`).
The same score serves numbers and class probabilities.
-/

namespace CodeCausality

namespace Regression

variable {α : Type} [Scalar α]

/-! ## 1. The score -/

/-- Total variation below which targets count as constant: the spacing of binary64 at 1. -/
def constantTolerance : α := 1 / Scalar.ofNat (Nat.pow 2 52)

/-- Total squared error below which predictions count as exact. -/
def exactTolerance : α := Scalar.ofDecimal 1 12

/-- The squared differences of two tables, row by row. -/
def squaredDifferences (s t : List (List α)) : List α :=
  (List.zipWith (List.zipWith fun a b => Scalar.square (a - b)) s t).flatten

/-- One minus the ratio of squared error to variation, over all columns. Constant targets score one
if they are predicted exactly and zero if not. -/
def explainedShare (targets predictions : List (List α)) : α :=
  match targets with
  | [] => 0
  | first :: _ =>
    let n : α := Scalar.ofNat targets.length
    let means := (columnsOf first.length targets).map fun c => Scalar.sum c / n
    let sse := Scalar.sum (squaredDifferences targets predictions)
    let sst := Scalar.sum (squaredDifferences targets (targets.map fun _ => means))
    if sst ≤ constantTolerance then (if sse ≤ exactTolerance then 1 else 0) else 1 - sse / sst

/-! ## 2. Folds -/

/-- How many folds `n` rows are split into when `k` are asked for: two at least, and no more than
there are rows. -/
def foldCount (n k : Nat) : Nat := max (min (max (min k (max n 2)) 2) n) 1

/-- The members at positions `f`, `f + k`, `f + 2 * k`, … -/
def everyNth {β : Type} (k f : Nat) (xs : List β) : List β :=
  (xs.zipIdx.filter fun e => e.2 % k == f).map (·.1)

/-- The numbers below `n` in shuffled order, dealt out to folds in turn. -/
def folds (ρ : Type) [Noise ρ α] (n k : Nat) (seed : UInt64) : List (List Nat) :=
  let (order, _) := shuffle (List.range n) (Noise.start (ρ := ρ) seed 0)
  let count := foldCount n k
  (List.range count).map fun f => everyNth count f order

/-! ## 3. Out-of-fold predictions -/

/-- The members whose position is not held out. -/
def outside {β : Type} (held : List Nat) (xs : List β) : List β :=
  (xs.zipIdx.filter fun e => !held.contains e.2).map (·.1)

/-- The predictions of the held-out rows by a predictor that has not seen them. -/
def predictHeld (estimator : Estimator α) (x : List (List α)) (y : List α) (held : List Nat) :
    Option (List (Nat × List α)) :=
  (estimator.fit (outside held x) (outside held y)).map fun p =>
    held.map fun i => (i, p.predict (x.getD i []))

/-- The prediction of each row by the fold that holds it out. -/
def crossPredict (estimator : Estimator α) (x : List (List α)) (y : List α)
    (folds : List (List Nat)) : Option (List (List α)) :=
  (folds.mapM (predictHeld estimator x y)).map fun predicted =>
    let byRow := predicted.flatten
    (List.range y.length).map fun i => (byRow.lookup i).getD []

/-- The score of out-of-fold predictions; none if an estimator fails on the rows outside some
fold. -/
def crossValidate (ρ : Type) [Noise ρ α] (estimator : Estimator α) (x : List (List α)) (y : List α)
    (k : Nat) (seed : UInt64) : Option α :=
  (crossPredict estimator x y (folds ρ y.length k seed)).map (explainedShare (estimator.targets y))

end Regression

end CodeCausality
