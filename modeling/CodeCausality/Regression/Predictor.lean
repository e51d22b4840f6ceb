import CodeCausality.Numeric.Scalar

/-!
# Predictors

What a regression predicts from a row of features: a number, the probability of true, or the
probability of each class.
-/

namespace CodeCausality

namespace Regression

variable {α : Type} [Scalar α]

/-- The intercept plus the weighted features. -/
@[specialize] def linear (intercept : α) (coefficients features : List α) : α :=
  intercept + Scalar.dot coefficients features

/-- The logistic function, computed without overflow on either side. -/
@[specialize] def sigmoid (z : α) : α :=
  if 0 ≤ z then 1 / (1 + Scalar.exp (-z))
  else
    let e := Scalar.exp z
    e / (1 + e)

/-- The largest of the numbers. -/
@[specialize] def largest : List α → α
  | [] => 0
  | x :: xs => xs.foldl Scalar.maxNum x

/-- Shares in proportion to the exponentials of the logits. -/
@[specialize] def shares (logits : List α) : List α :=
  let top := largest logits
  let exps := logits.map fun l => Scalar.exp (l - top)
  let total := Scalar.sum exps
  exps.map fun e => e / total

/-- The logit of each class. -/
@[specialize] def logits (intercepts : List α) (weights : List (List α)) (features : List α) :
    List α :=
  List.zipWith (fun b w => linear b w features) intercepts weights

/-- The probability of each class. -/
@[specialize] def classProbabilities (intercepts : List α) (weights : List (List α))
    (features : List α) : List α :=
  shares (logits intercepts weights features)

/-- A fitted regression. -/
inductive Predictor (α : Type) where
  | linear (intercept : α) (coefficients : List α)
  | logistic (intercept : α) (coefficients : List α)
  | softmax (intercepts : List α) (weights : List (List α))

/-- The prediction on a row: one number, one probability, or one for each class. -/
def Predictor.predict : Predictor α → List α → List α
  | .linear b cs, x => [Regression.linear b cs x]
  | .logistic b cs, x => [sigmoid (Regression.linear b cs x)]
  | .softmax bs ws, x => classProbabilities bs ws x

end Regression

end CodeCausality
