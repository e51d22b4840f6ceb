import CodeCausality.Random.Noise
import CodeCausality.Regression.Predictor
import CodeCausality.Value

/-!
# Causal mechanisms

How the value of a node comes about. A root has a marginal distribution; every other node has a
function of its parents' features and a model of its noise. `Mechanism.sample` draws one value.

A family produces codes of one domain (`supports`), and applies its coefficient rows to as many
features as `coefficientWidths` says.
-/

namespace CodeCausality

open Regression (linear sigmoid classProbabilities)

/-! ## 1. Families -/

/-- The families of mechanisms. -/
inductive Family where
  | staticPrior
  | marginalGaussian
  | marginalEmpirical
  | marginalBernoulli
  | marginalCategorical
  | linearStatic
  | linearRegression
  | linearRegressionEmpirical
  | logisticRegression
  | softmaxRegression
  deriving Repr, DecidableEq

namespace Family

def name : Family → String
  | staticPrior => "static-prior"
  | marginalGaussian => "marginal-gaussian"
  | marginalEmpirical => "marginal-empirical"
  | marginalBernoulli => "marginal-bernoulli"
  | marginalCategorical => "marginal-categorical"
  | linearStatic => "linear-static"
  | linearRegression => "linear-regression"
  | linearRegressionEmpirical => "linear-regression-empirical"
  | logisticRegression => "logistic-regression"
  | softmaxRegression => "softmax-regression"

def all : List Family :=
  [staticPrior, marginalGaussian, marginalEmpirical, marginalBernoulli, marginalCategorical,
    linearStatic, linearRegression, linearRegressionEmpirical, logisticRegression,
    softmaxRegression]

def ofName? (s : String) : Option Family := all.find? fun f => f.name == s

theorem ofName?_name (f : Family) : ofName? f.name = some f := by
  cases f <;> decide

/-- A family without parents. -/
def isMarginal : Family → Bool
  | staticPrior | marginalGaussian | marginalEmpirical | marginalBernoulli
  | marginalCategorical => true
  | _ => false

/-- Whether the family produces values of the domain. -/
def supports : Family → Domain → Bool
  | staticPrior, .continuous | marginalGaussian, .continuous | marginalEmpirical, .continuous
  | linearStatic, .continuous | linearRegression, .continuous
  | linearRegressionEmpirical, .continuous => true
  | marginalBernoulli, .boolean | logisticRegression, .boolean => true
  | marginalCategorical, .categorical _ | softmaxRegression, .categorical _ => true
  | _, _ => false

end Family

/-! ## 2. Mechanisms -/

inductive Mechanism (α : Type) where
  /-- A prior for a root when nothing was observed. -/
  | staticPrior (mean std : α)
  | marginalGaussian (mean std : α)
  /-- One of the observed values. -/
  | marginalEmpirical (values : List α)
  | marginalBernoulli (p : α)
  /-- A probability for each label. -/
  | marginalCategorical (probabilities : List α)
  /-- Coefficients given by the structure. -/
  | linearStatic (intercept : α) (coefficients : List α) (noiseStd : α)
  /-- Learned coefficients and Gaussian noise. -/
  | linearRegression (intercept : α) (coefficients : List α) (noiseStd : α)
  /-- Learned coefficients and one of the residuals. -/
  | linearRegressionEmpirical (intercept : α) (coefficients residuals : List α)
  | logisticRegression (intercept : α) (coefficients : List α)
  | softmaxRegression (intercepts : List α) (weights : List (List α))

namespace Mechanism

variable {α : Type}

def family : Mechanism α → Family
  | staticPrior .. => .staticPrior
  | marginalGaussian .. => .marginalGaussian
  | marginalEmpirical .. => .marginalEmpirical
  | marginalBernoulli .. => .marginalBernoulli
  | marginalCategorical .. => .marginalCategorical
  | linearStatic .. => .linearStatic
  | linearRegression .. => .linearRegression
  | linearRegressionEmpirical .. => .linearRegressionEmpirical
  | logisticRegression .. => .logisticRegression
  | softmaxRegression .. => .softmaxRegression

/-- The lengths of the coefficient rows; none for a marginal. -/
def coefficientWidths : Mechanism α → List Nat
  | linearStatic _ cs _ => [cs.length]
  | linearRegression _ cs _ => [cs.length]
  | linearRegressionEmpirical _ cs _ => [cs.length]
  | logisticRegression _ cs => [cs.length]
  | softmaxRegression _ ws => ws.map List.length
  | _ => []

/-! ## 3. Sampling -/

variable [Scalar α] {ρ : Type} [Noise ρ α]

/-- One of the values; zero, and no draw, if there are none. -/
def pick (values : List α) (r : ρ) : α × ρ :=
  if values.isEmpty then (0, r)
  else
    let (i, r) := Noise.position values.length r
    (values.getD i 0, r)

/-- The first class, from `i` on, whose cumulated probability is above `u`; `last` if none is. -/
def classAbove (u : α) (last : Nat) (i : Nat) (sum : α) : List α → Nat
  | [] => last
  | p :: rest =>
    let sum := sum + p
    if u < sum then i else classAbove u last (i + 1) sum rest

/-- A class with the given probabilities; the last one takes what rounding leaves over. -/
def drawClass (probabilities : List α) (r : ρ) : Nat × ρ :=
  let (u, r) := Noise.uniform r
  (classAbove u (probabilities.length - 1) 0 0 probabilities, r)

/-- True with probability `p`. -/
def drawTruth (p : α) (r : ρ) : α × ρ :=
  let (u, r) := Noise.uniform r
  (Scalar.indicator (decide (u < p)), r)

/-- One value, given the features of the parents. -/
def sample (m : Mechanism α) (features : List α) (r : ρ) : α × ρ :=
  match m with
  | staticPrior mean std | marginalGaussian mean std =>
    let (z, r) := Noise.gaussian std r
    (mean + z, r)
  | marginalEmpirical values => pick values r
  | marginalBernoulli p => drawTruth p r
  | marginalCategorical ps =>
    let (k, r) := drawClass ps r
    (Scalar.ofNat k, r)
  | linearStatic b cs std | linearRegression b cs std =>
    let (z, r) := Noise.gaussian std r
    (linear b cs features + z, r)
  | linearRegressionEmpirical b cs residuals =>
    let (z, r) := pick residuals r
    (linear b cs features + z, r)
  | logisticRegression b cs => drawTruth (sigmoid (linear b cs features)) r
  | softmaxRegression bs ws =>
    let (k, r) := drawClass (classProbabilities bs ws features) r
    (Scalar.ofNat k, r)

end Mechanism

/-- The mechanism of a node, with its parents in the order of their features and the domain of the
node's values. -/
structure NodeMechanism (α : Type) where
  parents : List String
  domain : Domain
  mechanism : Mechanism α

end CodeCausality
