import CodeCausality.Model.Basic
import CodeCausality.Regression.CrossValidation
import CodeCausality.Settings.Basic
import CodeCausality.Trace

/-!
# Fitting a model

Without traces the mechanisms follow from the graph: roots get a standard prior, other nodes the
edges' weights as coefficients and as much noise as leaves the parents the target share of the
variance. With traces each node is learned from its column and its parents' columns, scored on rows
that it was not learned from, and the model is refused if the mean score is below the threshold; the
refusal carries the model.
-/

namespace CodeCausality

open Regression (Estimator Predictor crossValidate)

/-! ## 1. Why a fit fails -/

inductive FitFault where
  | insufficientRows (required actual : Nat)
  | column (error : ColumnError)
  | singular (node : String)
  deriving Repr, DecidableEq

def FitFault.message : FitFault → String
  | insufficientRows required actual => s!"need at least {required} trace rows, got {actual}"
  | column error => error.message
  | singular node => s!"feature matrix for node {node} is singular"

inductive FitError (α : Type) where
  | fault (f : FitFault)
  /-- The model was fitted but scores below the threshold. -/
  | lowScore (score threshold : α) (model : Model α)

/-- The sentence about a score below the threshold. -/
def lowScoreMessage (score threshold : Float) : String :=
  "validation score " ++ Decimal.fixedPlaces 4 score ++ " is below threshold "
    ++ Decimal.fixedPlaces 4 threshold

def FitError.message : FitError Float → String
  | fault f => f.message
  | lowScore score threshold _ => lowScoreMessage score threshold

/-- Takes the model even if its score is low. -/
def acceptLowScore {α : Type} : Except (FitError α) (Model α) → Except FitFault (Model α)
  | .ok m => .ok m
  | .error (.lowScore _ _ m) => .ok m
  | .error (.fault f) => .error f

section

variable {α : Type} [Scalar α]

/-! ## 2. What a fit collects -/

/-- A fitted node: its mechanism, and its score unless it is a root. -/
structure FittedNode (α : Type) where
  id : String
  mechanism : NodeMechanism α
  score : Option α

/-- The mean of the scores; one if there are none. -/
def meanScore (scores : Dictionary α) : α :=
  if scores.isEmpty then 1 else Scalar.sum scores.values / Scalar.ofNat scores.size

/-- The model of the fitted nodes. -/
def Model.ofNodes (graph : CausalGraph α) (nodes : List (FittedNode α)) (now : Instant)
    (traceCount : Nat) (staticOnly : Bool) (seed : UInt64) : Model α :=
  let mechanisms := Dictionary.ofList (nodes.map fun n => (n.id, n.mechanism))
  let scores := Dictionary.ofList (nodes.filterMap fun n => n.score.map fun s => (n.id, s))
  { graph
    mechanisms
    metadata := {
      fittedAt := now.toMicros
      traceCount := UInt64.ofNat traceCount
      score := meanScore scores
      staticOnly
      families := mechanisms.map fun _ n => n.mechanism.family.name
      nodeScores := scores
      seed } }

/-! ## 3. Static fits -/

/-- What an edge without weight multiplies its cause by. -/
def defaultCoefficient : EdgeKind → α
  | .controlFlow => Scalar.ofDecimal 5 1
  | .dataFlow => 1
  | .call => 1

/-- The coefficient of the edge from `parent` to `id`. -/
def coefficient (g : CausalGraph α) (id parent : String) : α :=
  match g.edge? parent id with
  | some e => e.weight.getD (defaultCoefficient e.kind)
  | none => 1

/-- The variance that parents of the given variances cause. -/
def signalVariance (coefficients variances : List α) : α :=
  Scalar.sum (List.zipWith (fun c v => c * c * v) coefficients variances)

/-- A statically fitted node, and the variance of its values. -/
def staticNode (target : α) (g : CausalGraph α) (variances : List (String × α)) (id : String) :
    FittedNode α × α :=
  match g.parents id with
  | [] => (⟨id, ⟨[], .continuous, .staticPrior 0 1⟩, none⟩, 1)
  | parents =>
    let coefficients := parents.map (coefficient g id)
    let signal := signalVariance coefficients (parents.map fun p => (variances.lookup p).getD 1)
    let (noise, score) : α × α :=
      if 0 < signal then (signal * (1 - target) / target, target) else (1, 0)
    (⟨id, ⟨parents, .continuous, .linearStatic 0 coefficients (Scalar.sqrt noise)⟩, some score⟩,
      signal + noise)

/-- The nodes of the order fitted statically, given the variances of those before. -/
def staticNodes (target : α) (g : CausalGraph α) : List (String × α) → List String →
    List (FittedNode α)
  | _, [] => []
  | variances, id :: rest =>
    let (node, variance) := staticNode target g variances id
    node :: staticNodes target g ((id, variance) :: variances) rest

def fitStatic (settings : FitSettings α) (now : Instant) (g : CausalGraph α) : Model α :=
  Model.ofNodes g (staticNodes settings.target g [] g.topologicalOrder) now 0 true
    settings.seedValue

/-! ## 4. Learning one node -/

/-- The distribution of a root's column. -/
def fitMarginal (noise : NoiseModel) (c : Column α) : Mechanism α :=
  let n : α := Scalar.ofNat c.codes.length
  match c.domain with
  | .continuous =>
    match noise with
    | .empirical => .marginalEmpirical c.codes
    | .gaussian =>
      let mean := Scalar.sum c.codes / n
      let ss := Scalar.sum (c.codes.map fun v => Scalar.square (v - mean))
      .marginalGaussian mean (Scalar.sqrt (ss / Scalar.maxNum (n - 1) 1))
  | .boolean => .marginalBernoulli (Scalar.sum c.codes / n)
  | .categorical labels =>
    let count (k : Nat) : α := Scalar.ofNat (c.codes.countP fun v => Scalar.floor v == k)
    .marginalCategorical ((List.range labels.length).map fun k => count k / n)

/-- How fast softmax regression descends. -/
def softmaxRate : α := Scalar.ofDecimal 5 1

/-- The estimator for a node of the domain. -/
def estimatorFor (settings : FitSettings α) : Domain → Estimator α
  | .continuous => .leastSquares
  | .boolean => .logistic settings.penalty settings.newtonSteps
  | .categorical labels =>
    .softmax labels.length settings.penalty settings.gradientSteps softmaxRate

/-- The features of row `i` of the parents' columns. -/
def featureRow (parents : List (Column α)) (i : Nat) : List α :=
  parents.flatMap fun c => c.domain.features (c.codes.getD i 0)

def designMatrix (parents : List (Column α)) (rows : Nat) : List (List α) :=
  (List.range rows).map (featureRow parents)

/-- The spread of residuals, with the degrees of freedom that the coefficients leave, if any. -/
def residualSpread (residuals : List α) (coefficientCount : Nat) : α :=
  let sse := Scalar.sum (residuals.map fun r => r * r)
  let n : α := Scalar.ofNat residuals.length
  let freedom := n - Scalar.ofNat (coefficientCount + 1)
  if 0 < freedom then Scalar.sqrt (sse / freedom) else Scalar.sqrt (sse / n)

/-- The mechanism of a predictor that was fitted on `x` and `y`. -/
def mechanismOf (noise : NoiseModel) (x : List (List α)) (y : List α) : Predictor α → Mechanism α
  | .linear b cs =>
    let residuals := List.zipWith (fun row target => target - Regression.linear b cs row) x y
    match noise with
    | .empirical => .linearRegressionEmpirical b cs residuals
    | .gaussian => .linearRegression b cs (residualSpread residuals cs.length)
  | .logistic b cs => .logisticRegression b cs
  | .softmax bs ws => .softmaxRegression bs ws

/-! ## 5. Fits from traces -/

/-- A column for each node of the order. -/
def readColumns (t : TraceTable α) : List String → Except ColumnError (List (String × Column α))
  | [] => .ok []
  | id :: rest =>
    match t.column id with
    | .error e => .error e
    | .ok c => (readColumns t rest).map ((id, c) :: ·)

/-- The node at a position of the order, learned from the columns. -/
def learnNode (ρ : Type) [Noise ρ α] (settings : FitSettings α) (g : CausalGraph α)
    (columns : List (String × Column α)) (rows position : Nat) (id : String) (c : Column α) :
    Except FitFault (FittedNode α) :=
  match g.parents id with
  | [] => .ok ⟨id, ⟨[], c.domain, fitMarginal settings.noise c⟩, none⟩
  | parents =>
    let x := designMatrix (parents.filterMap fun p => columns.lookup p) rows
    let estimator := estimatorFor settings c.domain
    let seed := settings.seedValue + UInt64.ofNat position
    match crossValidate ρ estimator x c.codes settings.foldCount seed, estimator.fit x c.codes with
    | some score, some predictor =>
      .ok ⟨id, ⟨parents, c.domain, mechanismOf settings.noise x c.codes predictor⟩, some score⟩
    | _, _ => .error (.singular id)

/-- The nodes from a position of the order on. -/
def learnNodes (ρ : Type) [Noise ρ α] (settings : FitSettings α) (g : CausalGraph α)
    (columns : List (String × Column α)) (rows : Nat) :
    Nat → List (String × Column α) → Except FitFault (List (FittedNode α))
  | _, [] => .ok []
  | position, (id, c) :: rest =>
    match learnNode ρ settings g columns rows position id c with
    | .error e => .error e
    | .ok node => (learnNodes ρ settings g columns rows (position + 1) rest).map (node :: ·)

/-- The fewest rows that a model is learned from. -/
def leastRows : Nat := 2

/-- The model learned from traces, whatever its score. -/
def learnModel (ρ : Type) [Noise ρ α] (settings : FitSettings α) (now : Instant)
    (g : CausalGraph α) (t : TraceTable α) : Except FitFault (Model α) :=
  let rows := t.rows.length
  if rows < leastRows then .error (.insufficientRows leastRows rows)
  else match readColumns t g.topologicalOrder with
    | .error e => .error (.column e)
    | .ok columns =>
      (learnNodes ρ settings g columns rows 0 columns).map fun nodes =>
        Model.ofNodes g nodes now rows false settings.seedValue

/-- The model learned from traces, refused if it scores below the threshold. -/
def fitDynamic (ρ : Type) [Noise ρ α] (settings : FitSettings α) (now : Instant)
    (g : CausalGraph α) (t : TraceTable α) : Except (FitError α) (Model α) :=
  match learnModel ρ settings now g t with
  | .error f => .error (.fault f)
  | .ok m =>
    if m.metadata.score < settings.threshold then
      .error (.lowScore m.metadata.score settings.threshold m)
    else .ok m

/-- Fits a model, from traces if there are any and they are to be used. -/
def fit (ρ : Type) [Noise ρ α] (settings : FitSettings α) (now : Instant) (g : CausalGraph α)
    (traces : Option (TraceTable α)) (staticOnly : Bool) : Except (FitError α) (Model α) :=
  match traces with
  | some t => if staticOnly then .ok (fitStatic settings now g) else fitDynamic ρ settings now g t
  | none => .ok (fitStatic settings now g)

end

end CodeCausality
