import CodeCausality.Model.Basic
import CodeCausality.Time.Reader

/-!
# Records of models

A record is the form in which a model is kept: names where the model has alternatives, parameters by
name, the time of fitting as text. `Record.ofModel` writes one and `Record.toModel` reads it, which
checks that the graph is a causal graph and that every mechanism fits its node. A node may lack its
mechanism; only a query on the model objects to that.
-/

namespace CodeCausality

/-! ## 1. The form -/

structure MechanismRecord (α : Type) where
  family : String
  domain : String
  parents : List String
  labels : List String
  parameters : Dictionary (List α)

structure MetadataRecord (α : Type) where
  fittedAt : String
  traceCount : UInt64
  score : α
  staticOnly : Bool
  families : Dictionary String
  nodeScores : Dictionary α
  seed : UInt64

structure Record (α : Type) where
  nodes : List Element
  edges : List (Edge α)
  mechanisms : Dictionary (MechanismRecord α)
  metadata : MetadataRecord α

/-- Why a record is refused. -/
inductive RecordError (α : Type) where
  | unknownFamily (node family : String)
  | missingParameter (node parameter : String)
  | malformed (node reason : String)
  | invalidGraph (e : GraphError α)
  | invalidTimestamp (value : String) (fault : TimestampFault)
  | unknownDomain (value : String)

def RecordError.message : RecordError Float → String
  | unknownFamily node family => s!"unknown mechanism type {family} for node {node}"
  | missingParameter node parameter =>
    s!"mechanism for node {node} is missing parameter {parameter}"
  | malformed node reason => s!"mechanism for node {node} is malformed: {reason}"
  | invalidGraph e => "record graph is invalid: " ++ e.message
  | invalidTimestamp value fault => s!"invalid timestamp {value}: {fault.message}"
  | unknownDomain value => s!"unknown domain value: {value}"

/-! ## 2. Writing -/

variable {α : Type}

/-- The parameters of a mechanism by name. -/
def Mechanism.parameters : Mechanism α → List (String × List α)
  | .staticPrior mean std => [("mean", [mean]), ("std", [std])]
  | .marginalGaussian mean std => [("mean", [mean]), ("std", [std])]
  | .marginalEmpirical values => [("values", values)]
  | .marginalBernoulli p => [("p", [p])]
  | .marginalCategorical ps => [("probabilities", ps)]
  | .linearStatic b cs std => [("intercept", [b]), ("coefficients", cs), ("noise_std", [std])]
  | .linearRegression b cs std => [("intercept", [b]), ("coefficients", cs), ("noise_std", [std])]
  | .linearRegressionEmpirical b cs rs =>
    [("intercept", [b]), ("coefficients", cs), ("residuals", rs)]
  | .logisticRegression b cs => [("intercept", [b]), ("coefficients", cs)]
  | .softmaxRegression bs ws => [("intercepts", bs), ("weights", ws.flatten)]

def MechanismRecord.ofMechanism (n : NodeMechanism α) : MechanismRecord α where
  family := n.mechanism.family.name
  domain := n.domain.name
  parents := n.parents
  labels := n.domain.labels
  parameters := Dictionary.ofList n.mechanism.parameters

def Record.ofModel (m : Model α) : Record α where
  nodes := m.graph.nodes
  edges := m.graph.edges
  mechanisms := m.mechanisms.map fun _ n => MechanismRecord.ofMechanism n
  metadata := {
    fittedAt := m.metadata.fittedAt.text
    traceCount := m.metadata.traceCount
    score := m.metadata.score
    staticOnly := m.metadata.staticOnly
    families := m.metadata.families
    nodeScores := m.metadata.nodeScores
    seed := m.metadata.seed }

/-! ## 3. Reading a mechanism -/

namespace MechanismRecord

/-- The values of a parameter. -/
def vector (id : String) (m : MechanismRecord α) (name : String) :
    Except (RecordError α) (List α) :=
  match m.parameters.get? name with
  | some xs => .ok xs
  | none => .error (.missingParameter id name)

/-- The one value of a parameter. -/
def scalar (id : String) (m : MechanismRecord α) (name : String) : Except (RecordError α) α :=
  match m.vector id name with
  | .error e => .error e
  | .ok [x] => .ok x
  | .ok _ => .error (.malformed id s!"parameter {name} must hold one value")

def domain? (m : MechanismRecord α) : Except (RecordError α) Domain :=
  if m.domain = "continuous" then .ok .continuous
  else if m.domain = "boolean" then .ok .boolean
  else if m.domain = "categorical" then .ok (.categorical m.labels)
  else .error (.unknownDomain m.domain)

/-- The rows of a table of the given width. -/
def rows (width : Nat) : Nat → List α → List (List α)
  | 0, _ => []
  | n + 1, xs => xs.take width :: rows width n (xs.drop width)

/-- The mechanism of a family, with its parameters. -/
def mechanism (id : String) (m : MechanismRecord α) (domain : Domain) :
    Except (RecordError α) (Mechanism α) :=
  let scalar := m.scalar id
  let vector := m.vector id
  match Family.ofName? m.family with
  | none => .error (.unknownFamily id m.family)
  | some .staticPrior => do
    return .staticPrior (← scalar "mean") (← scalar "std")
  | some .marginalGaussian => do
    return .marginalGaussian (← scalar "mean") (← scalar "std")
  | some .marginalEmpirical => do
    return .marginalEmpirical (← vector "values")
  | some .marginalBernoulli => do
    return .marginalBernoulli (← scalar "p")
  | some .marginalCategorical => do
    let ps ← vector "probabilities"
    if ps.length = domain.labels.length then return .marginalCategorical ps
    else throw (.malformed id "one probability per label expected")
  | some .linearStatic => do
    return .linearStatic (← scalar "intercept") (← vector "coefficients") (← scalar "noise_std")
  | some .linearRegression => do
    return .linearRegression (← scalar "intercept") (← vector "coefficients") (← scalar "noise_std")
  | some .linearRegressionEmpirical => do
    return .linearRegressionEmpirical (← scalar "intercept") (← vector "coefficients")
      (← vector "residuals")
  | some .logisticRegression => do
    return .logisticRegression (← scalar "intercept") (← vector "coefficients")
  | some .softmaxRegression => do
    let bs ← vector "intercepts"
    let flat ← vector "weights"
    let classes := bs.length
    if classes = 0 ∨ classes ≠ domain.labels.length ∨ flat.length % classes ≠ 0 then
      throw (.malformed id "softmax weights do not match the label set")
    return .softmaxRegression bs (rows (flat.length / classes) classes flat)

/-- The node's mechanism, if its family suits its domain. -/
def toMechanism (id : String) (m : MechanismRecord α) : Except (RecordError α) (NodeMechanism α) := do
  let domain ← m.domain?
  let mechanism ← m.mechanism id domain
  if mechanism.family.supports domain then return ⟨m.parents, domain, mechanism⟩
  else throw (.malformed id s!"{m.family} cannot produce {domain.name} values")

/-- Whether the node's parents are as many as the graph's and all of them the graph's. -/
def parentsMatch (g : CausalGraph α) (id : String) (m : MechanismRecord α) : Bool :=
  let causes := g.parents id
  m.parents.length == causes.length && m.parents.all causes.contains

/-- The entry of a node, checked against the graph. -/
def readEntry (g : CausalGraph α) (e : String × MechanismRecord α) :
    Except (RecordError α) (String × NodeMechanism α) :=
  let (id, m) := e
  if !g.contains id then .error (.malformed id "node is not in the graph")
  else if !m.parentsMatch g id then .error (.malformed id "parents do not match the graph")
  else (m.toMechanism id).map fun n => (id, n)

end MechanismRecord

/-! ## 4. Reading a record -/

/-- The features of the parents together; none if one of them has no mechanism. -/
def expectedWidth (mechanisms : Dictionary (NodeMechanism α)) (parents : List String) :
    Option Nat :=
  (parents.mapM fun p => (mechanisms.get? p).map fun n => n.domain).map Domain.totalWidth

/-- Coefficient rows must be as wide as the parents' features. -/
def checkWidths (mechanisms : Dictionary (NodeMechanism α)) (e : String × NodeMechanism α) :
    Except (RecordError α) Unit :=
  match expectedWidth mechanisms e.2.parents with
  | none => .ok ()
  | some width =>
    if e.2.mechanism.coefficientWidths.all (· == width) then .ok ()
    else .error (.malformed e.1 s!"expected {width} coefficients per row for its parents")

/-- The model of a record, or the first fault: of the graph, of the mechanisms in the order of
their nodes, of their widths, of the timestamp. -/
def Record.toModel [Scalar α] (r : Record α) : Except (RecordError α) (Model α) := do
  let graph ← match CausalGraph.ofParts r.nodes r.edges with
    | .ok g => .ok g
    | .error e => .error (.invalidGraph e)
  let entries ← r.mechanisms.entries.mapM (MechanismRecord.readEntry graph)
  let mechanisms := Dictionary.ofList entries
  checkAll (checkWidths mechanisms) mechanisms.entries
  let fittedAt ← match Timestamp.read r.metadata.fittedAt with
    | .ok t => .ok t
    | .error f => .error (.invalidTimestamp r.metadata.fittedAt f)
  return {
    graph
    mechanisms
    metadata := {
      fittedAt
      traceCount := r.metadata.traceCount
      score := r.metadata.score
      staticOnly := r.metadata.staticOnly
      families := r.metadata.families
      nodeScores := r.metadata.nodeScores
      seed := r.metadata.seed } }

end CodeCausality
