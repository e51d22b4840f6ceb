import CodeCausality.Graph.Construction
import CodeCausality.Mechanism
import CodeCausality.Time.Instant

/-!
# Causal models

A model is a causal graph with a mechanism for its nodes and the facts about how it was fitted.
`Model.WellFormed` says what a model is that a fit produces: one mechanism a node, whose parents are
the node's causes, whose family suits the node's place and domain, and whose coefficients match the
features of the parents.
-/

namespace CodeCausality

structure ModelMetadata (α : Type) where
  fittedAt : Instant
  traceCount : UInt64
  /-- The mean score of the nodes that are no roots. -/
  score : α
  staticOnly : Bool
  families : Dictionary String
  nodeScores : Dictionary α
  /-- The seed of the simulations. -/
  seed : UInt64

structure Model (α : Type) where
  graph : CausalGraph α
  mechanisms : Dictionary (NodeMechanism α)
  metadata : ModelMetadata α

namespace Model

variable {α : Type}

def mechanism? (m : Model α) (id : String) : Option (NodeMechanism α) := m.mechanisms.get? id

/-- The nodes without a mechanism, in increasing order. -/
def missingMechanisms (m : Model α) : List String :=
  sortedIds (m.graph.ids.filter fun id => !m.mechanisms.contains id)

/-- How many features the parents contribute together. -/
def featureCount (m : Model α) (parents : List String) : Nat :=
  Domain.totalWidth (parents.filterMap fun p => (m.mechanism? p).map (·.domain))

/-- The parameters of a mechanism suit the domain: one row or probability for each label. -/
def labelsMatch (n : NodeMechanism α) : Bool :=
  match n.mechanism with
  | .marginalCategorical ps => ps.length == n.domain.labels.length
  | .softmaxRegression bs ws =>
    bs.length == n.domain.labels.length && ws.length == n.domain.labels.length
  | _ => true

/-- What a fitted model satisfies. -/
structure WellFormed [Scalar α] (m : Model α) : Prop where
  graph : m.graph.WellFormed
  complete : ∀ id, m.mechanisms.contains id = true ↔ id ∈ m.graph.ids
  parents : ∀ id n, m.mechanism? id = some n → n.parents = m.graph.parents id
  marginal : ∀ id n, m.mechanism? id = some n →
    (n.mechanism.family.isMarginal = true ↔ m.graph.isRoot id = true)
  supports : ∀ id n, m.mechanism? id = some n → n.mechanism.family.supports n.domain = true
  widths : ∀ id n, m.mechanism? id = some n →
    ∀ w ∈ n.mechanism.coefficientWidths, w = m.featureCount n.parents
  labels : ∀ id n, m.mechanism? id = some n → labelsMatch n = true
  scores : ∀ id, m.metadata.nodeScores.contains id = true ↔
    id ∈ m.graph.ids ∧ m.graph.isRoot id = false
  families : ∀ id, m.metadata.families.get? id =
    (m.mechanism? id).map fun n => n.mechanism.family.name

end Model

end CodeCausality
