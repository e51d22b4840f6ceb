import CodeCausality.Graph.Order
import CodeCausality.Graph.Reach

/-!
# Building a graph from its parts

`CausalGraph.ofParts` keeps the nodes' order, keeps of the edges of one pair the first, and refuses
what is no causal graph. The checks come in this order: no nodes, a repeated node, then the kept
edges one after another (an unknown source, an unknown target, a weight that is not finite), and
last the cycles.

`CausalGraph.WellFormed` says what an accepted graph is without mentioning the construction.
-/

namespace CodeCausality

/-- The first id that occurs before in the list. -/
def firstRepeated? (seen : List String) : List String → Option String
  | [] => none
  | id :: rest => if seen.contains id then some id else firstRepeated? (id :: seen) rest

namespace Edge

variable {α : Type}

/-- Keeps of neighbouring edges with the same ends the first. -/
def dropRepeated : List (Edge α) → List (Edge α)
  | [] => []
  | e :: rest => go e rest
where
  go (e : Edge α) : List (Edge α) → List (Edge α)
    | [] => [e]
    | d :: rest => if e.samePair d then go e rest else e :: go d rest

/-- The first edge of each pair, in increasing order of the pairs. -/
def canonical (es : List (Edge α)) : List (Edge α) := dropRepeated (es.mergeSort pairLE)

/-- Whether both ends are known and the weight is finite. -/
def check [Scalar α] (known : String → Bool) (source target : String) (weight : Option α) :
    Except (GraphError α) Unit :=
  if !known source then .error (.unknownEndpoint source target source)
  else if !known target then .error (.unknownEndpoint source target target)
  else match weight with
    | some w => if Scalar.isFinite w then .ok () else .error (.nonFiniteWeight source target w)
    | none => .ok ()

end Edge

/-- Runs the check on each member until one fails. -/
def checkAll {β ε : Type} (check : β → Except ε Unit) : List β → Except ε Unit
  | [] => .ok ()
  | b :: rest =>
    match check b with
    | .ok () => checkAll check rest
    | .error e => .error e

namespace CausalGraph

variable {α : Type}

/-- The graph of the nodes and edges, or why there is none. -/
def ofParts [Scalar α] (nodes : List Element) (edges : List (Edge α)) :
    Except (GraphError α) (CausalGraph α) :=
  if nodes.isEmpty then .error .emptyInput
  else match firstRepeated? [] (nodes.map (·.id)) with
    | some id => .error (.duplicateElement id)
    | none =>
      let g : CausalGraph α := .of nodes (Edge.canonical edges)
      match checkAll (fun e => Edge.check g.contains e.source e.target e.weight) g.edges with
      | .error e => .error e
      | .ok () =>
        if g.topologicalOrder.length = nodes.length then .ok g
        else .error (.cycleDetected g.cyclicComponents)

/-! ## What an accepted graph is -/

/-- A walk along edges from one node to another, of at least one edge. -/
inductive Reaches (g : CausalGraph α) : String → String → Prop where
  | edge {e : Edge α} (h : e ∈ g.edges) : Reaches g e.source e.target
  | step {e : Edge α} {v : String} (h : e ∈ g.edges) (rest : Reaches g e.target v) :
      Reaches g e.source v

/-- The conditions on a causal graph: nodes are there and differ, edges increase strictly, join
nodes of the graph, have finite weights, and no node reaches itself. -/
structure WellFormed [Scalar α] (g : CausalGraph α) : Prop where
  nonempty : g.nodes ≠ []
  distinctNodes : g.ids.Nodup
  increasing : g.edges.Pairwise fun a b =>
    a.source < b.source ∨ (a.source = b.source ∧ a.target < b.target)
  knownEnds : ∀ e ∈ g.edges, e.source ∈ g.ids ∧ e.target ∈ g.ids
  finiteWeights : ∀ e ∈ g.edges, ∀ w, e.weight = some w → Scalar.isFinite w = true
  acyclic : ∀ v, ¬ g.Reaches v v

end CausalGraph

end CodeCausality
