import CodeCausality.Numeric.Scalar
import CodeCausality.Decimal.Notation
import CodeCausality.Program.Element

/-!
# Causal graphs

A causal graph is a list of nodes in the order they were given and a list of edges in increasing
order of (source, target), one edge a pair. It holds them in three forms, and each look-up uses one:

* the edges themselves, in which an edge is searched by halves (`edge?`);
* the position of each node by its id (`contains`, `node?`);
* the edges at each node, from either end (`parents`, `children`, `isRoot`).

The last two are the graph's `GraphIndex`, filled once from the nodes and the edges.

`CausalGraph.ofParts` (in `Graph/Construction`) is the only way in: it refuses repeated nodes,
unknown endpoints, weights that are not finite, and cycles.
-/

namespace CodeCausality

/-! ## 1. Edges -/

structure Edge (α : Type) where
  source : String
  target : String
  kind : EdgeKind
  weight : Option α

namespace Edge

variable {α : Type}

/-- Two edges with the same ends. -/
def samePair (a b : Edge α) : Bool := a.source == b.source && a.target == b.target

/-- The order by source, then by target. -/
def pairLE (a b : Edge α) : Bool :=
  decide (a.source < b.source) || (a.source == b.source && decide (a.target ≤ b.target))

/-- Whether an edge leads from one node to the other. -/
def joins (e : Edge α) (source target : String) : Bool := e.source == source && e.target == target

/-- Whether the pair of an edge comes before a pair. -/
def isBefore (e : Edge α) (source target : String) : Bool :=
  decide (e.source < source) || (e.source == source && decide (e.target < target))

/-- The edge of a pair, if it is among edges in increasing order: the one in the middle, or one of
the half that the pair lies in. Each of the at most `rounds` rounds leaves less than was there. -/
def search (source target : String) : Nat → List (Edge α) → Option (Edge α)
  | 0, _ => none
  | rounds + 1, es =>
    match es.drop (es.length / 2) with
    | [] => none
    | e :: above =>
      if e.joins source target then some e
      else if e.isBefore source target then search source target rounds above
      else search source target rounds (es.take (es.length / 2))

end Edge

/-! ## 2. Indices -/

/-- The position of each node, and the sources and the targets of the edges at each node, the last
edge first. -/
structure GraphIndex where
  positions : Dictionary Nat
  sources : Dictionary (List String)
  targets : Dictionary (List String)

namespace GraphIndex

/-- The sources of the edges to a node. -/
def sourcesAt (x : GraphIndex) (id : String) : List String := (x.sources.get? id).getD []

/-- The targets of the edges from a node. -/
def targetsAt (x : GraphIndex) (id : String) : List String := (x.targets.get? id).getD []

/-- The nodes, and no edge yet. -/
def ofNodes (nodes : List Element) : GraphIndex :=
  ⟨.ofList (nodes.zipIdx.map fun (n, i) => (n.id, i)), .empty, .empty⟩

/-- Adds an edge at both of its ends. -/
def connect {α : Type} (x : GraphIndex) (e : Edge α) : GraphIndex where
  positions := x.positions
  sources := x.sources.insert e.target (e.source :: x.sourcesAt e.target)
  targets := x.targets.insert e.source (e.target :: x.targetsAt e.source)

/-- The index of the nodes and the edges. -/
def ofParts {α : Type} (nodes : List Element) (edges : List (Edge α)) : GraphIndex :=
  edges.foldl connect (ofNodes nodes)

end GraphIndex

/-! ## 3. Graphs -/

structure CausalGraph (α : Type) where
  nodes : List Element
  edges : List (Edge α)
  index : GraphIndex
  index_eq : index = .ofParts nodes edges

namespace CausalGraph

variable {α : Type}

/-- The nodes and the edges with their index. -/
def of (nodes : List Element) (edges : List (Edge α)) : CausalGraph α :=
  ⟨nodes, edges, .ofParts nodes edges, rfl⟩

@[simp] theorem nodes_of (nodes : List Element) (edges : List (Edge α)) :
    (of nodes edges).nodes = nodes := rfl

@[simp] theorem edges_of (nodes : List Element) (edges : List (Edge α)) :
    (of nodes edges).edges = edges := rfl

/-- The index follows from nodes and edges. -/
@[ext] theorem ext {g h : CausalGraph α} (hnodes : g.nodes = h.nodes) (hedges : g.edges = h.edges) :
    g = h := by
  obtain ⟨nodes, edges, index, rfl⟩ := g
  obtain ⟨nodes', edges', index', rfl⟩ := h
  obtain rfl : nodes = nodes' := hnodes
  obtain rfl : edges = edges' := hedges
  rfl

def ids (g : CausalGraph α) : List String := g.nodes.map (·.id)

def contains (g : CausalGraph α) (id : String) : Bool := g.index.positions.contains id

def node? (g : CausalGraph α) (id : String) : Option Element :=
  (g.index.positions.get? id).bind fun i => g.nodes[i]?

def edge? (g : CausalGraph α) (source target : String) : Option (Edge α) :=
  Edge.search source target g.edges.length g.edges

/-- Direct causes, in increasing order. -/
def parents (g : CausalGraph α) (id : String) : List String := sortedIds (g.index.sourcesAt id)

/-- Direct effects, in increasing order. -/
def children (g : CausalGraph α) (id : String) : List String := sortedIds (g.index.targetsAt id)

/-- A node without causes. -/
def isRoot (g : CausalGraph α) (id : String) : Bool :=
  g.contains id && (g.index.sourcesAt id).isEmpty

end CausalGraph

/-! ## 4. Why a graph is refused -/

inductive GraphError (α : Type) where
  | emptyInput
  | duplicateElement (id : String)
  | unknownEndpoint (source target missing : String)
  | nonFiniteWeight (source target : String) (weight : α)
  | emptyAfterPruning
  | cycleDetected (cycles : List (List String))

/-- The components of a cyclic graph, each in brackets. -/
def cyclesText (cycles : List (List String)) : String :=
  ", ".intercalate (cycles.map fun c => "[" ++ " -> ".intercalate c ++ "]")

def GraphError.message : GraphError Float → String
  | emptyInput => "no program elements supplied"
  | duplicateElement id => s!"duplicate element id: {id}"
  | unknownEndpoint s t missing => s!"relation {s} -> {t} references unknown element {missing}"
  | nonFiniteWeight s t w =>
    s!"relation {s} -> {t} has non-finite weight " ++ Decimal.plain w
  | emptyAfterPruning => "every element was pruned as non-causal"
  | cycleDetected cycles => "cycle detected in causal graph: " ++ cyclesText cycles

end CodeCausality
