import CodeCausality.Graph.Basic

/-!
# Causes before effects

The topological order of a graph is built by repetition: of the nodes still pending, the first (in
the order the nodes were given) without a pending cause comes next. It ends when no pending node is
ready; what is then still pending lies on a cycle or behind one. The order depends on the nodes'
order and the set of edges only.
-/

namespace CodeCausality

namespace CausalGraph

variable {α : Type}

/-- Whether no pending node is a cause of `id`. -/
def isReady (g : CausalGraph α) (pending : List String) (id : String) : Bool :=
  !g.edges.any fun e => e.target == id && pending.contains e.source

/-- Takes ready nodes from `pending`, the first one each time, at most `steps` times. -/
def takeReady (g : CausalGraph α) : Nat → List String → List String
  | 0, _ => []
  | steps + 1, pending =>
    match pending.find? (g.isReady pending) with
    | none => []
    | some id => id :: g.takeReady steps (pending.erase id)

/-- The nodes, causes before effects; incomplete exactly if the graph has a cycle. -/
def topologicalOrder (g : CausalGraph α) : List String := g.takeReady g.nodes.length g.ids

end CausalGraph

end CodeCausality
