import CodeCausality.Graph.Basic

/-!
# Reachability

Two searches say what a node reaches by at least one step:

* `reached step n start` -- round by round; each of the at most `n` rounds adds what one more step
  reaches. The components of a cyclic graph are read off it;
* `Frontier.search next n start` -- with a stack of the nodes that are marked but not looked at yet;
  each of the at most `n` rounds takes one node off the stack. Descendants and ancestors are what it
  finds.

As many rounds as there are nodes are enough for both.
-/

namespace CodeCausality

/-! ## 1. Rounds -/

/-- Adds, round by round, what one step from the ids seen so far reaches. -/
def spread (step : String → List String) : Nat → List String → List String
  | 0, seen => seen
  | rounds + 1, seen =>
    let fresh := distinct ((seen.flatMap step).filter fun id => !seen.contains id)
    if fresh.isEmpty then seen else spread step rounds (seen ++ fresh)

/-- What at least one step from `start` reaches. -/
def reached (step : String → List String) (rounds : Nat) (start : String) : List String :=
  spread step rounds (distinct (step start))

/-! ## 2. A stack -/

/-- The nodes still to be looked at, the nodes marked, and the nodes found so far: those marked on
the way, which leaves the start out. -/
structure Frontier where
  stack : List String
  seen : List String
  found : List String

namespace Frontier

/-- Only the start is marked. -/
def start (id : String) : Frontier := ⟨[id], [id], []⟩

/-- A node that is not marked yet is marked, found and put on the stack. -/
def visit (f : Frontier) (id : String) : Frontier :=
  if f.seen.contains id then f else ⟨id :: f.stack, f.seen ++ [id], f.found ++ [id]⟩

/-- Takes one node after another off the stack and visits the nodes next to it. -/
def run (next : String → List String) : Nat → Frontier → Frontier
  | 0, f => f
  | rounds + 1, f =>
    match f.stack with
    | [] => f
    | current :: stack => run next rounds ((next current).foldl visit { f with stack })

/-- What is found from the start, at most as many nodes looked at as there are rounds. -/
def search (next : String → List String) (rounds : Nat) (id : String) : List String :=
  (run next rounds (start id)).found

end Frontier

/-! ## 3. Nodes above and below a node -/

namespace CausalGraph

variable {α : Type}

/-- What lies beyond the node in the direction that `next` goes; the node itself is left out. -/
def reachable (g : CausalGraph α) (next : String → List String) (id : String) : List String :=
  if g.contains id then sortedIds (Frontier.search next g.nodes.length id) else []

/-- What the node causes, directly or through others; the node itself is left out. -/
def descendants (g : CausalGraph α) (id : String) : List String := g.reachable g.children id

/-- What causes the node, directly or through others; the node itself is left out. -/
def ancestors (g : CausalGraph α) (id : String) : List String := g.reachable g.parents id

/-! ## 4. Cycles -/

/-- The node and all nodes that it reaches and that reach it, in the order of the nodes. -/
def componentOf (g : CausalGraph α) (id : String) : List String :=
  let below := reached g.children g.nodes.length id
  g.ids.filter fun u =>
    u == id || (below.contains u && (reached g.children g.nodes.length u).contains id)

/-- The strongly connected components, each where its first node stands. -/
def components (g : CausalGraph α) : List (List String) :=
  (g.ids.filter fun id => (g.componentOf id).head? == some id).map g.componentOf

/-- Whether a component has several nodes, or one with an edge to itself. -/
def loops (g : CausalGraph α) (c : List String) : Bool :=
  decide (1 < c.length) || c.head?.any fun id => (g.children id).contains id

/-- The order of lists of ids, member by member. -/
def idsLE : List String → List String → Bool
  | [], _ => true
  | _ :: _, [] => false
  | a :: as, b :: bs => decide (a < b) || (a == b && idsLE as bs)

/-- The components that hold a cycle, each sorted, in increasing order. -/
def cyclicComponents (g : CausalGraph α) : List (List String) :=
  ((g.components.filter g.loops).map sortIds).mergeSort idsLE

end CausalGraph

end CodeCausality
