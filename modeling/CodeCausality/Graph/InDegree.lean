import CodeCausality.Graph.Order
import CodeCausality.Graph.OutDegree

/-!
# The topological order by counting

A pending cause need not be searched for at each step. Every node has a counter, at first the number
of the edges that lead to it, and the positions of the nodes whose counter is zero are ready. The
least of them comes next: the counters of its effects are lowered, one for each edge, and an effect
whose counter becomes zero is ready too.

* `Countdown` holds the counters and the ready positions; `lower` lowers one counter;
* `countedOrder` takes ready nodes until there are none. A bound on the rounds that is reached before
  is a fault, as is a counter that would go below zero.
-/

namespace CodeCausality

/-- The counters of the nodes, and the positions of those that are ready. -/
structure Countdown where
  counters : Dictionary Nat
  ready : List Nat

namespace Countdown

/-- Lowers the counter of a node, which is ready once it is zero. -/
def lower (position : String → Nat) (c : Countdown) (id : String) : Except CountFault Countdown :=
  match CodeCausality.lower c.counters id with
  | .error f => .error f
  | .ok counters =>
    .ok ⟨counters, if degree counters id = 0 then position id :: c.ready else c.ready⟩

/-- Lowers the counter of each member of the list. -/
def lowerAll (position : String → Nat) (c : Countdown) : List String → Except CountFault Countdown
  | [] => .ok c
  | id :: rest =>
    match c.lower position id with
    | .error f => .error f
    | .ok c => lowerAll position c rest

end Countdown

namespace CausalGraph

variable {α : Type}

/-- How many edges lead to each node. -/
def inDegrees (g : CausalGraph α) : Dictionary Nat :=
  .ofList (g.ids.map fun id => (id, (g.index.sourcesAt id).length))

/-- The positions of the nodes that no edge leads to are ready at first. -/
def countdown (g : CausalGraph α) : Countdown where
  counters := g.inDegrees
  ready := (List.range g.nodes.length).filter fun i =>
    degree g.inDegrees (g.ids.getD i "") == 0

/-- Takes ready nodes, that of the least position each time. -/
def countedTake (g : CausalGraph α) : Nat → Countdown → Except CountFault (List String)
  | 0, _ => .error .unfinished
  | rounds + 1, c =>
    match c.ready.min? with
    | none => .ok []
    | some i =>
      let id := g.ids.getD i ""
      match (Countdown.mk c.counters (c.ready.erase i)).lowerAll g.ids.idxOf
          (g.index.targetsAt id) with
      | .error f => .error f
      | .ok c => (g.countedTake rounds c).map (id :: ·)

/-- The nodes, causes before effects, found by counting in fewer than `rounds` rounds that take
one. -/
def countedOrder (g : CausalGraph α) (rounds : Nat) : Except CountFault (List String) :=
  g.countedTake rounds g.countdown

end CausalGraph

end CodeCausality
