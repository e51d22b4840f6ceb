import CodeCausality.Graph.Build

/-!
# Sinks by counting

Pruning need not look at all edges again in each round. Every element has a counter, at first the
number of the edges that leave it. A round removes the pure side effects whose counter is zero, and
lowers the counter of the source of each edge that leads to one of them.

* `outDegrees` counts, `lower` takes one away and refuses to go below zero;
* `countedPrune` runs rounds until one removes nothing. A bound on the rounds that is reached before
  is a fault, as is a counter that would go below zero.
-/

namespace CodeCausality

/-- Why counting fails. -/
inductive CountFault where
  | underflow (id : String)
  | unfinished
  deriving Repr, DecidableEq

/-- The counter of an element; zero if it has none. -/
def degree (counters : Dictionary Nat) (id : String) : Nat := (counters.get? id).getD 0

/-- How many edges leave each element. -/
def outDegrees {α : Type} (edges : List (Edge α)) : Dictionary Nat :=
  edges.foldl (fun counters e => counters.insert e.source (degree counters e.source + 1)) .empty

/-- Lowers the counter of an element, if it has one. -/
def lower (counters : Dictionary Nat) (id : String) : Except CountFault (Dictionary Nat) :=
  match counters.get? id with
  | none => .ok counters
  | some 0 => .error (.underflow id)
  | some (n + 1) => .ok (counters.insert id n)

/-- Lowers the counter of each member of the list. -/
def lowerAll (counters : Dictionary Nat) : List String → Except CountFault (Dictionary Nat)
  | [] => .ok counters
  | id :: rest =>
    match lower counters id with
    | .ok counters => lowerAll counters rest
    | .error f => .error f

/-- The elements not yet removed that are pure side effects and whose counter is zero. -/
def countedSinks (isPure : Element → Bool) (nodes : List Element) (counters : Dictionary Nat)
    (removed : List String) : List String :=
  (nodes.filter fun n =>
    !removed.contains n.id && degree counters n.id == 0 && isPure n).map (·.id)

section Rounds

variable {α : Type} (isPure : Element → Bool) (nodes : List Element) (edges : List (Edge α))

/-- Removes sinks, round by round, until there are none. -/
def countedRounds : Nat → Dictionary Nat → List String → Except CountFault (List String)
  | 0, _, _ => .error .unfinished
  | rounds + 1, counters, removed =>
    match countedSinks isPure nodes counters removed with
    | [] => .ok removed
    | sinks =>
      match lowerAll counters ((edges.filter fun e => sinks.contains e.target).map (·.source)) with
      | .ok counters => countedRounds rounds counters (removed ++ sinks)
      | .error f => .error f

/-- The ids of all elements that pruning removes, found by counting in fewer than `rounds` rounds
that remove something. -/
def countedPrune (rounds : Nat) : Except CountFault (List String) :=
  countedRounds isPure nodes edges rounds (outDegrees edges) []

end Rounds

end CodeCausality
