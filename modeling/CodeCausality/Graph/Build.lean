import CodeCausality.Graph.Construction
import CodeCausality.Program.SideEffect

/-!
# From a program to its causal graph

Relations of one pair of elements become one edge, of the strongest kind and the largest weight
that was given; imports and declarations become none. Then pure side effects that nothing depends
on are removed, as long as removing one exposes another. What is left must be a causal graph.

* `Edge.merge` merges one edge into those of the other pairs, `Folding` folds all relations into
  edges and counts those that make no new one: the result has one edge a pair, and as a set it does
  not depend on the order of the relations;
* `prune` is the set of removed elements;
* `build` puts them together and reports what it did.
-/

namespace CodeCausality

/-! ## 1. One edge a pair -/

/-- The larger of two weights, where both are given. -/
def largerWeight {α : Type} [Scalar α] : Option α → Option α → Option α
  | some a, some b => some (Scalar.maxNum a b)
  | some a, none => some a
  | none, b => b

/-- Folds an edge into a list with at most one edge a pair. -/
def Edge.merge {α : Type} [Scalar α] (e : Edge α) : List (Edge α) → List (Edge α)
  | [] => [e]
  | d :: rest =>
    if d.samePair e then
      ⟨d.source, d.target, d.kind.stronger e.kind, largerWeight d.weight e.weight⟩ :: rest
    else d :: e.merge rest

namespace Relation

variable {α : Type}

/-- A control dependency as a relation. -/
def ofControl (c : ControlDependency) : Relation α :=
  ⟨c.condition, c.dependent, .causal .controlFlow, none⟩

/-- The edge that the relation contributes, if any. -/
def edge? (r : Relation α) : Option (Edge α) :=
  r.kind.edgeKind?.map fun k => ⟨r.source, r.target, k, r.weight⟩

end Relation

/-- What has been made of the relations so far. -/
structure Folding (α : Type) where
  edges : List (Edge α)
  /-- Relations folded into an edge that was there already. -/
  merged : Nat
  /-- Imports and declarations. -/
  nonCausal : Nat

namespace Folding

variable {α : Type} [Scalar α]

def start : Folding α := ⟨[], 0, 0⟩

/-- Folds in one more relation. -/
def add (f : Folding α) (r : Relation α) : Folding α :=
  match r.edge? with
  | none => { f with nonCausal := f.nonCausal + 1 }
  | some e => {
      f with
      edges := e.merge f.edges
      merged := if f.edges.any (·.samePair e) then f.merged + 1 else f.merged }

def ofRelations (rs : List (Relation α)) : Folding α := rs.foldl add start

end Folding

/-! ## 2. Removing side effects -/

/-- The elements not yet removed that are pure side effects without a remaining effect of
their own. -/
def exposedSinks {α : Type} (isPure : Element → Bool) (nodes : List Element) (edges : List (Edge α))
    (removed : List String) : List String :=
  (nodes.filter fun n =>
    !removed.contains n.id
      && !(edges.any fun e => e.source == n.id && !removed.contains e.target)
      && isPure n).map (·.id)

/-- Removes exposed sinks, round by round. -/
def pruneRounds {α : Type} (isPure : Element → Bool) (nodes : List Element) (edges : List (Edge α)) :
    Nat → List String → List String
  | 0, removed => removed
  | rounds + 1, removed =>
    match exposedSinks isPure nodes edges removed with
    | [] => removed
    | sinks => pruneRounds isPure nodes edges rounds (removed ++ sinks)

/-- The ids of all elements that pruning removes. Each round but the last removes at least one. -/
def prune {α : Type} (isPure : Element → Bool) (nodes : List Element) (edges : List (Edge α)) :
    List String :=
  pruneRounds isPure nodes edges (nodes.length + 1) []

/-! ## 3. Building -/

/-- What the builder did besides building the graph. -/
structure BuildReport where
  /-- Relations folded into an edge that was there already. -/
  merged : Nat
  /-- Imports and declarations. -/
  nonCausal : Nat
  /-- The removed side effects, in increasing order. -/
  pruned : List String
  deriving Repr, DecidableEq

/-- The graph of a program and the report of its building, or why there is no graph. -/
def build {α : Type} [Scalar α] (isPure : Element → Bool) (elements : List Element)
    (relations : List (Relation α)) (controls : List ControlDependency) :
    Except (GraphError α) (CausalGraph α × BuildReport) :=
  if elements.isEmpty then .error .emptyInput
  else match firstRepeated? [] (elements.map (·.id)) with
    | some id => .error (.duplicateElement id)
    | none =>
      let all := relations ++ controls.map Relation.ofControl
      let known (id : String) : Bool := elements.any fun n => n.id == id
      match checkAll (fun r => Edge.check known r.source r.target r.weight) all with
      | .error e => .error e
      | .ok () =>
        let folding := Folding.ofRelations all
        let removed := prune isPure elements folding.edges
        let nodes := elements.filter fun n => !removed.contains n.id
        if nodes.isEmpty then .error .emptyAfterPruning
        else
          (CausalGraph.ofParts nodes (folding.edges.filter fun e => !removed.contains e.target)).map
            fun g => (g, {
              merged := folding.merged
              nonCausal := folding.nonCausal
              pruned := sortIds removed })

end CodeCausality
