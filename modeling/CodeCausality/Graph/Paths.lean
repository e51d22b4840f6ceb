import CodeCausality.Graph.Order
import CodeCausality.Graph.Reach

/-!
# Causal paths and root causes

`CausalGraph.paths` lists the directed paths between two nodes, shortest first and in the order of
their ids among equally long ones, up to a limit. The lengths are tried in turn; within one length
a prefix is extended only if the number of edges that is left lies between those of a shortest and
of a longest path to the target (`PathSearch.fits`).
-/

namespace CodeCausality

/-- A path query names a node that the graph does not have. -/
inductive PathError where
  | nodeNotFound (node : String)
  deriving Repr, DecidableEq

def PathError.message : PathError → String
  | nodeNotFound node => s!"node {node} is not in the causal graph"

/-- How many paths are listed unless a query says otherwise. -/
def defaultPathLimit : Nat := 10

/-! ## 1. Distances to a target -/

/-- Edge counts of a shortest and of a longest path to the target. -/
structure Distance where
  shortest : Nat
  longest : Nat
  deriving Repr, DecidableEq

/-- One edge more. -/
def Distance.succ (d : Distance) : Distance := ⟨d.shortest + 1, d.longest + 1⟩

/-- Covers the paths of both. -/
def Distance.join (a b : Distance) : Distance :=
  ⟨min a.shortest b.shortest, max a.longest b.longest⟩

/-- The distance over any of the next nodes, given theirs. -/
def Distance.over (known : List (String × Distance)) (next : List String) : Option Distance :=
  match next.filterMap fun c => known.lookup c with
  | [] => none
  | d :: ds => some (ds.foldl Distance.join d).succ

/-- The distances of all nodes of the order from which `target` is reached; causes come before
effects in the order, so the distances of a node's effects are known first. -/
def distancesTo (children : String → List String) (target : String) (order : List String) :
    List (String × Distance) :=
  order.foldr
    (fun v known =>
      if v = target then (v, ⟨0, 0⟩) :: known
      else match Distance.over known (children v) with
        | some d => (v, d) :: known
        | none => known)
    []

/-! ## 2. The search -/

structure PathSearch where
  target : String
  children : String → List String
  distances : List (String × Distance)

namespace PathSearch

/-- Whether, by the distances, a path from `v` to the target may have exactly `remaining` edges. -/
def fits (s : PathSearch) (v : String) (remaining : Nat) : Bool :=
  match s.distances.lookup v with
  | some d => decide (d.shortest ≤ remaining) && decide (remaining ≤ d.longest)
  | none => false

/-- The first `limit` paths of exactly `remaining` edges from `v` to the target, in the order of
their ids. -/
def extend (s : PathSearch) : Nat → Nat → String → List (List String)
  | 0, limit, v => if v = s.target ∧ 0 < limit then [[v]] else []
  | remaining + 1, limit, v =>
    (s.children v).foldl
      (fun found c =>
        if found.length < limit ∧ s.fits c remaining then
          found ++ (s.extend remaining (limit - found.length) c).map (v :: ·)
        else found)
      []

/-- The first `limit` paths of one of the lengths, the lengths in turn. -/
def lengths (s : PathSearch) (v : String) : Nat → List Nat → List (List String)
  | _, [] => []
  | limit, n :: rest =>
    let found := s.extend n limit v
    if limit ≤ found.length then found
    else found ++ s.lengths v (limit - found.length) rest

end PathSearch

namespace CausalGraph

variable {α : Type}

def search (g : CausalGraph α) (target : String) : PathSearch :=
  ⟨target, g.children, distancesTo g.children target g.topologicalOrder⟩

/-- The first `limit` directed paths from `source` to `target`. -/
def paths (g : CausalGraph α) (source target : String) (limit : Nat) :
    Except PathError (List (List String)) :=
  if !g.contains source then .error (.nodeNotFound source)
  else if !g.contains target then .error (.nodeNotFound target)
  else if limit = 0 then .ok []
  else
    let s := g.search target
    match s.distances.lookup source with
    | none => .ok []
    | some d =>
      .ok (s.lengths source limit (List.range' d.shortest (d.longest + 1 - d.shortest)))

/-- The roots that cause the node; a root is its own cause. -/
def rootCauses (g : CausalGraph α) (id : String) : Except PathError (List String) :=
  if !g.contains id then .error (.nodeNotFound id)
  else if g.isRoot id then .ok [id]
  else .ok ((g.ancestors id).filter g.isRoot)

/-! ## 3. All paths, said without the search -/

/-- A list of ids in which each is an effect of its predecessor. -/
def IsWalk (g : CausalGraph α) : List String → Prop
  | [] => True
  | [v] => v ∈ g.ids
  | u :: v :: rest => (∃ e ∈ g.edges, e.source = u ∧ e.target = v) ∧ IsWalk g (v :: rest)

/-- A directed path without repeated nodes between two nodes. -/
def IsPath (g : CausalGraph α) (source target : String) (p : List String) : Prop :=
  g.IsWalk p ∧ p.Nodup ∧ p.head? = some source ∧ p.getLast? = some target

/-- Shorter paths first; among equally long ones the order of the ids. -/
def pathLE (p q : List String) : Bool :=
  decide (p.length < q.length) || (p.length == q.length && idsLE p q)

end CausalGraph

end CodeCausality
