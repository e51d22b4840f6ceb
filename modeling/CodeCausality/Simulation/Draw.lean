import CodeCausality.Graph.Order
import CodeCausality.Model.Basic

/-!
# Drawing from a model

A draw gives every node a value, causes before effects. Each (draw, node) has a stream of noise of
its own: a draw's seed comes from the seed of the query and the number of the draw (`streamSeed`),
the stream within it is the node's position in the topological order. A clamped node takes its value
and uses no noise, so clamping it shifts the noise of no other node.
-/

namespace CodeCausality

namespace Simulation

/-! ## 1. Seeds -/

/-- Mixes a seed with an index; for a fixed seed, and for a fixed index, a permutation of words. -/
def streamSeed (seed index : UInt64) : UInt64 :=
  let z := seed ^^^ (index * 0x9e3779b97f4a7c15)
  let z := (z ^^^ (z >>> 30)) * 0xbf58476d1ce4e5b9
  let z := (z ^^^ (z >>> 27)) * 0x94d049bb133111eb
  z ^^^ (z >>> 31)

/-! ## 2. Plans -/

/-- One node of a plan: its mechanism, the positions and domains of its parents, and the value it is
clamped to, if any. -/
structure Step (α : Type) where
  mechanism : Mechanism α
  parents : List (Nat × Domain)
  clamp : Option α

/-- Why a model cannot be planned. -/
inductive PlanFault where
  | unfitted (node : String)
  | unusableParent (node parent : String)
  deriving Repr, DecidableEq

section Plan

variable {α : Type}

/-- Position and domain of a parent, which must stand before position `position`. -/
def planParent (m : Model α) (order : List String) (position : Nat) (id parent : String) :
    Except PlanFault (Nat × Domain) :=
  match order.idxOf? parent, m.mechanism? parent with
  | some i, some n => if i < position then .ok (i, n.domain) else .error (.unusableParent id parent)
  | _, _ => .error (.unusableParent id parent)

def planStep (m : Model α) (order : List String) (clamps : List (String × α)) (position : Nat)
    (id : String) : Except PlanFault (Step α) :=
  match m.mechanism? id with
  | none => .error (.unfitted id)
  | some n =>
    (n.parents.mapM (planParent m order position id)).map fun parents =>
      ⟨n.mechanism, parents, clamps.lookup id⟩

/-- The nodes of the order with the values that some of them are clamped to. -/
def plan (m : Model α) (order : List String) (clamps : List (String × α)) :
    Except PlanFault (List (Step α)) :=
  order.zipIdx.mapM fun (id, position) => planStep m order clamps position id

end Plan

/-! ## 3. Draws -/

section Draws

variable {α : Type} [Scalar α] (ρ : Type) [Noise ρ α]

/-- What a draw carries from node to node: the values so far, and the buffer in which the features of
a node's parents are gathered. A clamped node leaves the buffer as it is. -/
structure DrawState (α : Type) where
  values : List α
  buffer : List α

/-- The features of a step's parents, one parent after another; the buffer is emptied first. -/
def gather (step : Step α) (values : List α) : List α :=
  step.parents.foldl (fun buffer (i, domain) => buffer ++ domain.features (values.getD i 0)) []

/-- Adds the value of the node at a position to those of the nodes before it. -/
def DrawState.advance (seed : UInt64) (s : DrawState α) (entry : Step α × Nat) : DrawState α :=
  let (step, position) := entry
  match step.clamp with
  | some v => { s with values := s.values ++ [v] }
  | none =>
    let buffer := gather step s.values
    let noise : ρ := Noise.start seed (UInt64.ofNat position)
    ⟨s.values ++ [(step.mechanism.sample buffer noise).1], buffer⟩

/-- The values of all nodes in one draw. -/
def drawOnce (steps : List (Step α)) (seed : UInt64) : List α :=
  (steps.zipIdx.foldl (DrawState.advance ρ seed) ⟨[], []⟩).values

/-- The values of all nodes in each of `n` draws. -/
def draws (steps : List (Step α)) (n : Nat) (seed : UInt64) : List (List α) :=
  (List.range n).map fun i => drawOnce ρ steps (streamSeed seed (UInt64.ofNat i))

/-- The draws by node: one column for each position of the plan. -/
structure Samples (α : Type) where
  columns : List (List α)

def Samples.column (s : Samples α) (position : Nat) : List α := s.columns.getD position []

def simulate (steps : List (Step α)) (n : Nat) (seed : UInt64) : Samples α :=
  let rows := draws ρ steps n seed
  ⟨(List.range steps.length).map fun position => rows.map fun row => row.getD position 0⟩

end Draws

end Simulation

end CodeCausality
