import CodeCausality.Graph.Dot

/-!
# Layers filled in one pass

The nodes are placed in topological order. Each goes to the end of the layer of its depth; where there
are too few layers yet, empty ones are added up to it.
-/

namespace CodeCausality

namespace Dot

/-- Puts a node at the end of a layer, after empty layers up to this one where it is missing. -/
def place (layers : List (List String)) (d : Nat) (id : String) : List (List String) :=
  (layers ++ List.replicate (d + 1 - layers.length) []).modify d (· ++ [id])

/-- The depths known so far, latest first, and the layers filled so far. -/
structure Filling where
  depths : List (String × Nat)
  layers : List (List String)

namespace Filling

def empty : Filling := ⟨[], []⟩

/-- Places the next node. -/
def step {α : Type} (g : CausalGraph α) (f : Filling) (id : String) : Filling :=
  let d := depthOf f.depths (g.parents id)
  ⟨(id, d) :: f.depths, place f.layers d id⟩

end Filling

def filledLayers {α : Type} (g : CausalGraph α) : List (List String) :=
  (g.topologicalOrder.foldl (Filling.step g) .empty).layers

end Dot

end CodeCausality
