import CodeCausality.Graph.Paths
import CodeCausality.Json.Printer

/-!
# Answers about paths as JSON
-/

namespace CodeCausality

/-- The paths between two nodes, with these nodes. -/
structure PathAnswer where
  source : String
  target : String
  paths : List (List String)
  deriving Repr, DecidableEq

def PathAnswer.toJson (a : PathAnswer) : Json :=
  .object [("source", .text a.source), ("target", .text a.target),
    ("paths", .array (a.paths.map Json.ofStrings))]

/-- The answer to a query for the first `limit` paths. -/
def CausalGraph.pathAnswer {α : Type} (g : CausalGraph α) (source target : String) (limit : Nat) :
    Except PathError PathAnswer :=
  (g.paths source target limit).map fun ps => ⟨source, target, ps⟩

end CodeCausality
