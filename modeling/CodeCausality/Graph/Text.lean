import CodeCausality.Graph.Construction
import CodeCausality.Json.Shape
import CodeCausality.Json.Printer

/-!
# Graphs as JSON

A graph is handed on as its parts, without the index, and taken back by checking them again. The
parts are written as an object of the nodes and the edges; a node without attributes and an edge
without weight omit that member.
-/

namespace CodeCausality

/-! ## 1. Parts -/

/-- Nodes and edges that are not checked, or not any more. -/
structure GraphParts (α : Type := Float) where
  nodes : List Element
  edges : List (Edge α)

def CausalGraph.parts {α : Type} (g : CausalGraph α) : GraphParts α := ⟨g.nodes, g.edges⟩

def GraphParts.toGraph {α : Type} [Scalar α] (p : GraphParts α) :
    Except (GraphError α) (CausalGraph α) :=
  CausalGraph.ofParts p.nodes p.edges

/-! ## 2. Writing -/

namespace CausalGraph

def nodeJson (n : Element) : Json :=
  .object ([("id", .text n.id), ("kind", .text n.kind.name)] ++
    (if n.attributes.isEmpty then []
     else [("attributes", .object (n.attributes.entries.map fun a => (a.1, .text a.2)))]))

def edgeJson (e : Edge Float) : Json :=
  .object ([("source", .text e.source), ("target", .text e.target),
      ("edge_type", .text e.kind.name)] ++
    match e.weight with
    | some w => [("weight", Json.ofFloat w)]
    | none => [])

def partsJson (p : GraphParts) : Json :=
  .object [("nodes", .array (p.nodes.map nodeJson)), ("edges", .array (p.edges.map edgeJson))]

def toJson (g : CausalGraph Float) : Json := partsJson g.parts

end CausalGraph

/-! ## 3. Reading -/

namespace GraphParts

open Json

def attributes? (j : Json) : Option (Dictionary String) := asDictionary? asString? j

def node? (j : Json) : Option Element := do
  match ← fields? [⟨"id", .required⟩, ⟨"kind", .required⟩, ⟨"attributes", .defaulted⟩] j with
  | [id, kind, attributes] =>
    let id ← requiredField? asString? id
    let kind ← requiredField? asTag? kind
    let kind ← ElementKind.ofName? kind
    let attributes ← defaultedField? attributes? Dictionary.empty attributes
    return ⟨id, kind, attributes⟩
  | _ => none

def edge? (j : Json) : Option (Edge Float) := do
  match ← fields? [⟨"source", .required⟩, ⟨"target", .required⟩, ⟨"edge_type", .required⟩,
      ⟨"weight", .defaulted⟩] j with
  | [source, target, kind, weight] =>
    let source ← requiredField? asString? source
    let target ← requiredField? asString? target
    let kind ← requiredField? asTag? kind
    let kind ← EdgeKind.ofName? kind
    let weight ← optionalField? asFloat? weight
    return ⟨source, target, kind, weight⟩
  | _ => none

def ofJson? (j : Json) : Option GraphParts := do
  match ← fields? [⟨"nodes", .required⟩, ⟨"edges", .required⟩] j with
  | [nodes, edges] =>
    let nodes ← requiredField? (asList? node?) nodes
    let edges ← requiredField? (asList? edge?) edges
    return ⟨nodes, edges⟩
  | _ => none

end GraphParts

end CodeCausality
