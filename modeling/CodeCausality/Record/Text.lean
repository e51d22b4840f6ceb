import CodeCausality.Json.Printer
import CodeCausality.Json.Reader
import CodeCausality.Json.Shape
import CodeCausality.Graph.Text
import CodeCausality.Record.Basic

/-!
# Records as JSON

A record is written with all its members. In reading, attributes, labels and node scores may be
missing, and an edge's weight may be `null` or missing; every other member must be there. The
members are the same whatever the numbers of a record are, so a record is read by a reader of
numbers; in texts the numbers are floats.
-/

namespace CodeCausality

namespace Record

open Json

/-! ## 1. Writing -/

def dictionaryJson {β : Type} (f : β → Json) (d : Dictionary β) : Json :=
  .object (d.entries.map fun e => (e.1, f e.2))

def nodeJson (n : Element) : Json :=
  .object [("id", .text n.id), ("kind", .text n.kind.name),
    ("attributes", dictionaryJson .text n.attributes)]

def edgeJson (e : Edge Float) : Json :=
  .object [("source", .text e.source), ("target", .text e.target),
    ("edge_type", .text e.kind.name), ("weight", ofOption ofFloat e.weight)]

def mechanismJson (m : MechanismRecord Float) : Json :=
  .object [("mechanism_type", .text m.family), ("domain", .text m.domain),
    ("parents", ofStrings m.parents), ("labels", ofStrings m.labels),
    ("parameters", dictionaryJson (fun xs => .array (xs.map ofFloat)) m.parameters)]

def metadataJson (m : MetadataRecord Float) : Json :=
  .object [("fitted_at", .text m.fittedAt), ("trace_count", ofNat m.traceCount.toNat),
    ("validation_r2", ofFloat m.score), ("static_only", .bool m.staticOnly),
    ("mechanism_types", dictionaryJson .text m.families),
    ("node_scores", dictionaryJson ofFloat m.nodeScores), ("seed", ofNat m.seed.toNat)]

def toJson (r : Record Float) : Json :=
  .object [("nodes", .array (r.nodes.map nodeJson)), ("edges", .array (r.edges.map edgeJson)),
    ("mechanisms", dictionaryJson mechanismJson r.mechanisms),
    ("metadata", metadataJson r.metadata)]

/-- The text of a record. -/
def toText (r : Record Float) : String := pretty r.toJson

/-! ## 2. Reading -/

def asWord64? (j : Json) : Option UInt64 := (asWord? j).map UInt64.ofNat

section Numbers

variable {α : Type} (number : Json → Option α)

def edge? (j : Json) : Option (Edge α) := do
  match ← fields? [⟨"source", .required⟩, ⟨"target", .required⟩, ⟨"edge_type", .required⟩,
      ⟨"weight", .nullable⟩] j with
  | [source, target, kind, weight] =>
    let source ← requiredField? asString? source
    let target ← requiredField? asString? target
    let kind ← requiredField? asTag? kind
    let kind ← EdgeKind.ofName? kind
    let weight ← optionalField? number weight
    return ⟨source, target, kind, weight⟩
  | _ => none

def mechanism? (j : Json) : Option (MechanismRecord α) := do
  match ← fields? [⟨"mechanism_type", .required⟩, ⟨"domain", .required⟩, ⟨"parents", .required⟩,
      ⟨"labels", .defaulted⟩, ⟨"parameters", .required⟩] j with
  | [family, domain, parents, labels, parameters] =>
    let family ← requiredField? asString? family
    let domain ← requiredField? asString? domain
    let parents ← requiredField? (asList? asString?) parents
    let labels ← defaultedField? (asList? asString?) [] labels
    let parameters ← requiredField? (asDictionary? (asList? number)) parameters
    return ⟨family, domain, parents, labels, parameters⟩
  | _ => none

def metadata? (j : Json) : Option (MetadataRecord α) := do
  match ← fields? [⟨"fitted_at", .required⟩, ⟨"trace_count", .required⟩,
      ⟨"validation_r2", .required⟩, ⟨"static_only", .required⟩, ⟨"mechanism_types", .required⟩,
      ⟨"node_scores", .defaulted⟩, ⟨"seed", .required⟩] j with
  | [fittedAt, traceCount, score, staticOnly, families, nodeScores, seed] =>
    let fittedAt ← requiredField? asString? fittedAt
    let traceCount ← requiredField? asWord64? traceCount
    let score ← requiredField? number score
    let staticOnly ← requiredField? asBool? staticOnly
    let families ← requiredField? (asDictionary? asString?) families
    let nodeScores ← defaultedField? (asDictionary? number) Dictionary.empty nodeScores
    let seed ← requiredField? asWord64? seed
    return ⟨fittedAt, traceCount, score, staticOnly, families, nodeScores, seed⟩
  | _ => none

/-- The record that a value is, with its numbers read by `number`. -/
def read? (j : Json) : Option (Record α) := do
  match ← fields? [⟨"nodes", .required⟩, ⟨"edges", .required⟩, ⟨"mechanisms", .required⟩,
      ⟨"metadata", .required⟩] j with
  | [nodes, edges, mechanisms, metadata] =>
    let nodes ← requiredField? (asList? GraphParts.node?) nodes
    let edges ← requiredField? (asList? (edge? number)) edges
    let mechanisms ← requiredField? (asDictionary? (mechanism? number)) mechanisms
    let metadata ← requiredField? (metadata? number) metadata
    return ⟨nodes, edges, mechanisms, metadata⟩
  | _ => none

end Numbers

def ofJson? : Json → Option (Record Float) := read? asFloat?

/-- The record that fills the text. -/
def ofText? (text : String) : Option (Record Float) := parse? text >>= ofJson?

end Record

end CodeCausality
