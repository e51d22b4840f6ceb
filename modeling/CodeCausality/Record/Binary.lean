import CodeCausality.Binary.Format
import CodeCausality.Record.Basic

/-!
# Records as bytes

The binary format of a record: its parts in order, each in the format of its type. The parts are the
same whatever the numbers of a record are, so the format of the numbers is given; a float is written
as its 64 bits.
-/

namespace CodeCausality

namespace Record

open Binary Binary.Format

def elementFormat : Format Element :=
  (text.pair ((oneOf ElementKind.all).pair text.dictionary)).convert
    (fun p => ⟨p.1, p.2.1, p.2.2⟩) (fun e => (e.id, e.kind, e.attributes))

section Numbers

variable {α : Type} (number : Format α)

def edgeFormat : Format (Edge α) :=
  (text.pair (text.pair ((oneOf EdgeKind.all).pair number.option))).convert
    (fun p => ⟨p.1, p.2.1, p.2.2.1, p.2.2.2⟩) (fun e => (e.source, e.target, e.kind, e.weight))

def mechanismFormat : Format (MechanismRecord α) :=
  (text.pair (text.pair (text.list.pair (text.list.pair number.list.dictionary)))).convert
    (fun p => ⟨p.1, p.2.1, p.2.2.1, p.2.2.2.1, p.2.2.2.2⟩)
    (fun m => (m.family, m.domain, m.parents, m.labels, m.parameters))

def metadataFormat : Format (MetadataRecord α) :=
  (text.pair (word64.pair (number.pair (bool.pair (text.dictionary.pair
    (number.dictionary.pair word64)))))).convert
    (fun p => ⟨p.1, p.2.1, p.2.2.1, p.2.2.2.1, p.2.2.2.2.1, p.2.2.2.2.2.1, p.2.2.2.2.2.2⟩)
    (fun m => (m.fittedAt, m.traceCount, m.score, m.staticOnly, m.families, m.nodeScores, m.seed))

/-- The format of a record whose numbers are in the given format. -/
def format : Format (Record α) :=
  (elementFormat.list.pair ((edgeFormat number).list.pair ((mechanismFormat number).dictionary.pair
    (metadataFormat number)))).convert
    (fun p => ⟨p.1, p.2.1, p.2.2.1, p.2.2.2⟩)
    (fun r => (r.nodes, r.edges, r.mechanisms, r.metadata))

end Numbers

def toBytes (r : Record Float) : Bytes := (format float).write r

/-- The record at the front of the bytes; what follows it does not matter. -/
def ofBytes (bs : Bytes) : Except Fault (Record Float) := ((format float).read bs).map (·.1)

end Record

end CodeCausality
