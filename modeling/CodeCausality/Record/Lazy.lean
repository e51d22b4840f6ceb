import CodeCausality.Record.Basic
import CodeCausality.Simulation.Impact

/-!
# Models on demand

A record that is read as a model when the model is first needed; the outcome is kept, so that a
record is read once.
-/

namespace CodeCausality

structure LazyModel (α : Type) where
  record : Record α
  outcome : Option (Except (RecordError α) (Model α))

namespace LazyModel

variable {α : Type}

def ofRecord (r : Record α) : LazyModel α := ⟨r, none⟩

/-- Whether the record has been read. -/
def isMaterialised (l : LazyModel α) : Bool := l.outcome.isSome

/-- The kept outcome, or that of reading the record now. -/
def result [Scalar α] (l : LazyModel α) : Except (RecordError α) (Model α) :=
  l.outcome.getD l.record.toModel

/-- The same record with its outcome kept. -/
def materialise [Scalar α] (l : LazyModel α) : LazyModel α := ⟨l.record, some l.result⟩

/-- The model for a query. -/
def get (l : LazyModel Float) : Except (ImpactError Float) (Model Float) :=
  match l.result with
  | .ok m => .ok m
  | .error e => .error (.unmaterialised e.message)

end LazyModel

end CodeCausality
