import CodeCausality.Json.Shape
import CodeCausality.Value

/-!
# Execution traces

A trace table has one row an execution and in each row the values observed at some nodes.
`TraceTable.column` reads the values of one node as codes of one domain; a gap, a mix of kinds or a
number that is not finite refuses the column. Of several faults the first row's is reported, and
within a row a gap comes before a mix and a mix before a number.
-/

namespace CodeCausality

/-! ## 1. Tables -/

abbrev TraceRow (α : Type) := Dictionary (Value α)

structure TraceTable (α : Type) where
  rows : List (TraceRow α)

/-- A table as a list of objects, one a row. -/
def TraceTable.ofJson? (j : Json) : Option (TraceTable Float) :=
  (j.asList? (Json.asDictionary? Value.ofJson?)).map TraceTable.mk

/-- The codes of one node, and the domain they are codes of. -/
structure Column (α : Type) where
  domain : Domain
  codes : List α

/-- Why a column cannot be read. Rows count from zero. -/
inductive ColumnError where
  | missing (node : String)
  | missingValue (node : String) (row : Nat)
  | mixed (node : String) (first second : ValueKind)
  | nonFinite (node : String) (row : Nat)
  deriving Repr, DecidableEq

def ColumnError.message : ColumnError → String
  | missing node => s!"trace table has no column for node {node}"
  | missingValue node row => s!"trace row {row} has no value for node {node}"
  | mixed node first second =>
    s!"trace column {node} mixes value kinds ({first.name} and {second.name})"
  | nonFinite node row => s!"non-finite value in trace column {node} at row {row}"

namespace TraceTable

variable {α : Type} [Scalar α]

/-- Every node that has a value in some row. -/
def columns (t : TraceTable α) : List String := sortedIds (t.rows.flatMap Dictionary.keys)

/-! ## 2. Reading a column -/

/-- A number that is not finite. -/
def isNonFinite : Value α → Bool
  | .number x => !Scalar.isFinite x
  | _ => false

/-- The values at `node`, of the kind that the first has; `row` is the number of the first row. -/
def cells (node : String) (first : Option ValueKind) (row : Nat) :
    List (TraceRow α) → Except ColumnError (List (Value α))
  | [] => .ok []
  | r :: rest =>
    match r.get? node with
    | none => .error (.missingValue node row)
    | some v =>
      let kind := first.getD v.kind
      if v.kind ≠ kind then .error (.mixed node kind v.kind)
      else if isNonFinite v then .error (.nonFinite node row)
      else (cells node (some kind) (row + 1) rest).map (v :: ·)

/-- The label of a category. -/
def label? : Value α → Option String
  | .category c => some c
  | _ => none

/-- The domain that the values belong to, by the kind of the first. -/
def domainOf : List (Value α) → Domain
  | .boolean _ :: _ => .boolean
  | .category c :: rest => .categorical (sortedIds (c :: rest.filterMap label?))
  | _ => .continuous

/-- The column of `node`. -/
def column (t : TraceTable α) (node : String) : Except ColumnError (Column α) :=
  if t.rows.any (·.contains node) then
    (cells node none 0 t.rows).map fun vs =>
      let domain := domainOf vs
      ⟨domain, vs.map fun v => (domain.encode? v).getD 0⟩
  else .error (.missing node)

end TraceTable

end CodeCausality
