import CodeCausality.Numeric.LinearSystem

/-!
# Elimination in place

The elimination of `solve` on a system that keeps its size. In one column after another the pivot
equation changes places with the one on the diagonal and is subtracted from those below, from that
column on. What stands left of the diagonal then is left there and not looked at again. The unknowns
follow from the last equation upwards.

How to divide is a parameter: a division by zero can be made to stop the computation.

* `sweepColumn`, `sweep` -- one column, and all of them;
* `backStep`, `backSubstitute` -- one unknown, and all of them;
* `solveInPlace` -- the whole, `checkedDivide` -- the division that stops at zero.
-/

namespace CodeCausality

namespace LinearSystem

/-- Why there is no answer: the system is refused, or a division by zero was to be made. -/
inductive Stop where
  | refused
  | zeroDivisor
  deriving Repr, DecidableEq

variable {α : Type} [Scalar α]

def checkedDivide (a b : α) : Except Stop α :=
  if b == 0 then .error .zeroDivisor else .ok (a / b)

/-! ## 1. Entries -/

def entry (e : Equation α) (col : Nat) : α := e.coefficients.getD col 0

def rowAt (rows : List (Equation α)) (i : Nat) : Equation α := rows.getD i ⟨[], 0⟩

/-- Two equations change places. -/
def swapRows (rows : List (Equation α)) (i j : Nat) : List (Equation α) :=
  (rows.set i (rowAt rows j)).set j (rowAt rows i)

/-- The position of the last of the largest entries of a column by magnitude, from the diagonal
down. -/
def pivotRow (rows : List (Equation α)) (col : Nat) : Nat :=
  let size (i : Nat) : α := Scalar.abs (entry (rowAt rows i) col)
  (List.range' (col + 1) (rows.length - (col + 1))).foldl
    (fun best i => if Scalar.totalLE (size best) (size i) then i else best) col

variable (divide : α → α → Except Stop α)

/-! ## 2. Columns -/

/-- The equation less a multiple of the pivot equation, from the pivot's column on. -/
def subtractPivot (pivot : Equation α) (col : Nat) (e : Equation α) : Except Stop (Equation α) := do
  let factor ← divide (entry e col) (entry pivot col)
  if factor == 0 then return e
  else
    let subtract (k : Nat) (a : α) : α := if col ≤ k then a - factor * entry pivot k else a
    return ⟨e.coefficients.mapIdx subtract, e.constant - factor * pivot.constant⟩

def sweepColumn (least : α) (rows : List (Equation α)) (col : Nat) :
    Except Stop (List (Equation α)) :=
  let position := pivotRow rows col
  if Scalar.abs (entry (rowAt rows position) col) < least then .error .refused
  else do
    let rows := swapRows rows col position
    let below ← (rows.drop (col + 1)).mapM (subtractPivot divide (rowAt rows col) col)
    return rows.take (col + 1) ++ below

def sweep (least : α) (rows : List (Equation α)) : Except Stop (List (Equation α)) :=
  (List.range rows.length).foldlM (sweepColumn divide least) rows

/-! ## 3. Unknowns -/

/-- The unknown on the diagonal of an equation, given those behind it. -/
def backStep (rows : List (Equation α)) (xs : List α) (i : Nat) : Except Stop (List α) := do
  let e := rowAt rows i
  let tail := Scalar.sum ((List.range' (i + 1) (rows.length - (i + 1))).map fun k =>
    entry e k * xs.getD k 0)
  let x ← divide (e.constant - tail) (entry e i)
  return xs.set i x

def backSubstitute (rows : List (Equation α)) : Except Stop (List α) :=
  (List.range rows.length).reverse.foldlM (backStep divide rows) (List.replicate rows.length 0)

/-- The solution of a system of as many equations as unknowns. -/
def solveInPlace (es : List (Equation α)) : Except Stop (List α) := do
  let rows ← sweep divide (pivotTolerance * diagonalScale es) es
  let xs ← backSubstitute divide rows
  if Scalar.allFinite xs then return xs else throw .refused

end LinearSystem

end CodeCausality
