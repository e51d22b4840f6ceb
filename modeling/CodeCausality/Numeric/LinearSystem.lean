import CodeCausality.Numeric.Scalar

/-!
# Linear systems

Gaussian elimination with partial pivoting, one unknown at a time: the equation with the largest
leading coefficient is set aside, the others lose their first unknown, the smaller system is solved,
and the first unknown follows. There is no answer where all leading coefficients are small against
the diagonal of the whole system (`pivotTolerance`), or where the answer would not be finite.
-/

namespace CodeCausality

/-- One equation: the coefficients of the unknowns and the right-hand side. -/
structure Equation (α : Type) where
  coefficients : List α
  constant : α

namespace LinearSystem

variable {α : Type} [Scalar α]

/-! ## 1. Choosing a pivot -/

/-- The first coefficient. -/
def lead (e : Equation α) : α := e.coefficients.headD 0

/-- The position of the last of the largest leading coefficients by magnitude, given the best
position so far and its coefficient. -/
def pivotFrom (best : Nat) (top : α) (i : Nat) : List (Equation α) → Nat
  | [] => best
  | e :: rest =>
    let a := Scalar.abs (lead e)
    if Scalar.totalLE top a then pivotFrom i a (i + 1) rest else pivotFrom best top (i + 1) rest

/-- The pivot equation, and the others; the first equation takes the pivot's place. -/
def setAside : List (Equation α) → Option (Equation α × List (Equation α))
  | [] => none
  | first :: rest =>
    match pivotFrom 0 (Scalar.abs (lead first)) 1 rest with
    | 0 => some (first, rest)
    | i + 1 =>
      match rest[i]? with
      | some pivot => some (pivot, rest.set i first)
      | none => some (first, rest)

/-! ## 2. Eliminating an unknown -/

/-- The equation without its first unknown, which the pivot equation expresses. -/
def reduce (pivot e : Equation α) : Equation α :=
  let factor := lead e / lead pivot
  if factor == 0 then ⟨e.coefficients.tail, e.constant⟩
  else
    ⟨List.zipWith (fun a p => a - factor * p) e.coefficients.tail pivot.coefficients.tail,
      e.constant - factor * pivot.constant⟩

/-- The solution of as many equations as unknowns, if no pivot is below `least`. -/
def eliminate (least : α) : Nat → List (Equation α) → Option (List α)
  | 0, _ => some []
  | n + 1, es =>
    match setAside es with
    | none => none
    | some (pivot, others) =>
      if Scalar.abs (lead pivot) < least then none
      else match eliminate least n (others.map (reduce pivot)) with
        | none => none
        | some xs =>
          let rest := Scalar.dot pivot.coefficients.tail xs
          some ((pivot.constant - rest) / lead pivot :: xs)

/-! ## 3. Solving -/

/-- How small a pivot may be against the largest entry of the diagonal. -/
def pivotTolerance : α := Scalar.ofDecimal 1 10

/-- The largest entry of the diagonal by magnitude, at least 1. -/
def diagonalScale (es : List (Equation α)) : α :=
  (es.zipIdx.map fun (e, i) => Scalar.abs (e.coefficients.getD i 0)).foldl Scalar.maxNum 1

/-- The solution of a system of as many equations as unknowns. -/
def solve (es : List (Equation α)) : Option (List α) :=
  match eliminate (pivotTolerance * diagonalScale es) es.length es with
  | some xs => if Scalar.allFinite xs then some xs else none
  | none => none

theorem eliminate_of_solve {es : List (Equation α)} {xs : List α} (h : solve es = some xs) :
    eliminate (pivotTolerance * diagonalScale es) es.length es = some xs := by
  rw [solve] at h
  split at h
  · rename_i ys hys
    split at h
    · exact hys.trans h
    · exact nomatch h
  · exact nomatch h

end LinearSystem

end CodeCausality
