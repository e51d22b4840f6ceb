/-!
# The arithmetic that models are computed in

Every numeric definition of this library is written once, over a type `α` with `[Scalar α]`, in a
fixed operation order. This file fixes what such a type offers:

* `Scalar α` holds the four operations, the comparisons, the two roundings to a natural number and
  the two functions (`sqrt`, `exp`) that the fitters and the simulator use;
* `Scalar Float` is binary64, the arithmetic of a running program. An ordered field with arbitrary
  `sqrt` and `exp` is another instance, and there the same definitions have their exact meaning;
* `Scalar.sum`, `Scalar.square`, `Scalar.dot`, `Scalar.maxNum` are the few combinations that occur
  everywhere.
-/

namespace CodeCausality

/-! ## 1. The operations -/

/-- A type of numbers to compute in. `floor` and `ceil` clamp below at zero, and a text or a table
is never consulted: an operation is a function of its operands. -/
class Scalar (α : Type) extends Add α, Sub α, Mul α, Div α, Neg α, LT α, LE α, BEq α where
  /-- The number `n`. -/
  ofNat : Nat → α
  /-- The number `m / 10 ^ places`. -/
  ofDecimal : (m places : Nat) → α
  abs : α → α
  sqrt : α → α
  exp : α → α
  /-- The largest natural number not above the argument, zero where there is none. -/
  floor : α → Nat
  /-- The smallest natural number not below the argument. -/
  ceil : α → Nat
  isFinite : α → Bool
  /-- An order in which any two values compare, also those that `<` leaves incomparable. -/
  totalLE : α → α → Bool
  decLT : (a b : α) → Decidable (a < b)
  decLE : (a b : α) → Decidable (a ≤ b)

namespace Scalar

variable {α : Type} [Scalar α]

instance (priority := low) : DecidableRel (α := α) (· < ·) := decLT
instance (priority := low) : DecidableRel (α := α) (· ≤ ·) := decLE
instance (priority := low) (n : Nat) : OfNat α n := ⟨ofNat n⟩
instance (priority := low) : OfScientific α where
  ofScientific m negative e := if negative then ofDecimal m e else ofNat (m * Nat.pow 10 e)

/-! ## 2. Combinations -/

@[inline] def square (x : α) : α := x * x

/-- The sum from left to right. -/
@[specialize] def sum (xs : List α) : α := xs.foldl (· + ·) 0

/-- The sum of the products of the elements that stand at the same position in both lists. -/
@[specialize] def dot (xs ys : List α) : α := sum (List.zipWith (· * ·) xs ys)

/-- The larger of two numbers; a value that is no number loses against any other. -/
@[inline] def maxNum (a b : α) : α := if a == a then (if a < b then b else a) else b

/-- `x` moved into the interval from `lo` to `hi`. -/
@[inline] def clamp (x lo hi : α) : α := if x < lo then lo else if hi < x then hi else x

/-- All numbers of the list are finite. -/
def allFinite (xs : List α) : Bool := xs.all isFinite

/-- One for true, zero for false. -/
@[inline] def indicator (b : Bool) : α := if b then 1 else 0

end Scalar

/-! ## 3. Binary64 -/

/-- The bits of a float as an integer that grows along the total order of all floats: negative
values and negative NaNs stand in reverse, so that -0 is just below 0. -/
def Float.orderKey (x : Float) : Int :=
  let bits := x.toBits.toInt64.toInt
  if 0 ≤ bits then bits else Int64.minValue.toInt - bits - 1

instance : Scalar Float where
  ofNat := Float.ofNat
  ofDecimal m places := Float.ofScientific m true places
  abs := Float.abs
  sqrt := Float.sqrt
  exp := Float.exp
  -- The conversion cuts the fraction off and clamps below at zero.
  floor x := x.toUInt64.toNat
  ceil x := x.ceil.toUInt64.toNat
  isFinite := Float.isFinite
  totalLE x y := decide (Float.orderKey x ≤ Float.orderKey y)
  decLT := inferInstance
  decLE := inferInstance

end CodeCausality
