/-!
# Binary64 as a number

This file fixes the reading of a float as a rational number, once, from its bits: `Binary64.view`
gives sign, mantissa and binary exponent, and every decimal text of this library is computed from
that view in natural numbers. In the other direction `Binary64.ofDecimal` is the float nearest to a
decimal, infinite above the range and zero below it.
-/

namespace CodeCausality

namespace Binary64

/-! ## 1. Sign, mantissa, exponent -/

/-- What a float stands for: `finite s m e` is `m * 2 ^ e`, negated if `s`. -/
inductive View where
  | nan
  | infinite (negative : Bool)
  | finite (negative : Bool) (mantissa : Nat) (exponent : Int)
  deriving Repr, DecidableEq

/-- The view of the float with the given bits. -/
def viewBits (bits : Nat) : View :=
  let negative : Bool := decide (Nat.pow 2 63 ≤ bits)
  let field : Nat := bits / Nat.pow 2 52 % Nat.pow 2 11
  let fraction : Nat := bits % Nat.pow 2 52
  if field = 2047 then if fraction = 0 then .infinite negative else .nan
  else if field = 0 then .finite negative fraction (-1074)
  else .finite negative (Nat.pow 2 52 + fraction) ((field : Int) - 1075)

def view (x : Float) : View := viewBits x.toBits.toNat

section Finite

open Float.Model (Format UnpackedFloat)
open Float.Model.UnpackedFloat (unpackExponent unpackMantissa)

theorem toNat_allOnes : (-1#11).toNat = 2047 := by decide

theorem isFinite_unpack (b : BitVec Format.binary64.numBits) :
    (UnpackedFloat.unpack Format.binary64 b).isFinite = true ↔
      unpackExponent b ≠ -1#11 := by
  unfold UnpackedFloat.unpack
  by_cases hfull : unpackExponent b = -1#11
  · rw [if_pos hfull]
    refine iff_of_false ?_ fun h => h hfull
    by_cases hzero : unpackMantissa b = 0#52
    · rw [if_pos hzero]
      exact Bool.false_ne_true
    · rw [if_neg hzero]
      exact Bool.false_ne_true
  · rw [if_neg hfull]
    refine iff_of_true ?_ hfull
    by_cases hnull : unpackExponent b = 0#11
    · by_cases hzero : unpackMantissa b = 0#52
      · rw [if_pos hnull, dif_pos hzero]
        rfl
      · rw [if_pos hnull, dif_neg hzero]
        rfl
    · rw [if_neg hnull]
      rfl

/-- A float is finite exactly if its view has a mantissa and an exponent. -/
theorem isFinite_iff_view (x : Float) :
    x.isFinite = true ↔ ∃ s m e, view x = .finite s m e := by
  have hfield : (unpackExponent x.toBits.toBitVec : BitVec Format.binary64.exponentBits).toNat =
      x.toBits.toNat / Nat.pow 2 52 % Nat.pow 2 11 := by
    simp [unpackExponent, BitVec.extractLsb_toNat, Nat.shiftRight_eq_div_pow]
  have hfull : x.isFinite = true ↔ x.toBits.toNat / Nat.pow 2 52 % Nat.pow 2 11 ≠ 2047 := by
    rw [← hfield, ← toNat_allOnes, ne_eq, BitVec.toNat_inj]
    exact isFinite_unpack _
  rw [hfull, view, viewBits]
  split
  · rename_i h
    split <;> simp [h]
  · rename_i h
    split <;> simp [h]

end Finite

/-! ## 2. The float nearest to a decimal -/

/-- The number of decimal digits of `n`; zero has one. -/
def digitCount (n : Nat) : Nat := (Nat.toDigits 10 n).length

/-- The float nearest to `m * 10 ^ e`. A decimal of more than 310 places before the point is out of
range, one whose first digit stands after place 326 rounds to zero. -/
def ofDecimal (m : Nat) (e : Int) : Float :=
  let top : Int := digitCount m + e
  if m = 0 then 0
  else if 310 < top then 1 / 0
  else if top < -326 then 0
  else Float.ofScientific m (decide (e < 0)) e.natAbs

end Binary64

end CodeCausality
