import Mathlib.Data.Prod.Lex
import CodeCausality.Proofs.Numeric.Exact

/-!
# The order of the finite numbers

Rounding disturbs sums and products, but not comparisons: any two finite numbers compare, and the
larger of them is one of the two.

* `Scalar.Ordered` -- the finite numbers are in order; `==` says that each is at most the other;
* `Binary64.position`, `Binary64.compare_eq` -- **floats compare as their sign, exponent and
  mantissa do**, so `Float` is ordered, as exact arithmetic is;
* `le_maxNum_left`, `le_maxNum_right`, `maxNum_eq_or` -- the larger of two finite numbers.
-/

namespace CodeCausality

/-! ## 1. Ordered numbers -/

/-- Among finite numbers the comparisons are those of a linear order, up to numbers that `==` takes
for one (the two zeros). -/
class Scalar.Ordered (α : Type) [Scalar α] : Prop where
  le_total : ∀ {x y : α}, isFinite x = true → isFinite y = true → x ≤ y ∨ y ≤ x
  le_trans : ∀ {x y z : α}, isFinite x = true → isFinite y = true → isFinite z = true →
    x ≤ y → y ≤ z → x ≤ z
  lt_iff : ∀ {x y : α}, isFinite x = true → isFinite y = true → (x < y ↔ ¬ y ≤ x)
  beq_iff : ∀ {x y : α}, isFinite x = true → isFinite y = true →
    ((x == y) = true ↔ x ≤ y ∧ y ≤ x)

namespace Scalar

variable {α : Type} [Scalar α]

theorem maxNum_eq_or (a b : α) : maxNum a b = a ∨ maxNum a b = b := by
  unfold maxNum
  split
  · split
    · exact .inr rfl
    · exact .inl rfl
  · exact .inr rfl

section Finite

variable [Ordered α] {a b : α} (ha : isFinite a = true) (hb : isFinite b = true)

include ha in
theorem Ordered.le_refl : a ≤ a := (le_total ha ha).elim id id

include ha in
theorem maxNum_of_isFinite (b : α) : maxNum a b = if a < b then b else a := by
  have hself : (a == a) = true :=
    (Ordered.beq_iff ha ha).mpr ⟨Ordered.le_refl ha, Ordered.le_refl ha⟩
  rw [maxNum, if_pos hself]

include ha hb

theorem le_maxNum_left : a ≤ maxNum a b := by
  rw [maxNum_of_isFinite ha]
  split
  · rename_i h
    exact (Ordered.le_total ha hb).resolve_right ((Ordered.lt_iff ha hb).mp h)
  · exact Ordered.le_refl ha

theorem le_maxNum_right : b ≤ maxNum a b := by
  rw [maxNum_of_isFinite ha]
  split
  · exact Ordered.le_refl hb
  · rename_i h
    exact Classical.not_not.mp fun hba => h ((Ordered.lt_iff ha hb).mpr hba)

end Finite

end Scalar

/-- Exact numbers are in order. -/
instance {K : Type} [Field K] [LinearOrder K] [FloorSemiring K] [RootExp K] : Scalar.Ordered K where
  le_total _ _ := le_total _ _
  le_trans _ _ _ := le_trans
  lt_iff _ _ := not_le.symm
  beq_iff _ _ := beq_iff_eq.trans le_antisymm_iff

/-! ## 2. Floats -/

namespace Binary64

open Float.Model

theorem compare_neg (a b : ℤ) : compare (-a) (-b) = (compare a b).swap := by
  have hanti : StrictAnti (fun x : ℤ => -x) := fun _ _ h => neg_lt_neg h
  rw [compare_iff, Ordering.compares_swap]
  exact hanti.compares.mpr ((compare_iff a b).mp rfl)

theorem compare_natCast (a b : ℕ) : compare (a : ℤ) (b : ℤ) = compare a b :=
  (compare_iff _ _).mpr (Nat.strictMono_cast.compares.mpr ((compare_iff _ _).mp rfl))

/-- Where a finite value stands among the others: its sign comes first, then the exponent, then the
mantissa. Below zero the last two count backwards. -/
def position : UnpackedFloat → ℤ ×ₗ ℤ ×ₗ ℤ
  | .finite .positive m e _ => toLex (1, toLex (e, (m : ℤ)))
  | .finite .negative m e _ => toLex (-1, toLex (-e, -(m : ℤ)))
  | _ => toLex (0, toLex (0, 0))

/-- **Finite values compare as their positions do.** -/
theorem compare_eq {a b : UnpackedFloat} (ha : a.isFinite = true) (hb : b.isFinite = true) :
    a.compare b = some (compare (position a) (position b)) := by
  cases a with
  | notANumber => exact nomatch ha
  | infinity s => exact nomatch ha
  | zero s =>
    cases b with
    | notANumber => exact nomatch hb
    | infinity t => exact nomatch hb
    | zero t => rfl
    | finite t n d hn => cases t <;> rfl
  | finite s m e hm =>
    cases b with
    | notANumber => exact nomatch hb
    | infinity t => exact nomatch hb
    | zero t => cases s <;> rfl
    | finite t n d hn =>
      cases s with
      | positive =>
        cases t with
        | positive =>
          show some ((compare e d).then (compare m n)) =
            some ((compare e d).then (compare (m : ℤ) (n : ℤ)))
          rw [compare_natCast]
        | negative => rfl
      | negative =>
        cases t with
        | positive => rfl
        | negative =>
          show some ((compare e d).then (compare m n)).swap =
            some ((compare (-e) (-d)).then (compare (-(m : ℤ)) (-(n : ℤ))))
          rw [compare_neg, compare_neg, compare_natCast, Ordering.swap_then]

section Finite

variable {x y : Float} (hx : x.isFinite = true) (hy : y.isFinite = true)

include hx hy

theorem lt_iff : x < y ↔ position x.toModel.unpack < position y.toModel.unpack := by
  have h : x < y ↔ (x.toModel.unpack.compare y.toModel.unpack == some .lt) = true :=
    decide_eq_true_iff
  rw [h, compare_eq hx hy, beq_iff_eq, Option.some_inj, compare_lt_iff_lt]

theorem le_iff : x ≤ y ↔ position x.toModel.unpack ≤ position y.toModel.unpack := by
  have h : x ≤ y ↔ (x.toModel.unpack.compare y.toModel.unpack).any (·.isLE) = true :=
    decide_eq_true_iff
  rw [h, compare_eq hx hy, Option.any_some, ← compare_le_iff_le, Ordering.isLE_iff_ne_gt]

theorem beq_iff : (x == y) = true ↔ position x.toModel.unpack = position y.toModel.unpack := by
  have h : (x == y) = (x.toModel.unpack.compare y.toModel.unpack == some .eq) := rfl
  rw [h, compare_eq hx hy, beq_iff_eq, Option.some_inj, compare_eq_iff_eq]

end Finite

/-- **Floats are in order.** -/
instance : Scalar.Ordered Float where
  le_total hx hy := by
    rw [le_iff hx hy, le_iff hy hx]
    exact le_total _ _
  le_trans hx hy hz hxy hyz :=
    (le_iff hx hz).mpr (((le_iff hx hy).mp hxy).trans ((le_iff hy hz).mp hyz))
  lt_iff hx hy := by
    rw [lt_iff hx hy, le_iff hy hx, not_le]
  beq_iff hx hy := by
    rw [beq_iff hx hy, le_iff hx hy, le_iff hy hx]
    exact le_antisymm_iff

end Binary64

end CodeCausality
