import Mathlib.Data.List.Perm.Basic
import Mathlib.Tactic.FieldSimp
import Mathlib.Tactic.LinearCombination
import Mathlib.Tactic.Positivity
import Mathlib.Tactic.Ring
import CodeCausality.Numeric.LinearSystem
import CodeCausality.Proofs.Numeric.Order

/-!
# What elimination solves

Over exact arithmetic the answer to a system is its solution, and its only one.

* `Scalar.dot_cons`, `Scalar.dot_zipWith_sub`, … -- sums of products, term by term;
* `Equation.Holds` -- the equation is true of these values of the unknowns;
* `setAside_perm` -- choosing a pivot keeps the equations;
* `holds_reduce_iff` -- **a step keeps what an equation says**, where the pivot equation holds;
* `eliminate_iff` -- **by induction on the unknowns, elimination finds the only solution**;
* `solve_iff` -- the same of a system as a whole: no pivot it accepts is zero.
-/

namespace CodeCausality

variable {K : Type} [Field K] [LinearOrder K] [FloorSemiring K] [RootExp K]

/-! ## 1. Sums of products -/

namespace Scalar

theorem dot_nil_left (ys : List K) : dot ([] : List K) ys = 0 := by
  rw [dot_eq]
  rfl

theorem dot_nil_right (xs : List K) : dot xs ([] : List K) = 0 := by
  rw [dot_eq, List.zipWith_nil_right]
  rfl

theorem dot_cons (a : K) (as : List K) (b : K) (bs : List K) :
    dot (a :: as) (b :: bs) = a * b + dot as bs := by
  rw [dot_eq, dot_eq, List.zipWith_cons_cons, List.sum_cons]

theorem dot_comm (xs ys : List K) : dot xs ys = dot ys xs := by
  rw [dot_eq, dot_eq, List.zipWith_comm]
  simp only [mul_comm]

/-- Zeros have no products. -/
theorem dot_eq_zero {as : List K} (h : ∀ a ∈ as, a = 0) (zs : List K) : dot as zs = 0 := by
  induction as generalizing zs with
  | nil => exact dot_nil_left zs
  | cons a as ih =>
    cases zs with
    | nil => exact dot_nil_right _
    | cons z zs =>
      rw [dot_cons, h a List.mem_cons_self, zero_mul, zero_add]
      exact ih (fun b hb => h b (List.mem_cons_of_mem _ hb)) zs

/-- A sum of products of two lists added with a factor. -/
theorem dot_zipWith_add (f : K) {as bs : List K} (h : as.length = bs.length) (zs : List K) :
    dot (List.zipWith (fun a b => f * a + b) as bs) zs = f * dot as zs + dot bs zs := by
  induction as generalizing bs zs with
  | nil =>
    obtain rfl := List.length_eq_zero_iff.mp h.symm
    rw [List.zipWith_nil_left, dot_nil_left, mul_zero, zero_add]
  | cons a as ih =>
    cases bs with
    | nil => exact nomatch h
    | cons b bs =>
      cases zs with
      | nil => rw [dot_nil_right, dot_nil_right, dot_nil_right, mul_zero, zero_add]
      | cons z zs =>
        rw [List.zipWith_cons_cons, dot_cons, dot_cons, dot_cons, ih (Nat.succ.inj h)]
        ring

/-- A sum of products of two lists subtracted with a factor. -/
theorem dot_zipWith_sub (f : K) {as bs : List K} (h : as.length = bs.length) (zs : List K) :
    dot (List.zipWith (fun a b => a - f * b) as bs) zs = dot as zs - f * dot bs zs := by
  have hflip : List.zipWith (fun a b => a - f * b) as bs =
      List.zipWith (fun b a => -f * b + a) bs as := by
    rw [List.zipWith_comm]
    congr 1
    funext b a
    ring
  rw [hflip, dot_zipWith_add _ h.symm]
  ring

end Scalar

/-! ## 2. Equations -/

/-- The equation is true if the unknowns have these values. -/
def Equation.Holds (e : Equation K) (zs : List K) : Prop :=
  Scalar.dot e.coefficients zs = e.constant

namespace LinearSystem

omit [FloorSemiring K] [RootExp K] [Field K] [LinearOrder K] in
/-- **The pivot and the others are the equations.** -/
theorem setAside_perm {α : Type} [Scalar α] {es others : List (Equation α)} {pivot : Equation α}
    (h : setAside es = some (pivot, others)) : (pivot :: others).Perm es := by
  cases es with
  | nil => exact nomatch h
  | cons first rest =>
    rw [setAside] at h
    split at h
    · cases h
      exact .refl _
    · rename_i i hi
      split at h
      · rename_i p hp
        cases h
        have hperm := rest.getD_set_perm_cons i first
        rwa [hp, Option.getD_some] at hperm
      · cases h
        exact .refl _

/-- **A step keeps what an equation says**, where the pivot equation holds. -/
theorem holds_reduce_iff {pivot e : Equation K} {z : K} {zs : List K}
    (hpivot : lead pivot ≠ 0) (hlength : pivot.coefficients.length = zs.length + 1)
    (he : e.coefficients.length = zs.length + 1) (hz : pivot.Holds (z :: zs)) :
    (reduce pivot e).Holds zs ↔ e.Holds (z :: zs) := by
  obtain ⟨ps, p₀⟩ := pivot
  obtain ⟨cs, c₀⟩ := e
  obtain ⟨a, ps, rfl⟩ := List.exists_cons_of_length_eq_add_one hlength
  obtain ⟨b, cs, rfl⟩ := List.exists_cons_of_length_eq_add_one he
  have hlen : cs.length = ps.length := (Nat.succ.inj he).trans (Nat.succ.inj hlength).symm
  have hb : b / a * a = b := div_mul_cancel₀ b hpivot
  unfold Equation.Holds at hz ⊢
  rw [Scalar.dot_cons] at hz ⊢
  unfold reduce
  dsimp only [lead, List.headD_cons, List.tail_cons]
  split
  · rename_i hfactor
    have hzero : b / a = 0 := (beq_iff_eq.mp hfactor).trans Scalar.ofNat_zero
    rw [hzero, zero_mul] at hb
    rw [← hb, zero_mul, zero_add]
  · dsimp only
    rw [Scalar.dot_zipWith_sub _ hlen]
    constructor
    · intro h
      linear_combination h + b / a * hz - z * hb
    · intro h
      linear_combination h - b / a * hz + z * hb

/-- A step leaves one unknown less. -/
theorem length_reduce {pivot e : Equation K} {n : Nat} (hpivot : pivot.coefficients.length = n + 1)
    (he : e.coefficients.length = n + 1) : (reduce pivot e).coefficients.length = n := by
  unfold reduce
  dsimp only
  split
  · rw [List.length_tail, he, Nat.add_sub_cancel]
  · rw [List.length_zipWith, List.length_tail, List.length_tail, he, hpivot, Nat.add_sub_cancel,
      Nat.min_self]

omit [FloorSemiring K] [RootExp K] [Field K] [LinearOrder K] in
/-- What a step of an elimination that succeeds has found. -/
theorem eliminate_succ {α : Type} [Scalar α] {least : α} {n : Nat} {es : List (Equation α)}
    {xs : List α} (h : eliminate least (n + 1) es = some xs) :
    ∃ pivot others rest, (pivot :: others).Perm es ∧ ¬ Scalar.abs (lead pivot) < least ∧
      eliminate least n (others.map (reduce pivot)) = some rest ∧
      xs = (pivot.constant - Scalar.dot pivot.coefficients.tail rest) / lead pivot :: rest := by
  rw [eliminate] at h
  split at h
  · exact nomatch h
  · rename_i pivot others haside
    split at h
    · exact nomatch h
    · rename_i hlarge
      split at h
      · exact nomatch h
      · rename_i rest hrest
        exact ⟨pivot, others, rest, setAside_perm haside, hlarge, hrest,
          (Option.some.inj h).symm⟩

/-- An equation says what its first unknown is, if the others are known. -/
theorem holds_cons_iff {e : Equation K} {z : K} {zs : List K} (he : lead e ≠ 0)
    (hlength : e.coefficients.length = zs.length + 1) :
    e.Holds (z :: zs) ↔ z = (e.constant - Scalar.dot e.coefficients.tail zs) / lead e := by
  obtain ⟨cs, c₀⟩ := e
  obtain ⟨a, cs, rfl⟩ := List.exists_cons_of_length_eq_add_one hlength
  rw [Equation.Holds, Scalar.dot_cons, eq_div_iff he, eq_sub_iff_add_eq, mul_comm a]
  rfl

variable [IsStrictOrderedRing K]

/-- **Elimination finds the only solution**: in each step the pivot equation says what the first
unknown is, and the others say of the rest what the smaller system does. -/
theorem eliminate_iff {least : K} (hleast : 0 < least) {n : Nat} {es : List (Equation K)}
    (hes : es.length = n) (hlengths : ∀ e ∈ es, e.coefficients.length = n) {xs : List K}
    (h : eliminate least n es = some xs) {zs : List K} (hzs : zs.length = n) :
    (∀ e ∈ es, e.Holds zs) ↔ zs = xs := by
  induction n generalizing es xs zs with
  | zero =>
    obtain rfl := List.length_eq_zero_iff.mp hes
    obtain rfl := List.length_eq_zero_iff.mp hzs
    obtain rfl := Option.some.inj h
    exact iff_of_true (fun e he => absurd he List.not_mem_nil) rfl
  | succ n ih =>
    obtain ⟨z, zs, rfl⟩ := List.exists_cons_of_length_eq_add_one hzs
    obtain rfl := Nat.succ.inj hzs
    obtain ⟨pivot, others, rest, hperm, hlarge, hrest, rfl⟩ := eliminate_succ h
    -- a pivot that is accepted is not zero
    have hpivot : lead pivot ≠ 0 := fun hzero =>
      hlarge (lt_of_eq_of_lt (abs_eq_zero.mpr hzero) hleast)
    have hpivotLength := hlengths pivot (hperm.subset List.mem_cons_self)
    have hotherLength (e : Equation K) (he : e ∈ others) :=
      hlengths e (hperm.subset (List.mem_cons_of_mem _ he))
    have hsmaller : (∀ e ∈ others.map (reduce pivot), e.Holds zs) ↔ zs = rest :=
      ih (by rw [List.length_map]; exact Nat.succ.inj (hperm.length_eq.trans hes))
        (List.forall_mem_map.mpr fun e he => length_reduce hpivotLength (hotherLength e he))
        hrest rfl
    have hothers (hz : pivot.Holds (z :: zs)) :
        (∀ e ∈ others, e.Holds (z :: zs)) ↔ zs = rest := by
      rw [← hsmaller, List.forall_mem_map]
      exact forall₂_congr fun e he =>
        (holds_reduce_iff hpivot hpivotLength (hotherLength e he) hz).symm
    calc (∀ e ∈ es, e.Holds (z :: zs))
        ↔ ∀ e ∈ pivot :: others, e.Holds (z :: zs) :=
          forall_congr' fun e => imp_congr_left hperm.mem_iff.symm
      _ ↔ pivot.Holds (z :: zs) ∧ ∀ e ∈ others, e.Holds (z :: zs) := List.forall_mem_cons
      _ ↔ pivot.Holds (z :: zs) ∧ zs = rest := and_congr_right hothers
      _ ↔ z :: zs = (pivot.constant - Scalar.dot pivot.coefficients.tail rest) / lead pivot ::
            rest := by
          rw [holds_cons_iff hpivot hpivotLength, List.cons.injEq]
          exact and_congr_left fun hzs => by rw [hzs]

/-! ## 3. Systems -/

omit [IsStrictOrderedRing K] in
theorem le_foldl_maxNum (xs : List K) (a : K) : a ≤ xs.foldl Scalar.maxNum a := by
  induction xs generalizing a with
  | nil => exact le_rfl
  | cons x xs ih => exact le_trans (Scalar.le_maxNum_left rfl rfl) (ih _)

/-- The diagonal counts as at least one, so that no accepted pivot is zero. -/
theorem pivotTolerance_mul_pos (es : List (Equation K)) :
    0 < pivotTolerance * diagonalScale es := by
  have hscale : 1 ≤ diagonalScale es := by
    rw [diagonalScale]
    exact le_of_eq_of_le Scalar.ofNat_one.symm (le_foldl_maxNum _ _)
  have htolerance : (0 : K) < pivotTolerance := by
    show (0 : K) < ((1 : Nat) : K) / 10 ^ 10
    positivity
  exact mul_pos htolerance (lt_of_lt_of_le one_pos hscale)

/-- **What is answered to a square system is its only solution.** -/
theorem solve_iff {es : List (Equation K)} (hes : ∀ e ∈ es, e.coefficients.length = es.length)
    {xs : List K} (h : solve es = some xs) {zs : List K} (hzs : zs.length = es.length) :
    (∀ e ∈ es, e.Holds zs) ↔ zs = xs :=
  eliminate_iff (pivotTolerance_mul_pos es) rfl hes (eliminate_of_solve h) hzs

end LinearSystem

end CodeCausality
