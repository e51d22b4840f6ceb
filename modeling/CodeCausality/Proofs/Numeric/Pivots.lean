import CodeCausality.Proofs.Numeric.LinearSystem
import CodeCausality.Proofs.Regression.Shape

/-!
# Which systems are refused

Elimination refuses a system for a small pivot. Over exact arithmetic there are two reasons for one:
the system has no unique solution, or it has one and the bound on the pivots is too large for it.

* `Regular` -- only zeros make all left-hand sides zero;
* `exists_setAside` -- **no leading coefficient is larger than the pivot's**;
* `regular_of_eliminate` -- what is eliminated is regular;
* `exists_eliminate_of_regular` -- **a regular system is solved, if only small enough pivots are
  refused**: by induction on the unknowns, a step keeps it regular and its pivot is not zero;
* `solve_eq` -- pivots are all that a system is refused for.
-/

namespace CodeCausality

variable {K : Type} [Field K] [LinearOrder K] [FloorSemiring K] [RootExp K]

/-! ## 1. Regular systems -/

/-- The equation with zero on its right. -/
def Equation.homogeneous (e : Equation K) : Equation K := ⟨e.coefficients, 0⟩

namespace LinearSystem

/-- Only zeros make all left-hand sides zero. -/
def Regular (n : Nat) (es : List (Equation K)) : Prop :=
  ∀ zs : List K, zs.length = n → (∀ e ∈ es, e.homogeneous.Holds zs) → ∀ z ∈ zs, z = 0

theorem homogeneous_reduce (pivot e : Equation K) :
    (reduce pivot e).homogeneous = reduce pivot.homogeneous e.homogeneous := by
  unfold reduce Equation.homogeneous
  dsimp only [lead]
  split
  · rfl
  · rw [mul_zero, sub_zero]

/-! ## 2. The pivot is the largest -/

/-- The equation at the position that is chosen has the largest leading coefficient. -/
theorem pivotFrom_spec (best : Nat) (top : K) (i : Nat) (es : List (Equation K)) :
    (pivotFrom best top i es = best ∧ ∀ e ∈ es, |lead e| ≤ top) ∨
      ∃ k e, pivotFrom best top i es = i + k ∧ es[k]? = some e ∧ top ≤ |lead e| ∧
        ∀ d ∈ es, |lead d| ≤ |lead e| := by
  induction es generalizing best top i with
  | nil => exact .inl ⟨rfl, fun e he => absurd he List.not_mem_nil⟩
  | cons e es ih =>
    rw [pivotFrom]
    split
    · rename_i hle
      have hle : top ≤ |lead e| := of_decide_eq_true hle
      right
      rcases ih i (Scalar.abs (lead e)) (i + 1) with ⟨heq, hall⟩ | ⟨k, d, heq, hd, htop, hall⟩
      · exact ⟨0, e, heq, rfl, hle, List.forall_mem_cons.mpr ⟨le_rfl, hall⟩⟩
      · exact ⟨k + 1, d, by rw [heq]; omega, hd, hle.trans htop,
          List.forall_mem_cons.mpr ⟨htop, hall⟩⟩
    · rename_i hlt
      have hlt : |lead e| ≤ top := le_of_not_ge fun h => hlt (decide_eq_true h)
      rcases ih best top (i + 1) with ⟨heq, hall⟩ | ⟨k, d, heq, hd, htop, hall⟩
      · exact .inl ⟨heq, List.forall_mem_cons.mpr ⟨hlt, hall⟩⟩
      · exact .inr ⟨k + 1, d, by rw [heq]; omega, hd, htop,
          List.forall_mem_cons.mpr ⟨hlt.trans htop, hall⟩⟩

/-- **No leading coefficient is larger than the pivot's.** -/
theorem exists_setAside {es : List (Equation K)} (hne : es ≠ []) :
    ∃ pivot others, setAside es = some (pivot, others) ∧ ∀ e ∈ es, |lead e| ≤ |lead pivot| := by
  obtain ⟨first, rest, rfl⟩ := List.exists_cons_of_ne_nil hne
  rw [setAside]
  rcases pivotFrom_spec 0 (Scalar.abs (lead first)) 1 rest with
    ⟨heq, hall⟩ | ⟨k, e, heq, he, htop, hall⟩
  · rw [heq]
    exact ⟨first, rest, rfl, List.forall_mem_cons.mpr ⟨le_rfl, hall⟩⟩
  · rw [heq, Nat.add_comm]
    dsimp only
    rw [he]
    exact ⟨e, _, rfl, List.forall_mem_cons.mpr ⟨htop, hall⟩⟩

/-! ## 3. Refusals -/

variable [IsStrictOrderedRing K]

/-- **What is eliminated is regular.** -/
theorem regular_of_eliminate {least : K} (hleast : 0 < least) {n : Nat} {es : List (Equation K)}
    (hes : es.length = n) (hlengths : ∀ e ∈ es, e.coefficients.length = n) {xs : List K}
    (h : eliminate least n es = some xs) : Regular n es := by
  intro zs hzs hzero
  have hxs := length_eliminate h
  have hholds := (eliminate_iff hleast hes hlengths h hxs).mpr rfl
  have hsum : (List.zipWith (fun a b => 1 * a + b) zs xs).length = n := by
    rw [List.length_zipWith, hzs, hxs, Nat.min_self]
  have hsame : List.zipWith (fun a b => 1 * a + b) zs xs = xs :=
    (eliminate_iff hleast hes hlengths h hsum).mp fun e he => by
      rw [Equation.Holds, Scalar.dot_comm, Scalar.dot_zipWith_add _ (hzs.trans hxs.symm),
        Scalar.dot_comm zs, Scalar.dot_comm xs]
      have hz : Scalar.dot e.coefficients zs = 0 := hzero e he
      rw [hz, mul_zero, zero_add]
      exact hholds e he
  intro z hz
  obtain ⟨i, hi, rfl⟩ := List.mem_iff_getElem.mp hz
  have hi' : i < xs.length := by omega
  have hat : (List.zipWith (fun a b => 1 * a + b) zs xs)[i]? = xs[i]? := by rw [hsame]
  simpa [List.getElem?_zipWith, hi, hi'] using hat

/-- A regular system has a pivot. -/
theorem lead_ne_zero_of_regular {n : Nat} {es : List (Equation K)} {pivot : Equation K}
    (hlengths : ∀ e ∈ es, e.coefficients.length = n + 1) (hregular : Regular (n + 1) es)
    (hlargest : ∀ e ∈ es, |lead e| ≤ |lead pivot|) : lead pivot ≠ 0 := by
  intro hzero
  have hleads : ∀ e ∈ es, lead e = 0 := fun e he =>
    abs_nonpos_iff.mp ((hlargest e he).trans_eq (by rw [hzero, abs_zero]))
  refine one_ne_zero (α := K) (hregular (1 :: List.replicate n 0) (by simp) (fun e he => ?_) 1
    List.mem_cons_self)
  obtain ⟨a, cs, hcs⟩ := List.exists_cons_of_length_eq_add_one (hlengths e he)
  have ha : a = 0 := by
    have := hleads e he
    rwa [lead, hcs] at this
  rw [Equation.Holds, Equation.homogeneous]
  dsimp only
  rw [hcs, Scalar.dot_cons, ha, zero_mul, zero_add, Scalar.dot_comm]
  exact Scalar.dot_eq_zero (fun a h => List.eq_of_mem_replicate h) cs

omit [IsStrictOrderedRing K] in
/-- A step keeps a system regular. -/
theorem regular_reduce {n : Nat} {es others : List (Equation K)} {pivot : Equation K}
    (hlengths : ∀ e ∈ es, e.coefficients.length = n + 1) (hperm : (pivot :: others).Perm es)
    (hpivot : lead pivot ≠ 0) (hregular : Regular (n + 1) es) :
    Regular n (others.map (reduce pivot)) := by
  intro zs hzs hzero
  have hpivotLength : pivot.homogeneous.coefficients.length = zs.length + 1 := by
    rw [hzs]
    exact hlengths pivot (hperm.subset List.mem_cons_self)
  have hlead : lead pivot.homogeneous ≠ 0 := hpivot
  obtain ⟨z, hz⟩ : ∃ z, pivot.homogeneous.Holds (z :: zs) :=
    ⟨_, (holds_cons_iff hlead hpivotLength).mpr rfl⟩
  have hall : ∀ e ∈ es, e.homogeneous.Holds (z :: zs) := by
    intro e he
    rcases List.mem_cons.mp (hperm.symm.subset he) with rfl | hother
    · exact hz
    · refine (holds_reduce_iff hlead hpivotLength ?_ hz).mp ?_
      · rw [hzs]
        exact hlengths e he
      · rw [← homogeneous_reduce]
        exact hzero _ (List.mem_map_of_mem hother)
  exact fun w hw => hregular (z :: zs) (congrArg (· + 1) hzs) hall w (List.mem_cons_of_mem _ hw)

/-- **A regular system is solved, if only small enough pivots are refused.** -/
theorem exists_eliminate_of_regular {n : Nat} {es : List (Equation K)} (hes : es.length = n)
    (hlengths : ∀ e ∈ es, e.coefficients.length = n) (hregular : Regular n es) :
    ∃ xs, ∃ bound > 0, ∀ least ≤ bound, eliminate least n es = some xs := by
  induction n generalizing es with
  | zero => exact ⟨[], 1, one_pos, fun _ _ => rfl⟩
  | succ n ih =>
    have hne : es ≠ [] := List.ne_nil_of_length_eq_add_one hes
    obtain ⟨pivot, others, haside, hlargest⟩ := exists_setAside hne
    have hperm := setAside_perm haside
    have hpivot := lead_ne_zero_of_regular hlengths hregular hlargest
    have hpivotLength := hlengths pivot (hperm.subset List.mem_cons_self)
    have hothers : (others.map (reduce pivot)).length = n := by
      rw [List.length_map]
      exact Nat.succ.inj (hperm.length_eq.trans hes)
    obtain ⟨rest, bound, hbound, hrest⟩ := ih hothers
      (List.forall_mem_map.mpr fun e he =>
        length_reduce hpivotLength (hlengths e (hperm.subset (List.mem_cons_of_mem _ he))))
      (regular_reduce hlengths hperm hpivot hregular)
    refine ⟨(pivot.constant - Scalar.dot pivot.coefficients.tail rest) / lead pivot :: rest,
      min bound |lead pivot|, lt_min hbound (abs_pos.mpr hpivot), fun least hle => ?_⟩
    obtain ⟨hbound, hlarge⟩ := le_min_iff.mp hle
    have hlarge : ¬ Scalar.abs (lead pivot) < least := not_lt_of_ge hlarge
    rw [eliminate, haside]
    dsimp only
    rw [if_neg hlarge, hrest least hbound]

omit [IsStrictOrderedRing K] in
/-- Over exact arithmetic a system is refused for its pivots alone. -/
theorem solve_eq {es : List (Equation K)} :
    solve es = eliminate (pivotTolerance * diagonalScale es) es.length es := by
  rw [solve]
  split
  · rename_i xs hxs
    rw [hxs, if_pos]
    exact List.all_eq_true.mpr fun _ _ => rfl
  · rename_i hnone
    exact hnone.symm

end LinearSystem

end CodeCausality
