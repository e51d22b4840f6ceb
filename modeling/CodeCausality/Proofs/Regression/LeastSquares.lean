import Mathlib.Tactic.Linarith
import CodeCausality.Proofs.Numeric.LinearSystem
import CodeCausality.Proofs.Regression.Moments
import CodeCausality.Proofs.Regression.Shape

/-!
# Least squares

Over exact arithmetic a fitted line is the one of least squared residuals.

* `dot_columns` -- multiplying by the columns of a table and then by weights is multiplying by the
  weighted rows;
* `holds_normalEquations_iff` -- **the normal equations say that the residuals are orthogonal to the
  columns**;
* `squaredResiduals_eq` -- **what another line has more in squares**: by orthogonality, the squares
  of what it predicts otherwise;
* `fitLinear_is_least` -- **the residuals of a fitted line, and that it is the least one.**
-/

namespace CodeCausality

namespace Regression

section Definitions

variable {α : Type} [Scalar α]

/-- By how much a line misses the targets. -/
def residuals (b : α) (cs : List α) (x : List (List α)) (y : List α) : List α :=
  List.zipWith (fun row target => target - linear b cs row) x y

/-- The sum of the squared residuals. -/
def squaredResiduals (b : α) (cs : List α) (x : List (List α)) (y : List α) : α :=
  Scalar.sum ((residuals b cs x y).map fun r => r * r)

end Definitions

variable {K : Type} [Field K] [LinearOrder K] [FloorSemiring K] [RootExp K]

/-! ## 1. Sums of products -/

theorem dot_sub {as bs : List K} (h : as.length = bs.length) (zs : List K) :
    Scalar.dot (List.zipWith (fun a b => a - b) as bs) zs =
      Scalar.dot as zs - Scalar.dot bs zs := by
  have hone := Scalar.dot_zipWith_sub 1 h zs
  simpa only [one_mul] using hone

/-- The square of a difference. -/
theorem dot_sub_self {as bs : List K} (h : as.length = bs.length) :
    Scalar.dot (List.zipWith (fun a b => a - b) as bs) (List.zipWith (fun a b => a - b) as bs) =
      Scalar.dot as as - 2 * Scalar.dot as bs + Scalar.dot bs bs := by
  rw [dot_sub h, Scalar.dot_comm as, Scalar.dot_comm bs, dot_sub h, dot_sub h,
    Scalar.dot_comm bs as]
  ring

theorem dot_self_eq (as : List K) : Scalar.dot as as = Scalar.sum (as.map fun a => a * a) := by
  rw [Scalar.dot, List.zipWith_self]

theorem dot_self_nonneg [IsStrictOrderedRing K] (as : List K) : 0 ≤ Scalar.dot as as := by
  induction as with
  | nil => exact (Scalar.dot_nil_left _).ge
  | cons a as ih =>
    rw [Scalar.dot_cons]
    exact add_nonneg (mul_self_nonneg a) ih

/-- Numbers without squares are zero. -/
theorem eq_zero_of_dot_self [IsStrictOrderedRing K] {as : List K} (h : Scalar.dot as as = 0) :
    ∀ a ∈ as, a = 0 := by
  induction as with
  | nil => exact fun a ha => absurd ha List.not_mem_nil
  | cons a as ih =>
    rw [Scalar.dot_cons] at h
    obtain ⟨hhead, htail⟩ :=
      (add_eq_zero_iff_of_nonneg (mul_self_nonneg a) (dot_self_nonneg as)).mp h
    exact List.forall_mem_cons.mpr ⟨mul_self_eq_zero.mp hhead, ih htail⟩

/-- Lists whose difference has no square are equal. -/
theorem eq_of_dot_sub_self [IsStrictOrderedRing K] {as bs : List K} (h : as.length = bs.length)
    (hzero : Scalar.dot (List.zipWith (fun a b => a - b) as bs)
      (List.zipWith (fun a b => a - b) as bs) = 0) : as = bs := by
  refine List.ext_getElem h fun i hi hi' => ?_
  have hlt : i < (List.zipWith (fun a b => a - b) as bs).length := by
    rw [List.length_zipWith]
    exact lt_min hi hi'
  have hat := eq_zero_of_dot_self hzero _ (List.getElem_mem hlt)
  rw [List.getElem_zipWith] at hat
  exact sub_eq_zero.mp hat

/-! ## 2. Columns -/

/-- Multiplying by the columns and then by weights is multiplying by the weighted rows. -/
theorem dot_columns {rows : List (List K)} {p : Nat} (hrows : ∀ row ∈ rows, row.length = p)
    {c : List K} (hc : c.length = rows.length) (zs : List K) :
    Scalar.dot ((columnsOf p rows).map (Scalar.dot c)) zs =
      Scalar.dot c (rows.map fun row => Scalar.dot row zs) := by
  induction rows generalizing c with
  | nil =>
    obtain rfl := List.length_eq_zero_iff.mp hc
    rw [Scalar.dot_nil_left]
    exact Scalar.dot_eq_zero (List.forall_mem_map.mpr fun _ _ => Scalar.dot_nil_left _) zs
  | cons row rows ih =>
    obtain ⟨a, c, rfl⟩ := List.exists_cons_of_length_eq_add_one hc
    have hrow : row.length = p := hrows row List.mem_cons_self
    have hcolumns : (columnsOf p (row :: rows)).map (Scalar.dot (a :: c)) =
        List.zipWith (fun u v => a * u + v) row ((columnsOf p rows).map (Scalar.dot c)) := by
      refine List.ext_getElem ?_ fun j hj hj' => ?_
      · rw [List.length_map, List.length_zipWith, List.length_map, length_columnsOf,
          length_columnsOf, hrow, Nat.min_self]
      · have hj : j < row.length := Nat.lt_of_lt_of_le hj' (by
          rw [List.length_zipWith]
          exact Nat.min_le_left _ _)
        simp only [columnsOf, columnOf, List.getElem_map, List.getElem_range,
          List.getElem_zipWith, List.map_cons, Scalar.dot_cons]
        rw [List.getD_eq_getElem?_getD, List.getElem?_eq_getElem hj, Option.getD_some]
    rw [hcolumns, Scalar.dot_zipWith_add _ (by rw [List.length_map, length_columnsOf, hrow]),
      ih (fun r hr => hrows r (List.mem_cons_of_mem _ hr)) (Nat.succ.inj hc), List.map_cons,
      Scalar.dot_cons]

/-- The columns of a table with ones in front: the ones, and the columns of the table. -/
theorem forall_mem_columnsOf_augment {x : List (List K)} {P : List K → Prop} :
    (∀ c ∈ columnsOf (width x + 1) (augment x), P c) ↔
      P (x.map fun _ => 1) ∧ ∀ j < width x, P (columnOf x j) := by
  have hones : columnOf (augment x) 0 = x.map fun _ => (1 : K) := by
    rw [columnOf, augment, List.map_map]
    exact List.map_congr_left fun _ _ => Scalar.ofNat_one
  have hcolumn (j : Nat) : columnOf (augment x) (j + 1) = columnOf x j := by
    rw [columnOf, augment, List.map_map]
    rfl
  rw [columnsOf, List.forall_mem_map, List.range_succ_eq_map, List.forall_mem_cons, hones,
    List.forall_mem_map]
  simp only [Nat.succ_eq_add_one, hcolumn, List.mem_range]

/-- Ones multiply to the sum. -/
theorem dot_ones {x : List (List K)} {rs : List K} (h : rs.length = x.length) :
    Scalar.dot (x.map fun _ => 1) rs = rs.sum := by
  induction x generalizing rs with
  | nil =>
    rw [List.length_eq_zero_iff.mp h]
    exact Scalar.dot_nil_left _
  | cons row x ih =>
    obtain ⟨r, rs, rfl⟩ := List.exists_cons_of_length_eq_add_one h
    rw [List.map_cons, Scalar.dot_cons, ih (Nat.succ.inj h), one_mul, List.sum_cons]

/-! ## 3. Normal equations -/

/-- What the line of an intercept and coefficients, in one list, predicts of each row. -/
def predictions (beta : List K) (x : List (List K)) : List K :=
  (augment x).map fun row => Scalar.dot row beta

theorem length_predictions (beta : List K) (x : List (List K)) :
    (predictions beta x).length = x.length := by
  rw [predictions, augment, List.length_map, List.length_map]

theorem predictions_cons (b : K) (cs : List K) (x : List (List K)) :
    predictions (b :: cs) x = x.map (linear b cs) := by
  rw [predictions, augment, List.map_map]
  refine List.map_congr_left fun row _ => ?_
  show Scalar.dot (Scalar.ofNat 1 :: row) (b :: cs) = linear b cs row
  rw [Scalar.dot_cons, Scalar.ofNat_one, one_mul, Scalar.dot_comm, linear]

theorem residuals_eq (b : K) (cs : List K) (x : List (List K)) (y : List K) :
    residuals b cs x y = List.zipWith (fun t p => t - p) y (predictions (b :: cs) x) := by
  rw [predictions_cons, List.zipWith_map_right, List.zipWith_comm, residuals]

section Lines

variable {x : List (List K)} {y : List K} (hx : ∀ row ∈ x, row.length = width x)
  (hy : y.length = x.length)

include hx in
theorem length_of_mem_augment : ∀ row ∈ augment x, row.length = width x + 1 :=
  List.forall_mem_map.mpr fun row hrow => congrArg (· + 1) (hx row hrow)

include hy in
theorem length_residuals (b : K) (cs : List K) : (residuals b cs x y).length = x.length := by
  rw [residuals, List.length_zipWith, hy, Nat.min_self]

include hy in
/-- What a column makes of the residuals. -/
theorem dot_residuals (b : K) (cs : List K) (c : List K) :
    Scalar.dot c (residuals b cs x y) =
      Scalar.dot c y - Scalar.dot c (predictions (b :: cs) x) := by
  rw [residuals_eq, Scalar.dot_comm, dot_sub (hy.trans (length_predictions _ _).symm),
    Scalar.dot_comm y, Scalar.dot_comm (predictions _ _)]

include hx hy

/-- **The normal equations say that the residuals are orthogonal to the columns.** -/
theorem holds_normalEquations_iff {b : K} {cs : List K} :
    (∀ e ∈ normalEquations x y, e.Holds (b :: cs)) ↔
      (residuals b cs x y).sum = 0 ∧
        ∀ j < width x, Scalar.dot (columnOf x j) (residuals b cs x y) = 0 := by
  have hequation : ∀ c ∈ columnsOf (width x + 1) (augment x),
      (Equation.Holds ⟨(columnsOf (width x + 1) (augment x)).map (Scalar.dot c),
        Scalar.dot c y⟩ (b :: cs) ↔ Scalar.dot c (residuals b cs x y) = 0) := by
    refine List.forall_mem_map.mpr fun j _ => ?_
    have hc : (columnOf (augment x) j).length = (augment x).length := List.length_map _
    rw [Equation.Holds, dot_columns (length_of_mem_augment hx) hc, dot_residuals hy, sub_eq_zero,
      eq_comm]
    rfl
  rw [normalEquations_eq, List.forall_mem_map, forall₂_congr hequation,
    forall_mem_columnsOf_augment, dot_ones (length_residuals hy b cs)]

/-- Residuals that are orthogonal to the columns are so to everything that lines predict. -/
theorem dot_residuals_predictions {b : K} {cs : List K}
    (h : ∀ e ∈ normalEquations x y, e.Holds (b :: cs)) (beta : List K) :
    Scalar.dot (residuals b cs x y) (predictions beta x) = 0 := by
  have horthogonal := (holds_normalEquations_iff hx hy).mp h
  rw [← dot_ones (length_residuals hy b cs),
    ← forall_mem_columnsOf_augment (P := fun c => Scalar.dot c (residuals b cs x y) = 0)]
    at horthogonal
  have hc : (residuals b cs x y).length = (augment x).length := by
    rw [length_residuals hy, augment, List.length_map]
  rw [predictions, ← dot_columns (length_of_mem_augment hx) hc]
  exact Scalar.dot_eq_zero (List.forall_mem_map.mpr fun c hmem =>
    (Scalar.dot_comm _ _).trans (horthogonal c hmem)) beta

omit hx in
theorem squaredResiduals_eq_dot (b : K) (cs : List K) :
    squaredResiduals b cs x y =
      Scalar.dot y y - 2 * Scalar.dot y (predictions (b :: cs) x) +
        Scalar.dot (predictions (b :: cs) x) (predictions (b :: cs) x) := by
  rw [squaredResiduals, ← dot_self_eq, residuals_eq,
    dot_sub_self (hy.trans (length_predictions _ _).symm)]

/-- **What another line has more in squares** are the squares of what it predicts otherwise. -/
theorem squaredResiduals_eq {b : K} {cs : List K}
    (h : ∀ e ∈ normalEquations x y, e.Holds (b :: cs)) (b' : K) (cs' : List K) :
    squaredResiduals b' cs' x y = squaredResiduals b cs x y +
      Scalar.dot
        (List.zipWith (fun p q => p - q) (predictions (b :: cs) x) (predictions (b' :: cs') x))
        (List.zipWith (fun p q => p - q) (predictions (b :: cs) x) (predictions (b' :: cs') x)) := by
  have hlength : (predictions (b :: cs) x).length = (predictions (b' :: cs') x).length := by
    rw [length_predictions, length_predictions]
  have hself := dot_residuals_predictions hx hy h (b :: cs)
  have hother := dot_residuals_predictions hx hy h (b' :: cs')
  rw [residuals_eq, dot_sub (hy.trans (length_predictions _ _).symm)] at hself hother
  rw [squaredResiduals_eq_dot hy, squaredResiduals_eq_dot hy, dot_sub_self hlength]
  linear_combination 2 * hself - 2 * hother

omit hx in
/-- A line that the targets lie on has no squares. -/
theorem squaredResiduals_eq_zero {b : K} {cs : List K} (h : y = x.map (linear b cs)) :
    squaredResiduals b cs x y = 0 := by
  rw [squaredResiduals_eq_dot hy, predictions_cons, ← h]
  ring

omit hx hy in
/-- The normal equations are as many as the unknowns. -/
theorem length_coefficients_normalEquations :
    ∀ e ∈ normalEquations x y, e.coefficients.length = (normalEquations x y).length := by
  rw [length_normalEquations, normalEquations_eq]
  refine List.forall_mem_map.mpr fun c _ => ?_
  rw [List.length_map, length_columnsOf]

/-! ## 4. Fitted lines -/

variable [IsStrictOrderedRing K]

/-- **A line that solves the normal equations has the fewest squares**, and another with as few
solves them too: it predicts the same. -/
theorem squaredResiduals_le {b : K} {cs : List K}
    (h : ∀ e ∈ normalEquations x y, e.Holds (b :: cs)) (b' : K) (cs' : List K) :
    squaredResiduals b cs x y ≤ squaredResiduals b' cs' x y ∧
      (squaredResiduals b' cs' x y ≤ squaredResiduals b cs x y →
        ∀ e ∈ normalEquations x y, e.Holds (b' :: cs')) := by
  have hmore := squaredResiduals_eq hx hy h b' cs'
  have hnonneg := dot_self_nonneg (List.zipWith (fun p q => p - q)
    (predictions (b :: cs) x) (predictions (b' :: cs') x))
  refine ⟨hmore ▸ le_add_of_nonneg_right hnonneg, fun hle => ?_⟩
  have hsame : predictions (b :: cs) x = predictions (b' :: cs') x :=
    eq_of_dot_sub_self ((length_predictions _ _).trans (length_predictions _ _).symm)
      (le_antisymm (by linarith) hnonneg)
  have hresiduals : residuals b' cs' x y = residuals b cs x y := by
    rw [residuals_eq, residuals_eq, hsame]
  rw [holds_normalEquations_iff hx hy, hresiduals, ← holds_normalEquations_iff hx hy]
  exact h

/-- **A fitted line is the one of least squared residuals.** It solves the equations that are
accumulated row by row. The residuals sum to zero and are orthogonal to every feature, no other
intercept and coefficients have fewer squares or as few, and where the targets lie on a line, it is
this line. -/
theorem fitLinear_is_least {p : Predictor K} (h : fitLinear x y = some p) :
    ∃ b cs, p = .linear b cs ∧ cs.length = width x ∧
      LinearSystem.solve ((accumulate x y).equations (width x + 1)) = some (b :: cs) ∧
      (residuals b cs x y).sum = 0 ∧
      (∀ j < width x, Scalar.dot (columnOf x j) (residuals b cs x y) = 0) ∧
      (∀ b' cs', cs'.length = width x →
        squaredResiduals b cs x y ≤ squaredResiduals b' cs' x y ∧
        (squaredResiduals b' cs' x y ≤ squaredResiduals b cs x y → b' = b ∧ cs' = cs)) ∧
      ∀ b₀ cs₀, cs₀.length = width x → y = x.map (linear b₀ cs₀) → b = b₀ ∧ cs = cs₀ := by
  obtain ⟨beta, hbeta, rfl⟩ := Option.map_eq_some_iff.mp h
  have hlength : beta.length = width x + 1 :=
    (LinearSystem.length_solve hbeta).trans (length_normalEquations x y)
  obtain ⟨b, cs, rfl⟩ := List.exists_cons_of_length_eq_add_one hlength
  have hunique (b' : K) (cs' : List K) (hcs' : cs'.length = width x) :
      (∀ e ∈ normalEquations x y, e.Holds (b' :: cs')) ↔ b' :: cs' = b :: cs :=
    LinearSystem.solve_iff length_coefficients_normalEquations hbeta
      ((congrArg (· + 1) hcs').trans (length_normalEquations x y).symm)
  have hcs : cs.length = width x := Nat.succ.inj hlength
  have hholds : ∀ e ∈ normalEquations x y, e.Holds (b :: cs) := (hunique b cs hcs).mpr rfl
  have hleast (b' : K) (cs' : List K) (hcs' : cs'.length = width x) :
      squaredResiduals b cs x y ≤ squaredResiduals b' cs' x y ∧
        (squaredResiduals b' cs' x y ≤ squaredResiduals b cs x y → b' = b ∧ cs' = cs) := by
    obtain ⟨hle, hsolves⟩ := squaredResiduals_le hx hy hholds b' cs'
    exact ⟨hle, fun hfew => List.cons.inj ((hunique b' cs' hcs').mp (hsolves hfew))⟩
  obtain ⟨hsum, hcolumns⟩ := (holds_normalEquations_iff hx hy).mp hholds
  refine ⟨b, cs, rfl, hcs, ?_, hsum, hcolumns, hleast, fun b₀ cs₀ hcs₀ hline => ?_⟩
  · rw [equations_accumulate mul_comm hx hy]
    exact hbeta
  have hzero : squaredResiduals b₀ cs₀ x y ≤ squaredResiduals b cs x y := by
    rw [squaredResiduals_eq_zero hy hline, squaredResiduals, ← dot_self_eq]
    exact dot_self_nonneg _
  obtain ⟨hb, hcs⟩ := (hleast b₀ cs₀ hcs₀).2 hzero
  exact ⟨hb.symm, hcs.symm⟩

end Lines

/-- Four rows of two features. -/
def fourRows : List (List ℚ) := [[0, 1], [1, 0], [2, 5], [3, 3]]

/-- The plane that four targets lie on is found. -/
theorem fitLinear_is_least_plane :
    fitLinear fourRows [4, 3, 20, 16] = some (.linear 1 [2, 3]) ∧
      ∀ b' cs', cs'.length = 2 → squaredResiduals b' cs' fourRows [4, 3, 20, 16] ≤ 0 →
        b' = 1 ∧ cs' = [2, 3] := by
  have hrows : ∀ row ∈ fourRows, row.length = width fourRows := by decide
  obtain ⟨p, hp⟩ : ∃ p, fitLinear fourRows [4, 3, 20, 16] = some p :=
    Option.isSome_iff_exists.mp (by decide +kernel)
  obtain ⟨b, cs, rfl, -, -, -, -, hleast, hline⟩ := fitLinear_is_least hrows rfl hp
  obtain ⟨rfl, rfl⟩ := hline 1 [2, 3] rfl (by decide +kernel)
  refine ⟨hp, fun b' cs' hcs' hle => (hleast b' cs' hcs').2 ?_⟩
  exact hle.trans_eq (by decide +kernel)

end Regression

end CodeCausality
