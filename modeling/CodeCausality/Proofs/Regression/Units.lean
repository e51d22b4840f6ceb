import Mathlib.Tactic.FieldSimp
import CodeCausality.Proofs.Numeric.Pivots
import CodeCausality.Proofs.Regression.LeastSquares

/-!
# Units

A feature may be measured in any unit. Over exact arithmetic a fitted line is the same in all of
them, but whether there is one is not: pivots are compared with a fixed tolerance, and units change
pivots.

* `holds_scaleColumn_iff` -- **the equations of a scaled column hold of what is scaled back**;
* `independent_scaleColumn_iff` -- units do not matter to independence of the columns;
* `regular_normalEquations_iff` -- **the normal equations are regular exactly if the columns are
  independent**;
* `fitAbove`, `fitLinear_eq_fitAbove` -- a fit with any bound on the pivots, that of the library
  among them;
* `sameLine_of_fitAbove`, `isSome_fitAbove_iff` -- **where there is a fit in both units it is one
  line, and with small enough bounds there is one in both or in none**;
* `fits_in_other_units` -- what follows for a fit; `refused_in_other_units` -- what does not.
-/

namespace CodeCausality

namespace Regression

section Definitions

variable {α : Type} [Scalar α]

/-- The table with column `j` in other units, of which `c` make one of before. -/
def scaleColumn (j : Nat) (c : α) (x : List (List α)) : List (List α) :=
  x.map fun row => row.modify j (· * c)

end Definitions

variable {K : Type} [Field K] [LinearOrder K] [FloorSemiring K] [RootExp K]

/-- No combination of the columns, with ones as the first of them, is zero but the one of zeros. -/
def Independent (x : List (List K)) : Prop :=
  ∀ zs : List K, zs.length = width x + 1 → (∀ row ∈ augment x, Scalar.dot row zs = 0) →
    ∀ z ∈ zs, z = 0

/-! ## 1. Products with a scaled factor -/

theorem dot_map_mul (c : K) (as zs : List K) :
    Scalar.dot (as.map (· * c)) zs = c * Scalar.dot as zs := by
  induction as generalizing zs with
  | nil => rw [List.map_nil, Scalar.dot_nil_left, mul_zero]
  | cons a as ih =>
    cases zs with
    | nil => rw [Scalar.dot_nil_right, Scalar.dot_nil_right, mul_zero]
    | cons z zs =>
      rw [List.map_cons, Scalar.dot_cons, Scalar.dot_cons, ih]
      ring

/-- What one factor gains the other loses. -/
theorem dot_modify {c : K} (hc : c ≠ 0) (i : Nat) (as zs : List K) :
    Scalar.dot (as.modify i (· * c)) (zs.modify i (· / c)) = Scalar.dot as zs := by
  induction as generalizing i zs with
  | nil => rw [List.modify_nil, Scalar.dot_nil_left, Scalar.dot_nil_left]
  | cons a as ih =>
    cases zs with
    | nil => rw [List.modify_nil, Scalar.dot_nil_right, Scalar.dot_nil_right]
    | cons z zs =>
      cases i with
      | zero =>
        rw [List.modify_zero_cons, List.modify_zero_cons, Scalar.dot_cons, Scalar.dot_cons]
        field_simp
      | succ i =>
        rw [List.modify_succ_cons, List.modify_succ_cons, Scalar.dot_cons, Scalar.dot_cons, ih]

theorem map_dot_modify (c : K) (i : Nat) (d : List K) (columns : List (List K)) :
    (columns.modify i (List.map (· * c))).map (Scalar.dot d) =
      (columns.map (Scalar.dot d)).modify i (· * c) := by
  refine List.ext_getElem (by simp) fun k hk hk' => ?_
  rw [List.getElem_map, List.getElem_modify, List.getElem_modify, List.getElem_map]
  split
  · rw [Scalar.dot_comm, dot_map_mul, Scalar.dot_comm, mul_comm]
  · rfl

theorem forall_mem_modify {β : Type} {P : β → Prop} {f : β → β} (h : ∀ b, P (f b) ↔ P b) (i : Nat)
    (bs : List β) : (∀ b ∈ bs.modify i f, P b) ↔ ∀ b ∈ bs, P b := by
  induction bs generalizing i with
  | nil => rw [List.modify_nil]
  | cons b bs ih =>
    cases i with
    | zero => rw [List.modify_zero_cons, List.forall_mem_cons, List.forall_mem_cons, h]
    | succ i => rw [List.modify_succ_cons, List.forall_mem_cons, List.forall_mem_cons, ih]

/-! ## 2. Scaled columns -/

theorem width_scaleColumn (j : Nat) (c : K) (x : List (List K)) :
    width (scaleColumn j c x) = width x := by
  cases x with
  | nil => rfl
  | cons row x => exact List.length_modify _ _ _

theorem augment_scaleColumn (j : Nat) (c : K) (x : List (List K)) :
    augment (scaleColumn j c x) = scaleColumn (j + 1) c (augment x) := by
  rw [augment, augment, scaleColumn, scaleColumn, List.map_map, List.map_map]
  rfl

theorem columnOf_scaleColumn (j : Nat) (c : K) (x : List (List K)) (k : Nat) :
    columnOf (scaleColumn j c x) k =
      if j = k then (columnOf x k).map (· * c) else columnOf x k := by
  have hentry (row : List K) : (row.modify j (· * c)).getD k (Scalar.ofNat 0) =
      if j = k then row.getD k (Scalar.ofNat 0) * c else row.getD k (Scalar.ofNat 0) := by
    rw [List.getD_eq_getElem?_getD, List.getD_eq_getElem?_getD, List.getElem?_modify,
      Scalar.ofNat_zero]
    cases row[k]? with
    | none => simp
    | some v => rfl
  rw [columnOf, columnOf, scaleColumn, List.map_map]
  split
  · rename_i hjk
    rw [List.map_map]
    exact List.map_congr_left fun row _ => (hentry row).trans (if_pos hjk)
  · rename_i hjk
    exact List.map_congr_left fun row _ => (hentry row).trans (if_neg hjk)

theorem columnsOf_scaleColumn (p j : Nat) (c : K) (x : List (List K)) :
    columnsOf p (scaleColumn j c x) = (columnsOf p x).modify j (List.map (· * c)) := by
  refine List.ext_getElem (by simp [columnsOf]) fun k hk hk' => ?_
  rw [List.getElem_modify]
  simp only [columnsOf, List.getElem_map, List.getElem_range, columnOf_scaleColumn]

/-- **Equations of scaled columns hold of what is scaled back.** -/
theorem holds_scaleColumn_iff {c : K} (hc : c ≠ 0) (j : Nat) (x : List (List K)) (y zs : List K) :
    (∀ e ∈ normalEquations (scaleColumn j c x) y, e.Holds (zs.modify (j + 1) (· / c))) ↔
      ∀ e ∈ normalEquations x y, e.Holds zs := by
  rw [normalEquations_eq, normalEquations_eq, width_scaleColumn, augment_scaleColumn,
    columnsOf_scaleColumn, List.forall_mem_map, List.forall_mem_map]
  have hcolumn (d : List K) : Equation.Holds
      ⟨((columnsOf (width x + 1) (augment x)).modify (j + 1) (List.map (· * c))).map
        (Scalar.dot d), Scalar.dot d y⟩ (zs.modify (j + 1) (· / c)) ↔
      Equation.Holds ⟨(columnsOf (width x + 1) (augment x)).map (Scalar.dot d), Scalar.dot d y⟩
        zs := by
    rw [Equation.Holds, map_dot_modify, dot_modify hc]
    rfl
  simp only [hcolumn]
  refine forall_mem_modify (fun d => ?_) _ _
  -- an equation times a number says what the equation says
  rw [Equation.Holds, Equation.Holds]
  dsimp only
  have hrow : (columnsOf (width x + 1) (augment x)).map (Scalar.dot (d.map (· * c))) =
      ((columnsOf (width x + 1) (augment x)).map (Scalar.dot d)).map (· * c) := by
    rw [List.map_map]
    exact List.map_congr_left fun e _ => (dot_map_mul c d e).trans (mul_comm _ _)
  rw [hrow, dot_map_mul, dot_map_mul, mul_right_inj' hc]

/-! ## 3. Independent columns -/

section Independence

variable {x : List (List K)}

theorem independent_of_scaleColumn {c : K} (hc : c ≠ 0) {j : Nat}
    (h : Independent (scaleColumn j c x)) : Independent x := by
  intro zs hzs hzero
  refine (forall_mem_modify (fun z => div_eq_zero_iff.trans (or_iff_left hc)) (j + 1) zs).mp ?_
  refine h _ ?_ ?_
  · rw [List.length_modify, hzs, width_scaleColumn]
  · rw [augment_scaleColumn]
    exact List.forall_mem_map.mpr fun row hrow => (dot_modify hc _ _ _).trans (hzero row hrow)

theorem scaleColumn_scaleColumn {c : K} (hc : c ≠ 0) (j : Nat) (x : List (List K)) :
    scaleColumn j c⁻¹ (scaleColumn j c x) = x := by
  rw [scaleColumn, scaleColumn, List.map_map]
  refine (List.map_congr_left fun row _ => ?_).trans (List.map_id x)
  rw [Function.comp_apply, List.modify_modify_eq]
  have hid : (fun v : K => v * c⁻¹) ∘ (fun v => v * c) = id :=
    funext fun v => mul_inv_cancel_right₀ hc v
  rw [hid, List.modify_id, id]

/-- **Units do not matter to independence.** -/
theorem independent_scaleColumn_iff {c : K} (hc : c ≠ 0) {j : Nat} :
    Independent (scaleColumn j c x) ↔ Independent x := by
  refine ⟨independent_of_scaleColumn hc, fun h => ?_⟩
  refine independent_of_scaleColumn (inv_ne_zero hc) (j := j) ?_
  rw [scaleColumn_scaleColumn hc]
  exact h

variable [IsStrictOrderedRing K]

omit [Field K] [LinearOrder K] [FloorSemiring K] [RootExp K] [IsStrictOrderedRing K] in
theorem length_of_mem_columnsOf {α : Type} [Scalar α] {p : Nat} {rows : List (List α)}
    {c : List α} (hc : c ∈ columnsOf p rows) : c.length = rows.length := by
  obtain ⟨j, -, rfl⟩ := List.mem_map.mp hc
  exact List.length_map _

/-- **The normal equations are regular exactly if the columns are independent**: what the columns
make zero of has no squares. -/
theorem regular_normalEquations_iff (hx : ∀ row ∈ x, row.length = width x) (y : List K) :
    LinearSystem.Regular (width x + 1) (normalEquations x y) ↔ Independent x := by
  refine forall₂_congr fun zs hzs => imp_congr_left ?_
  have hcolumn (c : List K) (hc : c.length = (augment x).length) :
      Equation.Holds (Equation.homogeneous
        ⟨(columnsOf (width x + 1) (augment x)).map (Scalar.dot c), Scalar.dot c y⟩) zs ↔
      Scalar.dot c (predictions zs x) = 0 := by
    rw [Equation.Holds, Equation.homogeneous, dot_columns (length_of_mem_augment hx) hc]
    rfl
  rw [normalEquations_eq, List.forall_mem_map]
  constructor
  · intro h
    have hself : Scalar.dot (predictions zs x) (predictions zs x) = 0 := by
      have hlength : (predictions zs x).length = (augment x).length := List.length_map _
      have hzero : ∀ d ∈ (columnsOf (width x + 1) (augment x)).map
          (Scalar.dot (predictions zs x)), d = 0 := by
        refine List.forall_mem_map.mpr fun c hc => ?_
        rw [Scalar.dot_comm]
        exact (hcolumn c (length_of_mem_columnsOf hc)).mp (h c hc)
      exact (dot_columns (length_of_mem_augment hx) hlength zs).symm.trans
        (Scalar.dot_eq_zero hzero zs)
    exact List.forall_mem_map.mp (eq_zero_of_dot_self hself)
  · intro h c hc
    refine (hcolumn c (length_of_mem_columnsOf hc)).mpr ?_
    rw [Scalar.dot_comm]
    exact Scalar.dot_eq_zero (List.forall_mem_map.mpr h) c

end Independence

/-! ## 4. Fits in other units -/

/-- The line that is fitted if pivots below `least` are refused. -/
def fitAbove {α : Type} [Scalar α] (least : α) (x : List (List α)) (y : List α) :
    Option (Predictor α) :=
  (LinearSystem.eliminate least (width x + 1) (normalEquations x y)).map fun beta =>
    let (b, cs) := splitIntercept beta
    .linear b cs

/-- The pivots that a fit refuses: those below the tolerance, times the largest entry of the
diagonal. -/
def leastPivot {α : Type} [Scalar α] (x : List (List α)) (y : List α) : α :=
  LinearSystem.pivotTolerance * LinearSystem.diagonalScale (normalEquations x y)

/-- One line in two units of column `j`: its coefficient makes up for the unit, and all predictions
are the same. -/
def SameLine (j : Nat) (c : K) (p q : Predictor K) : Prop :=
  ∃ b cs, p = .linear b cs ∧ q = .linear b (cs.modify j (· / c)) ∧
    ∀ row : List K, q.predict (row.modify j (· * c)) = p.predict row

theorem sameLine_linear {c : K} (hc : c ≠ 0) (j : Nat) (b : K) (cs : List K) :
    SameLine j c (.linear b cs) (.linear b (cs.modify j (· / c))) := by
  refine ⟨b, cs, rfl, rfl, fun row => ?_⟩
  rw [Predictor.predict, Predictor.predict, linear, linear, Scalar.dot_comm, dot_modify hc,
    Scalar.dot_comm]

theorem length_of_mem_normalEquations (x : List (List K)) (y : List K) :
    ∀ e ∈ normalEquations x y, e.coefficients.length = width x + 1 := fun e he =>
  (length_coefficients_normalEquations e he).trans (length_normalEquations x y)

theorem fitLinear_eq_fitAbove (x : List (List K)) (y : List K) :
    fitLinear x y = fitAbove (leastPivot x y) x y := by
  rw [fitLinear, LinearSystem.solve_eq, length_normalEquations]
  rfl

section Fits

variable [IsStrictOrderedRing K] {x : List (List K)} {y : List K} {least least' c : K} {j : Nat}
  {p q : Predictor K}

theorem leastPivot_pos (x : List (List K)) (y : List K) : 0 < leastPivot x y :=
  LinearSystem.pivotTolerance_mul_pos _

/-- **Where there is a fit in both units, it is one line**, whatever pivots were refused: the
equations have one solution each, and that of the one scaled back solves the other. -/
theorem sameLine_of_fitAbove (hleast : 0 < least) (hleast' : 0 < least') (hc : c ≠ 0)
    (hp : fitAbove least x y = some p) (hq : fitAbove least' (scaleColumn j c x) y = some q) :
    SameLine j c p q := by
  obtain ⟨beta, hbeta, rfl⟩ := Option.map_eq_some_iff.mp hp
  obtain ⟨beta', hbeta', rfl⟩ := Option.map_eq_some_iff.mp hq
  have hlength := LinearSystem.length_eliminate hbeta
  have hsolves : ∀ e ∈ normalEquations x y, e.Holds beta :=
    (LinearSystem.eliminate_iff hleast (length_normalEquations x y)
      (length_of_mem_normalEquations x y) hbeta hlength).mpr rfl
  have hsame : beta.modify (j + 1) (· / c) = beta' :=
    (LinearSystem.eliminate_iff hleast' (length_normalEquations _ y)
      (length_of_mem_normalEquations _ y) hbeta'
      (by rw [List.length_modify, hlength, width_scaleColumn])).mp
      ((holds_scaleColumn_iff hc j x y beta).mpr hsolves)
  obtain ⟨b, cs, rfl⟩ := List.exists_cons_of_length_eq_add_one hlength
  rw [← hsame]
  exact sameLine_linear hc j b cs

/-- A fit needs independent columns. -/
theorem independent_of_fitAbove (hx : ∀ row ∈ x, row.length = width x) (hleast : 0 < least)
    (hp : fitAbove least x y = some p) : Independent x := by
  obtain ⟨beta, hbeta, -⟩ := Option.map_eq_some_iff.mp hp
  exact (regular_normalEquations_iff hx y).mp (LinearSystem.regular_of_eliminate hleast
    (length_normalEquations x y) (length_of_mem_normalEquations x y) hbeta)

/-- **Independent columns are all it needs, if only small enough pivots are refused.** -/
theorem isSome_fitAbove_iff (hx : ∀ row ∈ x, row.length = width x) (y : List K) :
    ∃ bound > 0, ∀ least, 0 < least → least ≤ bound →
      ((fitAbove least x y).isSome = true ↔ Independent x) := by
  by_cases h : Independent x
  · obtain ⟨beta, bound, hbound, hsolve⟩ := LinearSystem.exists_eliminate_of_regular
      (length_normalEquations x y) (length_of_mem_normalEquations x y)
      ((regular_normalEquations_iff hx y).mpr h)
    refine ⟨bound, hbound, fun least _ hle => iff_of_true ?_ h⟩
    rw [fitAbove, hsolve least hle]
    rfl
  · refine ⟨1, one_pos, fun least hleast _ => iff_of_false (fun hsome => h ?_) h⟩
    obtain ⟨p, hp⟩ := Option.isSome_iff_exists.mp hsome
    exact independent_of_fitAbove hx hleast hp

/-- Dependent columns have no fit. -/
theorem fitLinear_eq_none (hx : ∀ row ∈ x, row.length = width x) (h : ¬ Independent x) :
    fitLinear x y = none := by
  rw [fitLinear_eq_fitAbove]
  exact Option.eq_none_iff_forall_ne_some.mpr fun p hp =>
    h (independent_of_fitAbove hx (leastPivot_pos x y) hp)

/-- **A fitted line does not depend on the units; that there is one does, through the tolerance on
pivots alone.** A fit in both units is one line. Dependent columns have no fit in either. With any
bound on the pivots that is small enough there is a fit in both units or in none, and the columns'
independence decides. -/
theorem fits_in_other_units (hx : ∀ row ∈ x, row.length = width x) (hc : c ≠ 0) (j : Nat)
    (y : List K) :
    (∀ p q, fitLinear x y = some p → fitLinear (scaleColumn j c x) y = some q →
      SameLine j c p q) ∧
    (¬ Independent x → fitLinear x y = none ∧ fitLinear (scaleColumn j c x) y = none) ∧
    fitLinear x y = fitAbove (leastPivot x y) x y ∧
    ∃ bound > 0, ∀ least, 0 < least → least ≤ bound →
      ((fitAbove least (scaleColumn j c x) y).isSome = true ↔
        (fitAbove least x y).isSome = true) ∧
      ((fitAbove least x y).isSome = true ↔ Independent x) ∧
      ∀ p q, fitAbove least x y = some p → fitAbove least (scaleColumn j c x) y = some q →
        SameLine j c p q := by
  have hx' : ∀ row ∈ scaleColumn j c x, row.length = width (scaleColumn j c x) := by
    rw [width_scaleColumn]
    exact List.forall_mem_map.mpr fun row hrow => (List.length_modify _ _ _).trans (hx row hrow)
  have hindependent : Independent (scaleColumn j c x) ↔ Independent x :=
    independent_scaleColumn_iff hc
  obtain ⟨bound, hbound, hsmall⟩ := isSome_fitAbove_iff hx y
  obtain ⟨bound', hbound', hsmall'⟩ := isSome_fitAbove_iff hx' y
  refine ⟨fun p q hp hq => ?_, fun h => ⟨fitLinear_eq_none hx h, fitLinear_eq_none hx'
    (hindependent.not.mpr h)⟩, fitLinear_eq_fitAbove x y, min bound bound', lt_min hbound hbound',
    fun least hleast hle => ?_⟩
  · rw [fitLinear_eq_fitAbove] at hp hq
    exact sameLine_of_fitAbove (leastPivot_pos x y) (leastPivot_pos _ y) hc hp hq
  · obtain ⟨hle, hle'⟩ := le_min_iff.mp hle
    have hsome := hsmall least hleast hle
    exact ⟨(hsmall' least hleast hle').trans (hindependent.trans hsome.symm), hsome,
      fun p q hp hq => sameLine_of_fitAbove hleast hleast hc hp hq⟩

end Fits

/-- The plane of four rows is found in units of its second feature that are twice as large. -/
theorem fits_in_other_units_plane : ∃ p q,
    fitLinear fourRows [4, 3, 20, 16] = some p ∧
      fitLinear (scaleColumn 1 (1 / 2) fourRows) [4, 3, 20, 16] = some q ∧
      SameLine 1 (1 / 2) p q := by
  obtain ⟨p, hp⟩ : ∃ p, fitLinear fourRows [4, 3, 20, 16] = some p :=
    Option.isSome_iff_exists.mp (by decide +kernel)
  obtain ⟨q, hq⟩ : ∃ q, fitLinear (scaleColumn 1 (1 / 2) fourRows) [4, 3, 20, 16] = some q :=
    Option.isSome_iff_exists.mp (by decide +kernel)
  obtain ⟨hsame, -⟩ := fits_in_other_units (x := fourRows) (by decide) (c := 1 / 2)
    (by norm_num) 1 [4, 3, 20, 16]
  exact ⟨p, q, hp, hq, hsame p q hp hq⟩

/-- Ten rows of one feature. -/
def tenRows : List (List ℚ) := (List.range 10).map fun i => [(i : ℚ)]

/-- **In other units a line is refused**: the one of ten rows is, if the feature comes in units that
are a million times as large. -/
theorem refused_in_other_units :
    (1 / 2 ^ 20 : ℚ) ≠ 0 ∧
      (fitLinear tenRows [1, 4, 4, 8, 8, 12, 13, 14, 18, 18]).isSome = true ∧
      fitLinear (scaleColumn 0 (1 / 2 ^ 20) tenRows) [1, 4, 4, 8, 8, 12, 13, 14, 18, 18] =
        none := by
  refine ⟨by norm_num, by decide +kernel, ?_⟩
  rw [← Option.not_isSome_iff_eq_none]
  decide +kernel

end Regression

end CodeCausality
