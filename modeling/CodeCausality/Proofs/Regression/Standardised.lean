import CodeCausality.Proofs.Numeric.LinearSystem
import CodeCausality.Proofs.Regression.Shape

/-!
# Weights learned on standardised features

Class weights are learned where every column has its mean at zero and its spread as the unit, and
are used on raw features. Over exact arithmetic the way back loses nothing. The exponential may be
any function; of the root it matters that it is positive on positive numbers.

* `spreads_ofTable` -- the spread of each column; `spreads_pos` -- **no column is divided by zero**,
  `spread_of_constant` -- and one that does not vary is divided by one;
* `linear_toRaw` -- one class: **by induction on the columns, what a weight and an intercept lose to
  the spread and the mean is what the standardised feature has lost to them**;
* `logits_toRaw` -- all classes;
* `raw_weights_predict_as_learned` -- so a fitted predictor gives on every raw row what the learned
  weights give on the standardised one.
-/

namespace CodeCausality

namespace Regression

variable {K : Type} [Field K] [LinearOrder K] [FloorSemiring K] [RootExp K]

/-! ## 1. Spreads -/

section Spreads

variable {α : Type} [Scalar α]

/-- The mean square of a column of `n` entries about its mean. -/
def columnVariance (n : α) (c : List α) : α :=
  Scalar.sum (c.map fun v => Scalar.square (v - Scalar.sum c / n)) / n

/-- The spread of a column, one if it does not vary. -/
def columnSpread (n : α) (c : List α) : α :=
  if 0 < columnVariance n c then Scalar.sqrt (columnVariance n c) else 1

theorem spreads_ofTable (x : List (List α)) :
    (Standard.ofTable x).spreads = (columnsOf (width x) x).map (columnSpread (rowCount x)) := by
  unfold Standard.ofTable
  dsimp only
  rw [List.zipWith_map_right, List.zipWith_self]
  rfl

theorem length_means_ofTable (x : List (List α)) :
    (Standard.ofTable x).means.length = width x := by
  unfold Standard.ofTable
  rw [List.length_map, length_columnsOf]

end Spreads

theorem columnSpread_eq (n : K) (c : List K) :
    columnSpread n c = if 0 < columnVariance n c then RootExp.root (columnVariance n c) else 1 := by
  rw [← Scalar.ofNat_zero, ← Scalar.ofNat_one]
  rfl

/-- **No column is divided by zero.** -/
theorem spreads_pos (hroot : ∀ v : K, 0 < v → 0 < RootExp.root v) (x : List (List K)) :
    ∀ s ∈ (Standard.ofTable x).spreads, 0 < s := by
  rw [spreads_ofTable]
  refine List.forall_mem_map.mpr fun c _ => ?_
  rw [columnSpread_eq]
  split
  · rename_i hvaries
    exact hroot _ hvaries
  · exact one_pos

theorem columnVariance_replicate {n : Nat} (hn : n ≠ 0) (v : K) :
    columnVariance (Scalar.ofNat n) (List.replicate n v) = 0 := by
  have hne : (n : K) ≠ 0 := Nat.cast_ne_zero.mpr hn
  have hmean : Scalar.sum (List.replicate n v) / Scalar.ofNat n = v := by
    rw [Scalar.sum_eq, List.sum_replicate, Scalar.ofNat_eq, nsmul_eq_mul,
      mul_div_cancel_left₀ v hne]
  rw [columnVariance, hmean, List.map_replicate, Scalar.square, sub_self, mul_zero, Scalar.sum_eq,
    List.sum_replicate, smul_zero, zero_div]

/-- **A column that does not vary is divided by one.** -/
theorem spread_of_constant {x : List (List K)} {j : Nat} (hj : j < width x) {v : K}
    (hconstant : ∀ row ∈ x, row.getD j 0 = v) : (Standard.ofTable x).spreads[j]? = some 1 := by
  have hx : x.length ≠ 0 := by
    intro hx
    rw [List.length_eq_zero_iff.mp hx] at hj
    exact Nat.not_lt_zero j hj
  have hcolumn : columnOf x j = List.replicate x.length v := by
    refine List.eq_replicate_iff.mpr ⟨List.length_map _, List.forall_mem_map.mpr fun row hrow => ?_⟩
    rw [← hconstant row hrow, ← Scalar.ofNat_zero]
    rfl
  have hvariance : columnVariance (rowCount x) (columnOf x j) = 0 := by
    rw [rowCount, Nat.max_eq_left (Nat.one_le_iff_ne_zero.mpr hx), hcolumn,
      columnVariance_replicate hx]
  have hspread : columnSpread (rowCount x) (columnOf x j) = 1 := by
    rw [columnSpread_eq, hvariance, if_neg (lt_irrefl 0)]
  rw [spreads_ofTable, columnsOf, List.map_map, List.getElem?_map, List.getElem?_range hj,
    Option.map_some, Function.comp_apply, hspread]

/-! ## 2. One class -/

/-- **A weight and an intercept lose to the spreads and the means what the standardised features
have lost to them**: by induction on the columns. -/
theorem dot_toRaw {w means spreads row : List K} (hmeans : means.length = w.length)
    (hspreads : spreads.length = w.length) (hrow : w.length ≤ row.length) :
    Scalar.dot (List.zipWith (· / ·) w spreads) row -
        (List.zipWith (· / ·) (List.zipWith (· * ·) w means) spreads).sum =
      Scalar.dot w (Standard.row ⟨means, spreads⟩ row) := by
  unfold Standard.row
  dsimp only
  induction w generalizing means spreads row with
  | nil => simp [Scalar.dot_nil_left]
  | cons a w ih =>
    obtain ⟨m, means, rfl⟩ := List.exists_cons_of_length_eq_add_one hmeans
    obtain ⟨s, spreads, rfl⟩ := List.exists_cons_of_length_eq_add_one hspreads
    obtain ⟨v, row, rfl⟩ :=
      List.exists_cons_of_length_pos (Nat.lt_of_lt_of_le (Nat.succ_pos _) hrow)
    have htail := ih (Nat.succ.inj hmeans) (Nat.succ.inj hspreads) (Nat.le_of_succ_le_succ hrow)
    simp only [List.zipWith_cons_cons, Scalar.dot_cons, List.sum_cons]
    rw [← htail]
    ring

theorem linear_toRaw (b : K) {w means spreads row : List K} (hmeans : means.length = w.length)
    (hspreads : spreads.length = w.length) (hrow : w.length ≤ row.length) :
    linear (b - Scalar.sum (List.zipWith (· / ·) (List.zipWith (· * ·) w means) spreads))
        (List.zipWith (· / ·) w spreads) row =
      linear b w (Standard.row ⟨means, spreads⟩ row) := by
  rw [linear, linear, ← dot_toRaw hmeans hspreads hrow, Scalar.sum_eq]
  ring

/-! ## 3. All classes -/

/-- **The raw weights give on a row the logits that the learned ones give on the standardised row.**
-/
theorem logits_toRaw {s : Standard K} {w : ClassWeights K} {classes features : Nat}
    (hw : w.HasShape classes features) (hmeans : s.means.length = features)
    (hspreads : s.spreads.length = features) {row : List K} (hrow : features ≤ row.length) :
    logits (s.toRaw w).intercepts (s.toRaw w).weights row =
      logits w.intercepts w.weights (s.row row) := by
  obtain ⟨bs, ws⟩ := w
  have hrows : ∀ weights ∈ ws, weights.length = features := hw.rows
  unfold Standard.toRaw logits
  dsimp only
  clear hw
  induction ws generalizing bs with
  | nil => simp
  | cons weights ws ih =>
    cases bs with
    | nil => rfl
    | cons b bs =>
      obtain ⟨hweights, hrest⟩ := List.forall_mem_cons.mp hrows
      rw [List.zipWith_cons_cons, List.map_cons, List.zipWith_cons_cons, List.zipWith_cons_cons,
        ih bs hrest, linear_toRaw b (hmeans.trans hweights.symm) (hspreads.trans hweights.symm)
          (hweights.trans_le hrow)]

/-- **What is fitted to classes predicts of raw features what was learned on standardised ones.**
For every table and targets, number of classes, penalty, number of steps and rate: all columns are
divided by positive spreads, one where a column does not vary, and on every row with a value for
each column, of the table or not, the raw weights give the logits and the probabilities that the
learned weights give on the standardised row. -/
theorem raw_weights_predict_as_learned (hroot : ∀ v : K, 0 < v → 0 < RootExp.root v)
    (classes : Nat) (penalty : K) (steps : Nat) (rate : K) (x : List (List K)) (y : List K) :
    (∀ s ∈ (Standard.ofTable x).spreads, 0 < s) ∧
    (∀ j < width x, ∀ v, (∀ row ∈ x, row.getD j 0 = v) →
      (Standard.ofTable x).spreads[j]? = some 1) ∧
    ∃ bs ws, fitSoftmax classes penalty steps rate x y = .softmax bs ws ∧
      ∀ row, width x ≤ row.length →
        logits bs ws row =
          logits (learnStandardised classes penalty steps rate x y).intercepts
            (learnStandardised classes penalty steps rate x y).weights
            ((Standard.ofTable x).row row) ∧
        (fitSoftmax classes penalty steps rate x y).predict row =
          classProbabilities (learnStandardised classes penalty steps rate x y).intercepts
            (learnStandardised classes penalty steps rate x y).weights
            ((Standard.ofTable x).row row) := by
  refine ⟨spreads_pos hroot x, fun j hj v => spread_of_constant hj, _, _, rfl, fun row hrow => ?_⟩
  have hlogits := logits_toRaw (hasShape_learnStandardised classes penalty steps rate x y)
    (length_means_ofTable x) (length_spreads_ofTable x) hrow
  refine ⟨hlogits, ?_⟩
  rw [fitSoftmax, Predictor.predict, classProbabilities, hlogits, classProbabilities]

/-- Two rows, the second column the same in both. -/
noncomputable def twoRows : List (List ℝ) := [[1, 5], [3, 5]]

theorem ofTable_twoRows : Standard.ofTable twoRows = ⟨[2, 5], [1, 1]⟩ := by
  have hmeans : (Standard.ofTable twoRows).means = [2, 5] := by
    norm_num [Standard.ofTable, twoRows, columnsOf, columnOf, width, rowCount, Scalar.sum_eq,
      List.range_succ, Scalar.ofNat_eq]
  have hroot : RootExp.root (1 : ℝ) = 1 := Real.sqrt_one
  have hspreads : (Standard.ofTable twoRows).spreads = [1, 1] := by
    rw [spreads_ofTable]
    norm_num [twoRows, columnsOf, columnOf, width, rowCount, Scalar.sum_eq, List.range_succ,
      Scalar.ofNat_eq, columnSpread_eq, columnVariance, Scalar.square, hroot]
  rw [← hmeans, ← hspreads]

theorem learnStandardised_twoRows : learnStandardised 2 0 1 1 twoRows [0, 1] =
    ⟨[0, 0], [[-1 / 2, 0], [1 / 2, 0]]⟩ := by
  have hrows : twoRows.map (Standard.ofTable twoRows).row = [[-1, 0], [1, 0]] := by
    rw [ofTable_twoRows]
    norm_num [twoRows, Standard.row]
  have hexp : Scalar.exp (0 : ℝ) = 1 := Real.exp_zero
  have hfloorZero : Scalar.floor (0 : ℝ) = 0 := Nat.floor_zero
  have hfloorOne : Scalar.floor (1 : ℝ) = 1 := Nat.floor_one
  -- the numerals of the definitions are those of the field
  have hzero : @OfNat.ofNat ℝ 0 (Scalar.instOfNat 0) = 0 := Scalar.ofNat_zero
  have hone : @OfNat.ofNat ℝ 1 (Scalar.instOfNat 1) = 1 := Scalar.ofNat_one
  unfold learnStandardised
  rw [hrows]
  norm_num [descend, gradientStep, classErrors, classProbabilities, logits, linear,
    Scalar.dot_cons, Scalar.dot_nil_left, shares, largest, isClass, Scalar.indicator, columnsOf,
    columnOf, rowCount, twoRows, width, List.range_succ, Scalar.sum_eq, Scalar.ofNat_eq,
    Scalar.maxNum, hexp, hfloorZero, hfloorOne, List.replicate]
  simp only [hzero, hone]
  norm_num

/-- After one step on the two rows, on a row that is none of them and differs in the second column
as well: the standardised row is `[5, 1]`, and the learned weights give it these logits. -/
theorem raw_weights_predict_as_learned_constant_column :
    (∀ v : ℝ, 0 < v → 0 < RootExp.root v) ∧
      (Standard.ofTable twoRows).spreads[1]? = some 1 ∧
      ∃ bs ws, fitSoftmax 2 0 1 1 twoRows [0, 1] = .softmax bs ws ∧
        logits bs ws [7, 6] = [-5 / 2, 5 / 2] := by
  have hroot : ∀ v : ℝ, 0 < v → 0 < RootExp.root v := fun v hv => Real.sqrt_pos.mpr hv
  obtain ⟨-, hconstant, bs, ws, hfit, hrows⟩ :=
    raw_weights_predict_as_learned hroot 2 0 1 1 twoRows [0, 1]
  refine ⟨hroot, hconstant 1 (by norm_num [twoRows, width]) 5 (by norm_num [twoRows]), bs, ws, hfit,
    ?_⟩
  rw [(hrows [7, 6] (by norm_num [twoRows, width])).1, learnStandardised_twoRows, ofTable_twoRows]
  norm_num [Standard.row, logits, linear, Scalar.dot_cons, Scalar.dot_nil_left]

end Regression

end CodeCausality
