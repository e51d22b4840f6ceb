import Mathlib.Algebra.BigOperators.Fin
import Mathlib.Algebra.Order.BigOperators.Ring.Finset
import Mathlib.Data.List.GetD
import CodeCausality.Proofs.Numeric.Exact
import CodeCausality.Regression.CrossValidation

/-!
# The score

The score of predictions is one minus the ratio of what they miss to what the targets vary by.

* `squaredError`, `variation` -- the two sums that it is computed from, in any arithmetic;
* `totalError`, `totalVariation` -- what they are: sums over the rows and columns of a table;
* `totalError_eq_zero_iff`, `totalVariation_eq_zero_iff` -- nothing is missed by exact predictions
  only, nothing varies in constant targets only;
* `score_of_tables` -- **the score, by how much the targets vary**;
* `score_of_small_targets` -- targets that vary too little count as constant.
-/

namespace CodeCausality

namespace Regression

/-! ## 1. What is computed -/

section Share

variable {α : Type} [Scalar α]

/-- The squared error of predictions, over all columns. -/
def squaredError (targets predictions : List (List α)) : α :=
  Scalar.sum (squaredDifferences targets predictions)

/-- The mean of each column. -/
def columnMeans (targets : List (List α)) : List α :=
  (columnsOf (width targets) targets).map fun c => Scalar.sum c / Scalar.ofNat targets.length

/-- The squared differences of the targets from their means. -/
def variation (targets : List (List α)) : α :=
  squaredError targets (targets.map fun _ => columnMeans targets)

theorem explainedShare_of_ne_nil {targets predictions : List (List α)} (h : targets ≠ []) :
    explainedShare targets predictions =
      if variation targets ≤ constantTolerance then
        (if squaredError targets predictions ≤ exactTolerance then 1 else 0)
      else 1 - squaredError targets predictions / variation targets := by
  cases targets with
  | nil => exact absurd rfl h
  | cons first rest => rfl

/-- As many rows, and in each as many columns as the first has. -/
structure SameShape (s t : List (List α)) : Prop where
  length_eq : t.length = s.length
  left : ∀ row ∈ s, row.length = width s
  right : ∀ row ∈ t, row.length = width s

end Share

/-! ## 2. Sums over a table -/

section Tables

variable {K : Type} [Field K]

/-- The entry in a row and a column. -/
def entry (t : List (List K)) (i c : Nat) : K := (t.getD i []).getD c 0

/-- The mean of a column. -/
def entryMean (t : List (List K)) (c : Nat) : K :=
  (∑ i ∈ Finset.range t.length, entry t i c) / t.length

/-- What predictions miss: the squared differences, summed over all rows and columns. -/
def totalError (targets predictions : List (List K)) : K :=
  ∑ i ∈ Finset.range targets.length, ∑ c ∈ Finset.range (width targets),
    (entry targets i c - entry predictions i c) ^ 2

/-- What targets vary by: their squared differences from the means of their columns, summed over
all rows and columns. -/
def totalVariation (targets : List (List K)) : K :=
  ∑ i ∈ Finset.range targets.length, ∑ c ∈ Finset.range (width targets),
    (entry targets i c - entryMean targets c) ^ 2

/-- Each column has one value. -/
def Constant (targets : List (List K)) : Prop :=
  ∀ c < width targets, ∀ i < targets.length, ∀ k < targets.length,
    entry targets i c = entry targets k c

/-- A table in another unit. -/
def scaleTable (a : K) (t : List (List K)) : List (List K) := t.map fun row => row.map (a * ·)

/-! ## 3. The sums that are computed -/

/-- A list sums to the sum over its positions. -/
theorem sum_eq_sum_range {xs : List K} {n : Nat} (hn : xs.length = n) {f : Nat → K}
    (h : ∀ i (hi : i < xs.length), xs[i] = f i) : xs.sum = ∑ i ∈ Finset.range n, f i := by
  subst hn
  rw [← Fin.sum_univ_getElem, Finset.sum_range]
  exact Finset.sum_congr rfl fun i _ => h i i.isLt

theorem entry_eq {t : List (List K)} {i c : Nat} (hi : i < t.length) (hc : c < t[i].length) :
    entry t i c = t[i][c] := by
  rw [entry, List.getD_eq_getElem _ _ hi, List.getD_eq_getElem _ _ hc]

/-- Tables of one shape with the same entries are equal. -/
theorem SameShape.eq_of_entries {s t : List (List K)} (h : SameShape s t)
    (hentries : ∀ i < s.length, ∀ c < width s, entry s i c = entry t i c) : t = s := by
  refine List.ext_getElem h.length_eq fun i hi hi' => ?_
  have hs : s[i].length = width s := h.left _ (List.getElem_mem hi')
  have ht : t[i].length = width s := h.right _ (List.getElem_mem hi)
  refine List.ext_getElem (ht.trans hs.symm) fun c hc hc' => ?_
  have hentry := hentries i hi' c (hs ▸ hc')
  rw [entry_eq hi' hc', entry_eq hi hc] at hentry
  exact hentry.symm

section Computed

variable [LinearOrder K] [FloorSemiring K] [RootExp K]

/-- **The squared error that is computed.** -/
theorem squaredError_eq {s t : List (List K)} (h : SameShape s t) :
    squaredError s t = totalError s t := by
  rw [squaredError, squaredDifferences, Scalar.sum_eq, List.sum_flatten, List.map_zipWith]
  have hlength : (List.zipWith (fun row row' =>
      (List.zipWith (fun a b => Scalar.square (a - b)) row row').sum) s t).length = s.length := by
    rw [List.length_zipWith, h.length_eq, Nat.min_self]
  refine sum_eq_sum_range hlength fun i hi => ?_
  rw [hlength] at hi
  have hi' : i < t.length := h.length_eq ▸ hi
  have hs : s[i].length = width s := h.left _ (List.getElem_mem hi)
  have ht : t[i].length = width s := h.right _ (List.getElem_mem hi')
  rw [List.getElem_zipWith]
  refine sum_eq_sum_range (by rw [List.length_zipWith, hs, ht, Nat.min_self]) fun c hc => ?_
  have hc : c < width s := by
    rw [List.length_zipWith, hs, ht, Nat.min_self] at hc
    exact hc
  rw [List.getElem_zipWith, Scalar.square, entry_eq hi (hs ▸ hc), entry_eq hi' (ht ▸ hc), sq]

theorem length_columnMeans (t : List (List K)) : (columnMeans t).length = width t := by
  rw [columnMeans, List.length_map, columnsOf, List.length_map, List.length_range]

/-- The mean that is computed of a column. -/
theorem getElem_columnMeans {t : List (List K)} (ht : ∀ row ∈ t, row.length = width t) {c : Nat}
    (hc : c < (columnMeans t).length) : (columnMeans t)[c] = entryMean t c := by
  have hwidth : c < width t := length_columnMeans t ▸ hc
  simp only [columnMeans, columnsOf, List.getElem_map, List.getElem_range]
  rw [Scalar.sum_eq, Scalar.ofNat_eq, entryMean]
  congr 1
  refine sum_eq_sum_range (List.length_map _) fun i hi => ?_
  rw [List.length_map] at hi
  have hrow : c < t[i].length := (ht _ (List.getElem_mem hi)).symm ▸ hwidth
  simp only [List.getElem_map]
  rw [entry_eq hi hrow, List.getD_eq_getElem _ _ hrow]

/-- **The variation that is computed.** -/
theorem variation_eq {t : List (List K)} (ht : ∀ row ∈ t, row.length = width t) :
    variation t = totalVariation t := by
  have hshape : SameShape t (t.map fun _ => columnMeans t) :=
    ⟨List.length_map _, ht, List.forall_mem_map.mpr fun _ _ => length_columnMeans t⟩
  rw [variation, squaredError_eq hshape, totalError, totalVariation]
  refine Finset.sum_congr rfl fun i hi => Finset.sum_congr rfl fun c hc => ?_
  have hi : i < (t.map fun _ => columnMeans t).length :=
    (List.length_map _).symm ▸ Finset.mem_range.mp hi
  have hc : c < (columnMeans t).length := length_columnMeans t ▸ Finset.mem_range.mp hc
  rw [entry_eq hi (by rwa [List.getElem_map])]
  simp only [List.getElem_map]
  rw [getElem_columnMeans ht hc]

end Computed

/-! ## 4. Nothing missed, nothing varied -/

section Zero

variable [LinearOrder K] [IsStrictOrderedRing K]

theorem totalError_nonneg (s t : List (List K)) : 0 ≤ totalError s t :=
  Finset.sum_nonneg fun _ _ => Finset.sum_nonneg fun _ _ => sq_nonneg _

/-- A sum of squares over a table is zero exactly if each of them is. -/
theorem sum_sq_eq_zero_iff {n w : Nat} {f : Nat → Nat → K} :
    ∑ i ∈ Finset.range n, ∑ c ∈ Finset.range w, f i c ^ 2 = 0 ↔ ∀ i < n, ∀ c < w, f i c = 0 := by
  rw [Finset.sum_eq_zero_iff_of_nonneg fun _ _ => Finset.sum_nonneg fun _ _ => sq_nonneg _]
  simp only [Finset.sum_eq_zero_iff_of_nonneg fun _ _ => sq_nonneg _, Finset.mem_range,
    sq_eq_zero_iff]

/-- **Nothing is missed exactly if the predictions are the targets.** -/
theorem totalError_eq_zero_iff {s t : List (List K)} (h : SameShape s t) :
    totalError s t = 0 ↔ t = s := by
  rw [totalError, sum_sq_eq_zero_iff]
  constructor
  · exact fun hzero => h.eq_of_entries fun i hi c hc => sub_eq_zero.mp (hzero i hi c hc)
  · rintro rfl
    exact fun _ _ _ _ => sub_self _

/-- **Nothing varies exactly if the columns are constant**: each entry is then the mean of its
column. -/
theorem totalVariation_eq_zero_iff {t : List (List K)} : totalVariation t = 0 ↔ Constant t := by
  rw [totalVariation, sum_sq_eq_zero_iff]
  constructor
  · intro hzero c hc i hi k hk
    rw [sub_eq_zero.mp (hzero i hi c hc), sub_eq_zero.mp (hzero k hk c hc)]
  · intro hconstant i hi c hc
    -- a constant column has its value as its mean
    have hn : (t.length : K) ≠ 0 := Nat.cast_ne_zero.mpr (Nat.ne_zero_of_lt hi)
    have hsum : ∑ k ∈ Finset.range t.length, entry t k c = t.length * entry t i c := by
      rw [Finset.sum_congr rfl fun k hk => hconstant c hc k (Finset.mem_range.mp hk) i hi,
        Finset.sum_const, Finset.card_range, nsmul_eq_mul]
    rw [entryMean, hsum, mul_div_cancel_left₀ _ hn, sub_self]

end Zero

/-! ## 5. Other units -/

theorem entry_scaleTable (a : K) (t : List (List K)) (i c : Nat) :
    entry (scaleTable a t) i c = a * entry t i c := by
  have hrow : (t.map fun row => row.map (a * ·)).getD i (([] : List K).map (a * ·)) =
      (t.getD i []).map (a * ·) := List.getD_map _ _ _
  have hentry : ((t.getD i []).map (a * ·)).getD c (a * 0) = a * (t.getD i []).getD c 0 :=
    List.getD_map _ _ _
  rw [mul_zero] at hentry
  exact (congrArg (·.getD c 0) hrow).trans hentry

theorem length_scaleTable (a : K) (t : List (List K)) : (scaleTable a t).length = t.length :=
  List.length_map _

theorem width_scaleTable (a : K) (t : List (List K)) : width (scaleTable a t) = width t := by
  cases t with
  | nil => rfl
  | cons row t => exact List.length_map _

theorem SameShape.scale {s t : List (List K)} (h : SameShape s t) (a : K) :
    SameShape (scaleTable a s) (scaleTable a t) where
  length_eq := by rw [length_scaleTable, length_scaleTable, h.length_eq]
  left := List.forall_mem_map.mpr fun row hrow => by
    rw [List.length_map, width_scaleTable, h.left row hrow]
  right := List.forall_mem_map.mpr fun row hrow => by
    rw [List.length_map, width_scaleTable, h.right row hrow]

/-- What is missed is scaled by the square. -/
theorem totalError_scaleTable (a : K) (s t : List (List K)) :
    totalError (scaleTable a s) (scaleTable a t) = a ^ 2 * totalError s t := by
  rw [totalError, totalError, length_scaleTable, width_scaleTable, Finset.mul_sum]
  refine Finset.sum_congr rfl fun i _ => ?_
  rw [Finset.mul_sum]
  refine Finset.sum_congr rfl fun c _ => ?_
  rw [entry_scaleTable, entry_scaleTable, ← mul_sub, mul_pow]

theorem entryMean_scaleTable (a : K) (t : List (List K)) (c : Nat) :
    entryMean (scaleTable a t) c = a * entryMean t c := by
  simp only [entryMean, length_scaleTable, entry_scaleTable]
  rw [← Finset.mul_sum, mul_div_assoc]

/-- What varies is scaled by the square. -/
theorem totalVariation_scaleTable (a : K) (t : List (List K)) :
    totalVariation (scaleTable a t) = a ^ 2 * totalVariation t := by
  rw [totalVariation, totalVariation, length_scaleTable, width_scaleTable, Finset.mul_sum]
  refine Finset.sum_congr rfl fun i _ => ?_
  rw [Finset.mul_sum]
  refine Finset.sum_congr rfl fun c _ => ?_
  rw [entry_scaleTable, entryMean_scaleTable, ← mul_sub, mul_pow]

/-! ## 6. The score -/

section Score

variable [LinearOrder K] [FloorSemiring K] [RootExp K] {targets predictions : List (List K)}

/-- **The score, by the sums over the tables.** -/
theorem explainedShare_eq (hne : targets ≠ []) (h : SameShape targets predictions) :
    explainedShare targets predictions =
      if totalVariation targets ≤ 1 / 2 ^ 52 then
        (if totalError targets predictions ≤ 1 / 10 ^ 12 then 1 else 0)
      else 1 - totalError targets predictions / totalVariation targets := by
  have hone : (Scalar.ofNat 1 : K) = 1 := Scalar.ofNat_one
  have hzero : (Scalar.ofNat 0 : K) = 0 := Scalar.ofNat_zero
  have hconstant : (constantTolerance : K) = 1 / 2 ^ 52 := by
    rw [constantTolerance, Scalar.ofNat_eq, Nat.pow_eq, Nat.cast_pow, Nat.cast_ofNat]
    exact congrArg (· / 2 ^ 52) hone
  have hexact : (exactTolerance : K) = 1 / 10 ^ 12 := by
    show ((1 : Nat) : K) / 10 ^ 12 = 1 / 10 ^ 12
    rw [Nat.cast_one]
  rw [explainedShare_of_ne_nil hne, squaredError_eq h, variation_eq h.left, hconstant, hexact]
  show (if _ then (if _ then Scalar.ofNat 1 else Scalar.ofNat 0) else Scalar.ofNat 1 - _) = _
  rw [hone, hzero]

/-- Predictions of what varies miss nothing exactly if they score one. -/
theorem share_eq_one_iff {sse sst : K} (hpos : 0 < sst) : 1 - sse / sst = 1 ↔ sse = 0 := by
  rw [sub_eq_self, div_eq_zero_iff, or_iff_left hpos.ne']

variable [IsStrictOrderedRing K]

/-- **The score of predictions.** Targets that vary by more than the tolerance score one minus the
ratio of what is missed to what varies: one for exact predictions only, and the same in any unit
in which they vary by more than the tolerance. Other targets, the constant ones among them, score
one if what is missed is within its own tolerance, and zero if not. No score is above one. -/
theorem score_of_tables (hne : targets ≠ []) (h : SameShape targets predictions) :
    (1 / 2 ^ 52 < totalVariation targets → explainedShare targets predictions =
        1 - totalError targets predictions / totalVariation targets) ∧
      (totalVariation targets ≤ 1 / 2 ^ 52 → explainedShare targets predictions =
        if totalError targets predictions ≤ 1 / 10 ^ 12 then 1 else 0) ∧
      (Constant targets ↔ totalVariation targets = 0) ∧
      (Constant targets → (predictions = targets → explainedShare targets predictions = 1) ∧
        (1 / 10 ^ 12 < totalError targets predictions →
          explainedShare targets predictions = 0)) ∧
      explainedShare targets predictions ≤ 1 ∧
      (1 / 2 ^ 52 < totalVariation targets →
        (explainedShare targets predictions = 1 ↔ predictions = targets)) ∧
      ∀ a, 1 / 2 ^ 52 < totalVariation targets → 1 / 2 ^ 52 < a ^ 2 * totalVariation targets →
        explainedShare (scaleTable a targets) (scaleTable a predictions) =
          explainedShare targets predictions := by
  have htolerance : (0 : K) < 1 / 2 ^ 52 := by positivity
  have hvaries : 1 / 2 ^ 52 < totalVariation targets → explainedShare targets predictions =
      1 - totalError targets predictions / totalVariation targets := fun hlt => by
    rw [explainedShare_eq hne h, if_neg hlt.not_ge]
  have hsteady : totalVariation targets ≤ 1 / 2 ^ 52 → explainedShare targets predictions =
      if totalError targets predictions ≤ 1 / 10 ^ 12 then 1 else 0 := fun hle => by
    rw [explainedShare_eq hne h, if_pos hle]
  refine ⟨hvaries, hsteady, totalVariation_eq_zero_iff.symm, fun hconstant => ?_, ?_, fun hlt => ?_,
    fun a hlt hlt' => ?_⟩
  · have hzero : totalVariation targets = 0 := totalVariation_eq_zero_iff.mpr hconstant
    have hshare := hsteady (hzero.trans_le htolerance.le)
    constructor
    · intro heq
      have hexact : totalError targets predictions = 0 := (totalError_eq_zero_iff h).mpr heq
      rw [hshare, if_pos (hexact.trans_le (by positivity))]
    · intro hmissed
      rw [hshare, if_neg hmissed.not_ge]
  · rcases le_or_gt (totalVariation targets) (1 / 2 ^ 52) with hle | hlt
    · rw [hsteady hle]
      split
      · exact le_rfl
      · exact zero_le_one
    · rw [hvaries hlt]
      exact sub_le_self _ (div_nonneg (totalError_nonneg _ _) (htolerance.trans hlt).le)
  · rw [hvaries hlt, share_eq_one_iff (htolerance.trans hlt), totalError_eq_zero_iff h]
  · have ha : a ^ 2 ≠ 0 := fun hzero => by
      rw [hzero, zero_mul] at hlt'
      exact lt_asymm hlt' htolerance
    have hne' : scaleTable a targets ≠ [] := fun hnil => hne (List.map_eq_nil_iff.mp hnil)
    rw [explainedShare_eq hne' (h.scale a), totalVariation_scaleTable, totalError_scaleTable,
      if_neg hlt'.not_ge, mul_div_mul_left _ _ ha, hvaries hlt]

end Score

end Tables

/-- Shares of two classes that three rows are in. -/
def twoClasses : List (List ℚ) := [[1, 0], [0, 1], [1, 0]]

/-- A prediction of them, and both in another unit. -/
theorem score_of_tables_classes :
    explainedShare twoClasses [[3 / 4, 1 / 4], [1 / 2, 1 / 2], [3 / 4, 1 / 4]] = 7 / 16 ∧
      explainedShare (scaleTable (1 / 100) twoClasses)
        (scaleTable (1 / 100) [[3 / 4, 1 / 4], [1 / 2, 1 / 2], [3 / 4, 1 / 4]]) = 7 / 16 := by
  have hshape : SameShape twoClasses [[3 / 4, 1 / 4], [1 / 2, 1 / 2], [3 / 4, 1 / 4]] :=
    ⟨rfl, by decide, by decide⟩
  have hvaries : totalVariation twoClasses = 4 / 3 := by decide +kernel
  obtain ⟨hshare, -, -, -, -, -, hunits⟩ := score_of_tables (by decide) hshape
  have hscore := (hshare (by rw [hvaries]; norm_num)).trans
    (by decide +kernel : _ = (7 / 16 : ℚ))
  refine ⟨hscore, (hunits (1 / 100) ?_ ?_).trans hscore⟩
  · rw [hvaries]
    norm_num
  · rw [hvaries]
    norm_num

/-- **Targets that vary too little count as constant.** Predictions that exchange two such targets
score one, and minus three in a larger unit. -/
theorem score_of_small_targets :
    ¬ Constant ([[0], [1 / 10 ^ 9]] : List (List ℚ)) ∧
      explainedShare ([[0], [1 / 10 ^ 9]] : List (List ℚ)) [[1 / 10 ^ 9], [0]] = 1 ∧
      1 - totalError ([[0], [1 / 10 ^ 9]] : List (List ℚ)) [[1 / 10 ^ 9], [0]] /
        totalVariation ([[0], [1 / 10 ^ 9]] : List (List ℚ)) = -3 ∧
      explainedShare (scaleTable (10 ^ 9) ([[0], [1 / 10 ^ 9]] : List (List ℚ)))
        (scaleTable (10 ^ 9) [[1 / 10 ^ 9], [0]]) = -3 := by
  refine ⟨fun h => ?_, by decide +kernel, by decide +kernel, by decide +kernel⟩
  exact absurd (h 0 (by decide) 0 (by decide) 1 (by decide)) (by decide +kernel)

end Regression

end CodeCausality
