import Mathlib.Data.Int.CardIntervalMod
import CodeCausality.Proofs.Regression.Shape
import CodeCausality.Proofs.Sorted
import CodeCausality.Proofs.Traversal
import CodeCausality.Regression.CrossValidation

/-!
# What cross-validation has seen

A score says something of unseen rows only if no prediction was made by a predictor that knew the
row.

* `perm_shuffle` -- shuffling keeps the members, whatever the noise is;
* `perm_flatMap_everyNth`, `length_everyNth` -- **dealing out neither loses nor doubles a member,
  and deals evenly**;
* `perm_flatten_folds` -- so every row is in one fold;
* `predicted_of_crossPredict` -- the prediction of a row is that of its fold's predictor;
* `AgreeOutside`, `fit_outside_eq` -- **what is fitted for a fold does not depend on it**;
* `rows_are_predicted_unseen` -- every row is predicted once, by what is fitted on other rows.
-/

namespace CodeCausality

/-! ## 1. Shuffling -/

section Shuffling

variable {ρ α β : Type} [Noise ρ α]

theorem perm_swapIfInBounds (xs : Array β) (i j : Nat) : (xs.swapIfInBounds i j).Perm xs := by
  unfold Array.swapIfInBounds
  split
  · split
    · exact Array.swap_perm _ _
    · exact .rfl
  · exact .rfl

theorem perm_shuffleDown (i : Nat) (xs : Array β) (r : ρ) : (shuffleDown i xs r).1.Perm xs := by
  induction i generalizing xs r with
  | zero => exact .rfl
  | succ i ih =>
    rw [shuffleDown]
    exact (ih _ _).trans (perm_swapIfInBounds _ _ _)

/-- **Shuffled members are the members**, whatever positions the noise gives. -/
theorem perm_shuffle (xs : List β) (r : ρ) : (shuffle xs r).1.Perm xs :=
  Array.perm_iff_toList_perm.mp (perm_shuffleDown _ _ r)

end Shuffling

namespace Regression

/-! ## 2. Dealing -/

section Dealing

variable {β : Type}

/-- Members that are sorted into piles by number are those that have a number. -/
theorem perm_flatMap_filter (key : β → Nat) (k : Nat) (xs : List β) :
    ((List.range k).flatMap fun f => xs.filter fun b => key b == f).Perm
      (xs.filter fun b => key b < k) := by
  induction k with
  | zero => simp
  | succ k ih =>
    have hbelow : (xs.filter fun b => key b < k + 1).filter (fun b => key b < k) =
        xs.filter fun b => key b < k := by
      rw [List.filter_filter]
      refine List.filter_congr fun b _ => ?_
      rw [Bool.eq_iff_iff, Bool.and_eq_true, decide_eq_true_iff, decide_eq_true_iff]
      omega
    have hhere : (xs.filter fun b => key b < k + 1).filter (fun b => !decide (key b < k)) =
        xs.filter fun b => key b == k := by
      rw [List.filter_filter]
      refine List.filter_congr fun b _ => ?_
      rw [Bool.eq_iff_iff, Bool.and_eq_true, Bool.not_eq_true', decide_eq_false_iff_not,
        decide_eq_true_iff, beq_iff_eq]
      omega
    have hsplit := List.filter_append_perm (fun b => decide (key b < k))
      (xs.filter fun b => key b < k + 1)
    rw [hbelow, hhere] at hsplit
    rw [List.range_succ, List.flatMap_append, List.flatMap_singleton]
    exact (ih.append_right _).trans hsplit

/-- **Dealing out loses no member and doubles none.** -/
theorem perm_flatMap_everyNth {k : Nat} (hk : 0 < k) (xs : List β) :
    ((List.range k).flatMap fun f => everyNth k f xs).Perm xs := by
  have hpiles := (perm_flatMap_filter (fun e : β × Nat => e.2 % k) k xs.zipIdx).map (·.1)
  have hall : (xs.zipIdx.filter fun e => e.2 % k < k) = xs.zipIdx :=
    List.filter_eq_self.mpr fun e _ => decide_eq_true (Nat.mod_lt _ hk)
  rw [hall, List.zipIdx_map_fst, List.map_flatMap] at hpiles
  exact hpiles

/-- **Piles are as large as each other, but for one member.** -/
theorem length_everyNth {k f : Nat} (hf : f < k) (xs : List β) :
    (everyNth k f xs).length = xs.length / k + if f < xs.length % k then 1 else 0 := by
  have hcount := Nat.count_modEq_card xs.length (Nat.zero_lt_of_lt hf) f
  rw [Nat.mod_eq_of_lt hf] at hcount
  rw [← hcount, Nat.count, everyNth, List.length_map, ← List.countP_eq_length_filter]
  have hpositions : (xs.zipIdx.map (·.2)) = List.range xs.length := by
    rw [List.zipIdx_map_snd, List.range_eq_range']
  rw [← hpositions, List.countP_map]
  refine List.countP_congr fun e _ => ?_
  simp [Nat.ModEq, Nat.mod_eq_of_lt hf]

end Dealing

/-! ## 3. Folds -/

theorem foldCount_eq {n : Nat} (hn : 2 ≤ n) (k : Nat) : foldCount n k = min (max k 2) n := by
  unfold foldCount
  omega

section Folds

variable (ρ : Type) {α : Type} [Noise ρ α] {n : Nat} (k : Nat) (seed : UInt64)

theorem folds_eq (n : Nat) : folds ρ n k seed = (List.range (foldCount n k)).map fun f =>
    everyNth (foldCount n k) f (shuffle (List.range n) (Noise.start (ρ := ρ) seed 0)).1 := rfl

theorem length_folds (hn : 2 ≤ n) : (folds ρ n k seed).length = min (max k 2) n := by
  rw [folds_eq, List.length_map, List.length_range, foldCount_eq hn]

/-- **Every row is in one fold, and once.** -/
theorem perm_flatten_folds (hn : 2 ≤ n) : (folds ρ n k seed).flatten.Perm (List.range n) := by
  have hcount : 0 < foldCount n k := by
    rw [foldCount_eq hn]
    omega
  rw [folds_eq, ← List.flatMap_def]
  exact (perm_flatMap_everyNth hcount _).trans (perm_shuffle _ _)

/-- The size of a fold is what the rows give each, or one more. -/
theorem length_of_mem_folds {held : List Nat} (hheld : held ∈ folds ρ n k seed) :
    held.length = n / foldCount n k ∨ held.length = n / foldCount n k + 1 := by
  rw [folds_eq] at hheld
  obtain ⟨f, hf, rfl⟩ := List.mem_map.mp hheld
  rw [length_everyNth (List.mem_range.mp hf), (perm_shuffle _ _).length_eq, List.length_range]
  split
  · exact .inr rfl
  · exact .inl rfl

end Folds

/-! ## 4. The rows outside a fold -/

section Outside

variable {β : Type} {held : List Nat}

theorem outside_eq_map (held : List Nat) (xs : List β) (d : β) :
    outside held xs =
      ((List.range xs.length).filter fun i => !held.contains i).map fun i => xs.getD i d := by
  have hzip : xs.zipIdx = (List.range xs.length).map fun i => (xs.getD i d, i) := by
    refine List.ext_getElem (by simp) fun i hi hi' => ?_
    have hlt : i < xs.length := by simpa using hi'
    simp [List.getD_eq_getElem?_getD, hlt]
  rw [outside, hzip, List.filter_map, List.map_map]
  rfl

/-- The lists are as long as each other and differ at held-out positions only. -/
structure AgreeOutside (held : List Nat) (xs ys : List β) : Prop where
  length : ys.length = xs.length
  same : ∀ i, i ∉ held → ys[i]? = xs[i]?

/-- What is held out does not count outside. -/
theorem AgreeOutside.outside_eq {xs ys : List β} (h : AgreeOutside held xs ys) :
    outside held ys = outside held xs := by
  cases xs with
  | nil =>
    obtain rfl := List.length_eq_zero_iff.mp h.length
    rfl
  | cons x xs =>
    rw [outside_eq_map held ys x, outside_eq_map held (x :: xs) x, h.length]
    refine List.map_congr_left fun i hi => ?_
    have hout : i ∉ held := by simpa using (List.mem_filter.mp hi).2
    rw [List.getD_eq_getElem?_getD, List.getD_eq_getElem?_getD, h.same i hout]

theorem outside_ne_nil {xs : List β} {i : Nat} (hi : i < xs.length) (hout : i ∉ held) :
    outside held xs ≠ [] := by
  rw [outside_eq_map held xs xs[i]]
  refine List.ne_nil_of_mem (List.mem_map_of_mem (a := i) (List.mem_filter.mpr ⟨?_, ?_⟩))
  · exact List.mem_range.mpr hi
  · simpa using hout

end Outside

/-! ## 5. Predictions -/

variable {α : Type} [Scalar α] {estimator : Estimator α} {x : List (List α)} {y : List α}

/-- What a fold predicts, row by row. -/
theorem predictHeld_eq_some_iff {held : List Nat} {rows : List (Nat × List α)} :
    predictHeld estimator x y held = some rows ↔
      ∃ p, estimator.fit (outside held x) (outside held y) = some p ∧
        held.map (fun i => (i, p.predict (x.getD i []))) = rows := by
  rw [predictHeld, Option.map_eq_some_iff]

/-- Where every row is in one fold, its prediction is that of the fold. -/
theorem predicted_of_crossPredict {folds : List (List Nat)} {predictions : List (List α)}
    (h : crossPredict estimator x y folds = some predictions)
    (hfolds : folds.flatten.Perm (List.range y.length)) :
    predictions.length = y.length ∧ ∀ held ∈ folds, ∃ p,
      estimator.fit (outside held x) (outside held y) = some p ∧
      ∀ i ∈ held, predictions[i]? = some (p.predict (x.getD i [])) := by
  obtain ⟨predicted, hpredicted, rfl⟩ := Option.map_eq_some_iff.mp h
  have hrows := mapM_eq_some_iff.mp hpredicted
  have hkeys : predicted.flatten.map (·.1) = folds.flatten := by
    rw [← List.flatMap_id, ← List.flatMap_id, List.map_flatMap]
    refine (flatMap_eq_of_forall₂ (hrows.imp fun held rows hheld => ?_)).symm
    obtain ⟨p, -, rfl⟩ := predictHeld_eq_some_iff.mp hheld
    show held = (held.map fun i => (i, p.predict (x.getD i []))).map (·.1)
    rw [List.map_map]
    exact (List.map_id held).symm
  have hnodup : (predicted.flatten.map (·.1)).Nodup :=
    hkeys ▸ hfolds.nodup_iff.mpr List.nodup_range
  refine ⟨by rw [List.length_map, List.length_range], fun held hheld => ?_⟩
  obtain ⟨f, hf⟩ := List.mem_iff_getElem?.mp hheld
  obtain ⟨rows, hmem, hpredict⟩ := exists_getElem?_of_forall₂ hrows hf
  obtain ⟨p, hfit, rfl⟩ := predictHeld_eq_some_iff.mp hpredict
  refine ⟨p, hfit, fun i hi => ?_⟩
  have hlt : i < y.length :=
    List.mem_range.mp (hfolds.mem_iff.mp (List.mem_flatten_of_mem hheld hi))
  have hentry : (i, p.predict (x.getD i [])) ∈ predicted.flatten :=
    List.mem_flatten_of_mem (List.mem_of_getElem? hmem) (List.mem_map_of_mem hi)
  rw [List.getElem?_map, List.getElem?_range hlt, Option.map_some, lookup_of_nodup hnodup hentry,
    Option.getD_some]

/-- How many numbers an estimator predicts of a row. -/
def Estimator.outputs : Estimator α → Nat
  | softmax classes _ _ _ => classes
  | _ => 1

theorem length_predict {p : Predictor α} (h : estimator.fit x y = some p) (row : List α) :
    (p.predict row).length = estimator.outputs := by
  have hshape := Estimator.suits_of_fit h
  cases estimator with
  | leastSquares =>
    cases p with
    | linear b cs => rfl
    | _ => exact hshape.elim
  | logistic penalty steps =>
    cases p with
    | logistic b cs => rfl
    | _ => exact hshape.elim
  | softmax classes penalty steps rate =>
    cases p with
    | softmax bs ws =>
      rw [Predictor.predict, length_classProbabilities, hshape.intercepts, hshape.weights]
      exact Nat.min_self _
    | _ => exact hshape.elim

theorem length_targets (estimator : Estimator α) (y : List α) :
    (estimator.targets y).map List.length = List.replicate y.length estimator.outputs := by
  refine List.eq_replicate_iff.mpr ⟨?_, ?_⟩
  · cases estimator <;> simp [Estimator.targets]
  · cases estimator <;> simp [Estimator.targets, Estimator.outputs]

/-- **No prediction is missing**: there is one for each row, of the shape of its target. -/
theorem length_crossPredict {folds : List (List Nat)} {predictions : List (List α)}
    (h : crossPredict estimator x y folds = some predictions)
    (hfolds : folds.flatten.Perm (List.range y.length)) :
    predictions.map List.length = (estimator.targets y).map List.length := by
  obtain ⟨hlength, hpredicted⟩ := predicted_of_crossPredict h hfolds
  rw [length_targets]
  refine List.eq_replicate_iff.mpr ⟨by rw [List.length_map, hlength], ?_⟩
  refine List.forall_mem_map.mpr fun row hrow => ?_
  obtain ⟨i, hi, rfl⟩ := List.mem_iff_getElem.mp hrow
  obtain ⟨held, hheld, hin⟩ := List.mem_flatten.mp
    (hfolds.mem_iff.mpr (List.mem_range.mpr (hlength ▸ hi)))
  obtain ⟨p, hfit, hrows⟩ := hpredicted held hheld
  rw [Option.some.inj ((List.getElem?_eq_getElem hi).symm.trans (hrows i hin))]
  exact length_predict hfit _

/-! ## 6. Held-out rows -/

/-- What a fold takes part in: it is held out, one predictor is fitted on the other rows, of which
there are some, and predicts the rows of the fold. -/
structure HoldsOut (estimator : Estimator α) (x : List (List α)) (y : List α) (held : List Nat)
    (p : Predictor α) (predictions : List (List α)) : Prop where
  others : outside held x ≠ []
  fitted : estimator.fit (outside held x) (outside held y) = some p
  predicted : ∀ i ∈ held, ∃ row, x[i]? = some row ∧ predictions[i]? = some (p.predict row)

/-- No fold holds all rows. -/
theorem exists_outside {n : Nat} {folds : List (List Nat)}
    (hfolds : folds.flatten.Perm (List.range n)) (htwo : 2 ≤ folds.length)
    (hne : ∀ held ∈ folds, held ≠ []) {held : List Nat} (hheld : held ∈ folds) :
    ∃ i < n, i ∉ held := by
  obtain ⟨before, after, rfl⟩ := List.append_of_mem hheld
  have hsplit : (held ++ (before ++ after).flatten).Perm (List.range n) :=
    List.perm_middle.flatten.symm.trans hfolds
  have hothers : before ++ after ≠ [] := by
    rw [List.perm_middle.length_eq, List.length_cons] at htwo
    exact List.ne_nil_of_length_pos (Nat.le_of_succ_le_succ htwo)
  obtain ⟨other, hother⟩ := List.exists_mem_of_ne_nil _ hothers
  obtain ⟨i, hi⟩ := List.exists_mem_of_ne_nil _
    (hne other (List.perm_middle.mem_iff.mpr (List.mem_cons_of_mem _ hother)))
  have hrest : i ∈ (before ++ after).flatten := List.mem_flatten_of_mem hother hi
  refine ⟨i, List.mem_range.mp (hsplit.mem_iff.mp (List.mem_append_right _ hrest)), fun hin => ?_⟩
  exact (List.nodup_append.mp (hsplit.nodup_iff.mpr List.nodup_range)).2.2 i hin i hrest rfl

section Unseen

variable {held : List Nat} {x' : List (List α)} {y' : List α}

/-- **What is fitted for a fold has not seen it.** -/
theorem fit_outside_eq (hx : AgreeOutside held x x') (hy : AgreeOutside held y y') :
    estimator.fit (outside held x') (outside held y') =
      estimator.fit (outside held x) (outside held y) := by
  rw [hx.outside_eq, hy.outside_eq]

/-- So what it predicts of a row depends on the row's own features only. -/
theorem getElem?_crossPredict_eq {folds : List (List Nat)}
    {predictions predictions' : List (List α)}
    (h : crossPredict estimator x y folds = some predictions)
    (h' : crossPredict estimator x' y' folds = some predictions')
    (hfolds : folds.flatten.Perm (List.range y.length)) (hheld : held ∈ folds)
    (hx : AgreeOutside held x x') (hy : AgreeOutside held y y') {i : Nat} (hi : i ∈ held)
    (hrow : x'[i]? = x[i]?) : predictions'[i]? = predictions[i]? := by
  obtain ⟨p, hp, hrows⟩ := (predicted_of_crossPredict h hfolds).2 held hheld
  obtain ⟨p', hp', hrows'⟩ := (predicted_of_crossPredict h' (hy.length ▸ hfolds)).2 held hheld
  obtain rfl : p' = p := Option.some.inj (hp'.symm.trans ((fit_outside_eq hx hy).trans hp))
  rw [hrows i hi, hrows' i hi, List.getD_eq_getElem?_getD, List.getD_eq_getElem?_getD, hrow]

end Unseen

/-- Where no fold has all rows, each is held out and predicted by what the others give. -/
theorem holdsOut_of_crossPredict {folds : List (List Nat)} {predictions : List (List α)}
    (h : crossPredict estimator x y folds = some predictions) (hlength : y.length = x.length)
    (hfolds : folds.flatten.Perm (List.range y.length)) (htwo : 2 ≤ folds.length)
    (hne : ∀ held ∈ folds, held ≠ []) {held : List Nat} (hheld : held ∈ folds) :
    ∃ p, HoldsOut estimator x y held p predictions := by
  obtain ⟨p, hfit, hrows⟩ := (predicted_of_crossPredict h hfolds).2 held hheld
  obtain ⟨i, hi, hout⟩ := exists_outside hfolds htwo hne hheld
  refine ⟨p, outside_ne_nil (hlength ▸ hi) hout, hfit, fun j hj => ?_⟩
  have hlt : j < x.length :=
    hlength ▸ List.mem_range.mp (hfolds.mem_iff.mp (List.mem_flatten_of_mem hheld hj))
  refine ⟨x[j], List.getElem?_eq_getElem hlt, ?_⟩
  rw [hrows j hj, List.getD_eq_getElem?_getD, List.getElem?_eq_getElem hlt, Option.getD_some]

/-- **Every row is predicted once, by what is fitted on other rows.** Whatever number of folds is
asked for and however rows are shuffled, the rows are split into folds of almost one size, each
with rows in it and rows outside. Where there is a score, each fold was predicted by what was fitted
on the rows outside it, and no prediction is missing. Changing rows of a fold changes neither what
is fitted for it nor what is predicted of a row of it whose features stand. -/
theorem rows_are_predicted_unseen {ρ : Type} [Noise ρ α] {n : Nat} (hn : 2 ≤ n) (k : Nat)
    (seed : UInt64) :
    (folds ρ n k seed).length = min (max k 2) n ∧
    (folds ρ n k seed).flatten.Perm (List.range n) ∧
    (∀ held ∈ folds ρ n k seed, held ≠ []) ∧
    (∀ a ∈ folds ρ n k seed, ∀ b ∈ folds ρ n k seed, a.length ≤ b.length + 1) ∧
    ∀ (estimator : Estimator α) (x : List (List α)) (y : List α), x.length = n → y.length = n →
      (∀ score, crossValidate ρ estimator x y k seed = some score → ∃ predictions,
        crossPredict estimator x y (folds ρ n k seed) = some predictions ∧
        score = explainedShare (estimator.targets y) predictions ∧
        predictions.map List.length = (estimator.targets y).map List.length ∧
        ∀ held ∈ folds ρ n k seed, ∃ p, HoldsOut estimator x y held p predictions) ∧
      ∀ held ∈ folds ρ n k seed, ∀ x' y', AgreeOutside held x x' → AgreeOutside held y y' →
        estimator.fit (outside held x') (outside held y') =
          estimator.fit (outside held x) (outside held y) ∧
        ∀ predictions predictions',
          crossPredict estimator x y (folds ρ n k seed) = some predictions →
          crossPredict estimator x' y' (folds ρ n k seed) = some predictions' →
          ∀ i ∈ held, x'[i]? = x[i]? → predictions'[i]? = predictions[i]? := by
  have hlength := length_folds ρ k seed hn
  have hperm := perm_flatten_folds ρ k seed hn
  have hsize (held : List Nat) (hheld : held ∈ folds ρ n k seed) :=
    length_of_mem_folds ρ k seed hheld
  have hleast : 0 < n / foldCount n k := by
    rw [foldCount_eq hn]
    exact Nat.div_pos (Nat.min_le_right _ _) (by omega)
  have hne : ∀ held ∈ folds ρ n k seed, held ≠ [] := fun held hheld => by
    refine List.ne_nil_of_length_pos ?_
    rcases hsize held hheld with h | h <;> omega
  refine ⟨hlength, hperm, hne, fun a ha b hb => ?_, fun estimator x y hx hy => ⟨?_, ?_⟩⟩
  · rcases hsize a ha with h | h <;> rcases hsize b hb with h' | h' <;> omega
  · intro score hscore
    rw [crossValidate, hy] at hscore
    obtain ⟨predictions, hpredictions, rfl⟩ := Option.map_eq_some_iff.mp hscore
    exact ⟨predictions, hpredictions, rfl, length_crossPredict hpredictions (hy.symm ▸ hperm),
      fun held hheld => holdsOut_of_crossPredict hpredictions (hy.trans hx.symm) (hy.symm ▸ hperm)
        (by omega) hne hheld⟩
  · intro held hheld x' y' hx' hy'
    exact ⟨fit_outside_eq hx' hy', fun predictions predictions' h h' i hi hrow =>
      getElem?_crossPredict_eq h h' (hy.symm ▸ hperm) hheld hx' hy' hi hrow⟩

/-- Four rows on a line. -/
def fourSteps : List (List Float) := [[0], [1], [2], [3]]

/-- Of four rows on a line each is predicted by the other three, if nine folds are asked for. -/
theorem rows_are_predicted_unseen_line : ∃ score predictions,
    crossValidate Random.Generator .leastSquares fourSteps [1, 3, 5, 7] 9 7 = some score ∧
      (folds Random.Generator 4 9 7).length = 4 ∧
      crossPredict .leastSquares fourSteps [1, 3, 5, 7] (folds Random.Generator 4 9 7) =
        some predictions ∧
      ∀ held ∈ folds Random.Generator 4 9 7, ∃ p,
        HoldsOut .leastSquares fourSteps [1, 3, 5, 7] held p predictions := by
  obtain ⟨score, hscore⟩ : ∃ score,
      crossValidate Random.Generator .leastSquares fourSteps [1, 3, 5, 7] 9 7 = some score :=
    Option.isSome_iff_exists.mp (by decide +kernel)
  obtain ⟨hlength, -, -, -, hrun⟩ := rows_are_predicted_unseen (ρ := Random.Generator)
    (n := 4) (by decide) 9 7
  obtain ⟨predictions, hpredictions, -, -, hheld⟩ :=
    (hrun .leastSquares fourSteps [1, 3, 5, 7] rfl rfl).1 score hscore
  exact ⟨score, predictions, hscore, hlength, hpredictions, hheld⟩

end Regression

end CodeCausality
