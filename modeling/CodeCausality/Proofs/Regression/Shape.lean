import CodeCausality.Regression.Estimator

/-!
# The shape of fitted regressions

Whatever the numbers are, a fitted predictor has one coefficient for each feature and, for a class,
one row of them.

* `LinearSystem.length_solve` -- a solution has one entry for each equation;
* `length_newton` -- Newton steps keep the number of coefficients;
* `ClassWeights.HasShape`, `hasShape_descend` -- gradient steps keep the classes and the features;
* `Estimator.suits_of_fit` -- **what an estimator fits suits the estimator and the table's width.**
-/

namespace CodeCausality

/-! ## 1. Linear systems -/

namespace LinearSystem

variable {α : Type} [Scalar α]

theorem length_eliminate {least : α} {n : Nat} {es : List (Equation α)} {xs : List α}
    (h : eliminate least n es = some xs) : xs.length = n := by
  induction n generalizing es xs with
  | zero =>
    cases h
    rfl
  | succ n ih =>
    rw [eliminate] at h
    split at h
    · exact nomatch h
    · split at h
      · exact nomatch h
      · split at h
        · exact nomatch h
        · rename_i rest hrest
          cases h
          rw [List.length_cons, ih hrest]

theorem length_solve {es : List (Equation α)} {xs : List α} (h : solve es = some xs) :
    xs.length = es.length := length_eliminate (eliminate_of_solve h)

end LinearSystem

namespace Regression

variable {α : Type} [Scalar α]

/-! ## 2. Equations -/

theorem length_columnsOf (p : Nat) (x : List (List α)) : (columnsOf p x).length = p := by
  rw [columnsOf, List.length_map, List.length_range]

omit [Scalar α] in
theorem length_equations {rows : List (List α)} {constants : List α} {p : Nat}
    (hrows : rows.length = p) (hconstants : constants.length = p) :
    (equations rows constants).length = p := by
  rw [equations, List.length_zipWith, hrows, hconstants, Nat.min_self]

theorem length_normalEquations (x : List (List α)) (y : List α) :
    (normalEquations x y).length = width x + 1 := by
  unfold normalEquations
  exact length_equations (by rw [List.length_map, length_columnsOf])
    (by rw [List.length_map, length_columnsOf])

theorem length_newtonEquations (penalty : α) (x : List (List α)) (y beta : List α) :
    (newtonEquations penalty x y beta).length = width x + 1 := by
  unfold newtonEquations
  exact length_equations
    (by rw [List.length_map, List.length_zipIdx, List.length_map, length_columnsOf])
    (by rw [List.length_map, List.length_zipIdx, List.length_map, length_columnsOf])

/-- **Newton steps keep the number of coefficients.** -/
theorem length_newton {penalty : α} {x : List (List α)} {y : List α} {steps : Nat}
    {beta final : List α} (h : newton penalty x y steps beta = some final)
    (hbeta : beta.length = width x + 1) : final.length = width x + 1 := by
  induction steps generalizing beta with
  | zero =>
    cases h
    exact hbeta
  | succ steps ih =>
    rw [newton] at h
    split at h
    · exact nomatch h
    · rename_i step hstep
      have hlength : step.length = width x + 1 := by
        rw [LinearSystem.length_solve hstep, length_newtonEquations]
      have hnext : (List.zipWith (· - ·) beta step).length = width x + 1 := by
        rw [List.length_zipWith, hbeta, hlength, Nat.min_self]
      dsimp only at h
      split at h
      · cases h
        exact hnext
      · exact ih h hnext

theorem length_splitIntercept {beta : List α} {p : Nat} (h : beta.length = p + 1) :
    (splitIntercept beta).2.length = p := by
  cases beta with
  | nil => exact nomatch h
  | cons b cs => exact Nat.succ.inj h

/-! ## 3. Gradient steps -/

/-- What holds of `f a b` for every `a` of a list holds of the list zipped with any other. -/
theorem forall_mem_zipWith {β γ δ : Type} {f : β → γ → δ} {P : δ → Prop} {bs : List β}
    {cs : List γ} (h : ∀ b ∈ bs, ∀ c, P (f b c)) : ∀ d ∈ List.zipWith f bs cs, P d := by
  intro d hd
  obtain ⟨i, hi, rfl⟩ := List.mem_iff_getElem.mp hd
  rw [List.getElem_zipWith]
  exact h _ (List.getElem_mem _) _

/-- One intercept and one row of weights for each class, one weight for each feature. -/
structure ClassWeights.HasShape (w : ClassWeights α) (classes features : Nat) : Prop where
  intercepts : w.intercepts.length = classes
  weights : w.weights.length = classes
  rows : ∀ row ∈ w.weights, row.length = features

theorem hasShape_gradientStep {penalty rate n : α} {z columns : List (List α)} {y : List α}
    {w : ClassWeights α} {classes features : Nat} (h : w.HasShape classes features)
    (hcolumns : columns.length = features) :
    (gradientStep penalty rate n z columns y w).HasShape classes features where
  intercepts := by
    unfold gradientStep
    rw [List.length_zipWith, length_columnsOf, h.intercepts, Nat.min_self]
  weights := by
    unfold gradientStep
    rw [List.length_zipWith, length_columnsOf, h.weights, h.intercepts, Nat.min_self]
  rows := by
    unfold gradientStep
    refine forall_mem_zipWith fun row hrow e => ?_
    rw [List.length_zipWith, h.rows row hrow, hcolumns, Nat.min_self]

/-- **Gradient steps keep the classes and the features.** -/
theorem hasShape_descend {penalty rate n : α} {z columns : List (List α)} {y : List α}
    {steps classes features : Nat} {w : ClassWeights α} (h : w.HasShape classes features)
    (hcolumns : columns.length = features) :
    (descend penalty rate n z columns y steps w).HasShape classes features := by
  induction steps generalizing w with
  | zero => exact h
  | succ steps ih =>
    rw [descend]
    exact ih (hasShape_gradientStep h hcolumns)

omit [Scalar α] in
theorem hasShape_replicate (classes features : Nat) (b v : α) :
    ClassWeights.HasShape ⟨List.replicate classes b,
      List.replicate classes (List.replicate features v)⟩ classes features where
  intercepts := List.length_replicate
  weights := List.length_replicate
  rows row hrow := by rw [List.eq_of_mem_replicate hrow, List.length_replicate]

theorem hasShape_learnStandardised (classes : Nat) (penalty : α) (steps : Nat) (rate : α)
    (x : List (List α)) (y : List α) :
    (learnStandardised classes penalty steps rate x y).HasShape classes (width x) := by
  unfold learnStandardised
  exact hasShape_descend (hasShape_replicate classes (width x) 0 0) (length_columnsOf _ _)

theorem length_spreads_ofTable (x : List (List α)) :
    (Standard.ofTable x).spreads.length = width x := by
  unfold Standard.ofTable
  rw [List.length_zipWith, List.length_map, length_columnsOf, Nat.min_self]

theorem hasShape_toRaw {s : Standard α} {w : ClassWeights α} {classes features : Nat}
    (h : w.HasShape classes features) (hs : s.spreads.length = features) :
    (s.toRaw w).HasShape classes features where
  intercepts := by
    unfold Standard.toRaw
    rw [List.length_zipWith, h.intercepts, h.weights, Nat.min_self]
  weights := by
    unfold Standard.toRaw
    rw [List.length_map, h.weights]
  rows := by
    unfold Standard.toRaw
    intro row hrow
    obtain ⟨v, hv, rfl⟩ := List.mem_map.mp hrow
    rw [List.length_zipWith, h.rows v hv, hs, Nat.min_self]

/-! ## 4. Estimators -/

theorem length_classProbabilities (bs : List α) (ws : List (List α)) (features : List α) :
    (classProbabilities bs ws features).length = min bs.length ws.length := by
  rw [classProbabilities, shares, List.length_map, List.length_map, logits, List.length_zipWith]

/-- The predictor is of the estimator's kind and takes as many features; for classes it has a row
for each of them. -/
def Estimator.Suits (features : Nat) : Estimator α → Predictor α → Prop
  | leastSquares, .linear _ cs => cs.length = features
  | logistic .., .logistic _ cs => cs.length = features
  | softmax classes .., .softmax bs ws => ClassWeights.HasShape ⟨bs, ws⟩ classes features
  | _, _ => False

/-- **What an estimator fits suits the estimator and the table's width.** -/
theorem Estimator.suits_of_fit {e : Estimator α} {x : List (List α)} {y : List α}
    {p : Predictor α} (h : e.fit x y = some p) : e.Suits (width x) p := by
  cases e with
  | leastSquares =>
    rw [fit, fitLinear] at h
    obtain ⟨beta, hbeta, rfl⟩ := Option.map_eq_some_iff.mp h
    exact length_splitIntercept
      ((LinearSystem.length_solve hbeta).trans (length_normalEquations x y))
  | logistic penalty steps =>
    rw [fit, fitLogistic] at h
    obtain ⟨beta, hbeta, rfl⟩ := Option.map_eq_some_iff.mp h
    exact length_splitIntercept (length_newton hbeta List.length_replicate)
  | softmax classes penalty steps rate =>
    rw [fit] at h
    cases h
    exact hasShape_toRaw (hasShape_learnStandardised classes penalty steps rate x y)
      (length_spreads_ofTable x)

end Regression

end CodeCausality
