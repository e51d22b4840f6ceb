import CodeCausality.Regression.Moments

/-!
# The normal equations of the moments

* `Moments.ofEntries` -- the sums, by the columns they are for; `ofEntries_add` for one row,
  `foldl_add` for all;
* `equations_accumulate` -- **the equations that are read off the sums are the normal equations**,
  in any arithmetic whose products commute.
-/

namespace CodeCausality

namespace Regression

variable {α : Type} [Scalar α]

namespace Moments

/-- The sums that have these values, by their columns. -/
def ofEntries (p : Nat) (f : Nat → Nat → α) (c : Nat → α) : Moments α where
  triangle := (List.range p).map fun i => (List.range (p - i)).map fun d => f i (i + d)
  constants := (List.range p).map c

theorem zero_eq (p : Nat) : zero p = ofEntries p (fun _ _ => (0 : α)) fun _ => 0 := by
  unfold zero ofEntries
  simp only [List.map_const', List.length_range]

/-- **A row adds to each sum the product of its values.** -/
theorem ofEntries_add {p : Nat} {f : Nat → Nat → α} {c : Nat → α} {row : List α}
    (hrow : row.length = p) (target : α) :
    (ofEntries p f c).add row target = ofEntries p
      (fun i j => f i j + row.getD i 0 * row.getD j 0) fun i => c i + row.getD i 0 * target := by
  unfold ofEntries add
  congr 1
  · refine List.ext_getElem (by simp) fun i hi hi' => ?_
    have hlt : i < p := by simpa using hi'
    refine List.ext_getElem (by simp [hrow]) fun d hd hd' => ?_
    have hsum : i + d < p := by
      simp only [List.getElem_map, List.getElem_range, List.length_map, List.length_range] at hd'
      omega
    simp [List.getD_eq_getElem?_getD, hrow, hlt, hsum]
  · refine List.ext_getElem (by simp [hrow]) fun i hi hi' => ?_
    have hlt : i < p := by simpa using hi'
    simp [List.getD_eq_getElem?_getD, hrow, hlt]

/-- All rows add their products. -/
theorem foldl_add {p : Nat} {es : List (List α × α)} (hes : ∀ e ∈ es, e.1.length = p)
    (f : Nat → Nat → α) (c : Nat → α) :
    es.foldl (fun m e => m.add e.1 e.2) (ofEntries p f c) = ofEntries p
      (fun i j => es.foldl (fun s e => s + e.1.getD i 0 * e.1.getD j 0) (f i j))
      fun i => es.foldl (fun s e => s + e.1.getD i 0 * e.2) (c i) := by
  induction es generalizing f c with
  | nil => rfl
  | cons e es ih =>
    rw [List.foldl_cons, ofEntries_add (hes e List.mem_cons_self),
      ih fun e he => hes e (List.mem_cons_of_mem _ he)]
    rfl

/-- The sum for two columns, if it is the same either way. -/
theorem product_ofEntries {p : Nat} {f : Nat → Nat → α} {c : Nat → α}
    (hf : ∀ i j, f i j = f j i) {i j : Nat} (hi : i < p) (hj : j < p) :
    (ofEntries p f c).product i j = f i j := by
  unfold product ofEntries
  split
  · rename_i hle
    have hd : j - i < p - i := by omega
    have hsum : i + (j - i) = j := by omega
    simp [List.getD_eq_getElem?_getD, hi, hd, hsum]
  · rename_i hlt
    have hd : i - j < p - j := by omega
    have hsum : j + (i - j) = i := by omega
    simp [List.getD_eq_getElem?_getD, hj, hd, hsum, hf i j]

theorem equations_ofEntries {p : Nat} {f : Nat → Nat → α} {c : Nat → α}
    (hf : ∀ i j, f i j = f j i) :
    (ofEntries p f c).equations p = (List.range p).map fun i => ⟨(List.range p).map (f i), c i⟩ := by
  refine List.map_congr_left fun i hi => ?_
  have hi : i < p := List.mem_range.mp hi
  congr 1
  · exact List.map_congr_left fun j hj => product_ofEntries hf hi (List.mem_range.mp hj)
  · simp [ofEntries, List.getD_eq_getElem?_getD, hi]

end Moments

/-- There is one normal equation for each column. -/
theorem normalEquations_eq (x : List (List α)) (y : List α) :
    normalEquations x y = (columnsOf (width x + 1) (augment x)).map fun c =>
      ⟨(columnsOf (width x + 1) (augment x)).map (Scalar.dot c), Scalar.dot c y⟩ := by
  rw [normalEquations, equations, List.zipWith_map, List.zipWith_self]

/-- Products of two columns are summed row by row. -/
theorem dot_columnOf_columnOf (rows : List (List α)) (i j : Nat) :
    Scalar.dot (columnOf rows i) (columnOf rows j) =
      rows.foldl (fun s row => s + row.getD i 0 * row.getD j 0) 0 := by
  rw [Scalar.dot, columnOf, columnOf, List.zipWith_map, List.zipWith_self, Scalar.sum,
    List.foldl_map]

theorem dot_columnOf (rows : List (List α)) (y : List α) (i : Nat) :
    Scalar.dot (columnOf rows i) y = (rows.zip y).foldl (fun s e => s + e.1.getD i 0 * e.2) 0 := by
  rw [Scalar.dot, columnOf, List.zipWith_map_left, ← List.map_uncurry_zip_eq_zipWith, Scalar.sum,
    List.foldl_map]
  rfl

/-- **What is accumulated row by row, one triangle of it, gives the normal equations.** -/
theorem equations_accumulate (hmul : ∀ a b : α, a * b = b * a) {x : List (List α)}
    (hx : ∀ row ∈ x, row.length = width x) {y : List α} (hy : y.length = x.length) :
    (accumulate x y).equations (width x + 1) = normalEquations x y := by
  have hlengths : ∀ e ∈ (augment x).zip y, e.1.length = width x + 1 := fun e he => by
    obtain ⟨row, hrow, heq⟩ := List.mem_map.mp (List.of_mem_zip he).1
    rw [← heq, List.length_cons, hx row hrow]
  have hrows : ((augment x).zip y).map (·.1) = augment x :=
    List.map_fst_zip (Nat.le_of_eq ((List.length_map _).trans hy.symm))
  have hproducts (i j : Nat) :
      ((augment x).zip y).foldl (fun s e => s + e.1.getD i 0 * e.1.getD j 0) 0 =
        Scalar.dot (columnOf (augment x) i) (columnOf (augment x) j) := by
    rw [dot_columnOf_columnOf, ← hrows, List.foldl_map, hrows]
  rw [accumulate, Moments.zero_eq, Moments.foldl_add hlengths, Moments.equations_ofEntries
    fun i j => by simp only [hmul], normalEquations_eq, columnsOf, List.map_map]
  refine List.map_congr_left fun i _ => ?_
  dsimp only [Function.comp_apply]
  rw [List.map_map, dot_columnOf]
  congr 1
  exact List.map_congr_left fun j _ => hproducts i j

end Regression

end CodeCausality
