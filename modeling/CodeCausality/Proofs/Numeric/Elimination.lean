import Mathlib.LinearAlgebra.Matrix.NonsingularInverse
import CodeCausality.Numeric.Elimination
import CodeCausality.Proofs.Numeric.Pivots
import CodeCausality.Proofs.Traversal

/-!
# Elimination in place

A system that keeps its size and one that loses an unknown in each step are eliminated alike. Over
exact arithmetic the answer to `a * x = b` is its only solution, and nothing is divided by zero.

* `shorten` -- what is left of an equation in the system that shrinks;
* `exists_pivot`, `shorten_cleared`, `exists_sweepColumn` -- one column: both choose the same pivot
  and leave the same equations below it;
* `Stepped`, `foldlM_sweepColumn` -- all columns: **both refuse, or what is left in place gives the
  unknowns that the other has found**;
* `backStep_eq`, `foldlM_backStep` -- from the last equation upwards these are found;
* `solveInPlace_eq` -- **elimination in place comes to `solve`**, in any arithmetic;
* `solve_gives_only_solution` -- **an answer is the only solution, a singular matrix has none, and
  no division by zero is made.**
-/

namespace CodeCausality

namespace LinearSystem

variable {α : Type} [Scalar α] {divide : α → α → Except Stop α} {least : α}
  {done rest rows : List (Equation α)} {first pivot e : Equation α} {col : Nat}

/-! ## 1. Pivots -/

/-- The equation from a column on. -/
def shorten (col : Nat) (e : Equation α) : Equation α := ⟨e.coefficients.drop col, e.constant⟩

theorem lead_shorten (col : Nat) (e : Equation α) : lead (shorten col e) = entry e col := by
  rw [lead, shorten, entry, List.headD_eq_head?_getD, List.head?_drop, List.getD_eq_getElem?_getD]

theorem rowAt_eq_of_getElem? {i : Nat} (h : rows[i]? = some e) : rowAt rows i = e := by
  rw [rowAt, List.getD_eq_getElem?_getD, h, Option.getD_some]

omit [Scalar α] in
/-- Behind the equations that are done stand the others. -/
theorem getElem?_done_append (hdone : done.length = col) (i : Nat) :
    (done ++ rest)[col + i]? = rest[i]? := by
  rw [List.getElem?_append_right (by omega), hdone, Nat.add_sub_cancel_left]

theorem rowAt_done_append (hdone : done.length = col) (first : Equation α)
    (rest : List (Equation α)) : rowAt (done ++ first :: rest) col = first :=
  rowAt_eq_of_getElem? (getElem?_done_append hdone 0)

/-- The best position so far, or one of those that are left. -/
theorem pivotFrom_cases (best : Nat) (top : α) (i : Nat) (es : List (Equation α)) :
    pivotFrom best top i es = best ∨
      ∃ k < es.length, pivotFrom best top i es = i + k := by
  induction es generalizing best top i with
  | nil => exact .inl rfl
  | cons e es ih =>
    rw [pivotFrom, List.length_cons]
    split
    · rcases ih i (Scalar.abs (lead e)) (i + 1) with heq | ⟨k, hk, heq⟩
      · exact .inr ⟨0, Nat.succ_pos _, heq⟩
      · exact .inr ⟨k + 1, Nat.succ_lt_succ hk, by rw [heq]; omega⟩
    · rcases ih best top (i + 1) with heq | ⟨k, hk, heq⟩
      · exact .inl heq
      · exact .inr ⟨k + 1, Nat.succ_lt_succ hk, by rw [heq]; omega⟩

/-- Down a column the choice goes as over the leading coefficients of the shortened equations. -/
theorem foldl_pivot (size : Nat → α) {base i : Nat} (best : Nat)
    (hrest : ∀ k e, rest[k]? = some e → size (base + (i + k)) = Scalar.abs (entry e col)) :
    (List.range' (base + i) rest.length).foldl
        (fun best i => if Scalar.totalLE (size best) (size i) then i else best) (base + best) =
      base + pivotFrom best (size (base + best)) i (rest.map (shorten col)) := by
  induction rest generalizing best i with
  | nil => rfl
  | cons e rest ih =>
    have hsize : size (base + i) = Scalar.abs (entry e col) := hrest 0 e rfl
    have htail : ∀ k d, rest[k]? = some d →
        size (base + (i + 1 + k)) = Scalar.abs (entry d col) := fun k d hd => by
      rw [Nat.add_assoc i, Nat.add_comm 1]
      exact hrest (k + 1) d hd
    rw [List.length_cons, List.range'_succ, List.foldl_cons, List.map_cons, pivotFrom,
      lead_shorten, ← hsize]
    split <;> exact ih _ htail

theorem pivotRow_eq (hdone : done.length = col) (first : Equation α) (rest : List (Equation α)) :
    pivotRow (done ++ first :: rest) col =
      col + pivotFrom 0 (Scalar.abs (lead (shorten col first))) 1 (rest.map (shorten col)) := by
  have hcount : (done ++ first :: rest).length - (col + 1) = rest.length := by
    rw [List.length_append, List.length_cons]
    omega
  have hsizes (k : Nat) (e : Equation α) (he : rest[k]? = some e) :
      Scalar.abs (entry (rowAt (done ++ first :: rest) (col + (1 + k))) col) =
        Scalar.abs (entry e col) := by
    rw [rowAt_eq_of_getElem? ((getElem?_done_append hdone _).trans
      ((congrArg _ (Nat.add_comm 1 k)).trans he))]
  have hfold := foldl_pivot
    (fun i => Scalar.abs (entry (rowAt (done ++ first :: rest) i) col)) 0 hsizes
  rw [Nat.add_zero, rowAt_done_append hdone] at hfold
  rw [pivotRow, hcount, hfold, lead_shorten]

/-- **The pivot that changes places with the equation on the diagonal is the one that is set aside
from the shortened equations.** -/
theorem exists_pivot (hdone : done.length = col) (first : Equation α) (rest : List (Equation α)) :
    ∃ pivot others, rowAt (done ++ first :: rest) (pivotRow (done ++ first :: rest) col) = pivot ∧
      swapRows (done ++ first :: rest) col (pivotRow (done ++ first :: rest) col) =
        done ++ pivot :: others ∧
      setAside ((first :: rest).map (shorten col)) =
        some (shorten col pivot, others.map (shorten col)) ∧
      (pivot :: others).Perm (first :: rest) := by
  have hfirst := rowAt_done_append hdone first rest
  rw [pivotRow_eq hdone, List.map_cons, setAside]
  rcases pivotFrom_cases 0 (Scalar.abs (lead (shorten col first))) 1 (rest.map (shorten col)) with
    heq | ⟨k, hk, heq⟩
  · rw [heq, Nat.add_zero, hfirst]
    refine ⟨first, rest, rfl, ?_, rfl, .refl _⟩
    rw [swapRows, hfirst, ← hdone]
    simp
  · rw [List.length_map] at hk
    rw [Nat.add_comm 1] at heq
    have hpivot : rowAt (done ++ first :: rest) (col + (k + 1)) = rest[k] :=
      rowAt_eq_of_getElem? ((getElem?_done_append hdone _).trans (List.getElem?_eq_getElem hk))
    have hget : (rest.map (shorten col))[k]? = some (shorten col rest[k]) := by
      rw [List.getElem?_map, List.getElem?_eq_getElem hk, Option.map_some]
    rw [heq, hpivot]
    refine ⟨rest[k], rest.set k first, rfl, ?_, ?_, ?_⟩
    · rw [swapRows, hfirst, hpivot, ← hdone]
      simp
    · dsimp only
      rw [hget, List.map_set]
    · have hperm := rest.getD_set_perm_cons k first
      rwa [List.getElem?_eq_getElem hk, Option.getD_some] at hperm

/-! ## 2. Columns -/

/-- What an equation becomes in a column. -/
def cleared (pivot : Equation α) (col : Nat) (e : Equation α) : Equation α :=
  let factor := entry e col / entry pivot col
  let subtract (k : Nat) (a : α) : α := if col ≤ k then a - factor * entry pivot k else a
  if factor == 0 then e
  else ⟨e.coefficients.mapIdx subtract, e.constant - factor * pivot.constant⟩

theorem subtractPivot_eq
    (h : divide (entry e col) (entry pivot col) = .ok (entry e col / entry pivot col)) :
    subtractPivot divide pivot col e = .ok (cleared pivot col e) := by
  rw [subtractPivot, h, cleared]
  exact (apply_ite Except.ok _ _ _).symm

theorem length_cleared (pivot : Equation α) (col : Nat) (e : Equation α) :
    (cleared pivot col e).coefficients.length = e.coefficients.length := by
  rw [cleared]
  split
  · rfl
  · exact List.length_mapIdx

/-- **A step in place is a step on the shortened equations**: what stands left of the next column
has no part in it, whether it was cleared or, with a factor of zero, left. -/
theorem shorten_cleared (h : e.coefficients.length = pivot.coefficients.length) :
    shorten (col + 1) (cleared pivot col e) = reduce (shorten col pivot) (shorten col e) := by
  rw [cleared, reduce, lead_shorten, lead_shorten]
  dsimp only [shorten]
  split
  · rw [List.tail_drop]
  · rw [List.tail_drop, List.tail_drop]
    congr 1
    refine List.ext_getElem? fun k => ?_
    rw [List.getElem?_drop, List.getElem?_mapIdx, List.getElem?_zipWith, List.getElem?_drop,
      List.getElem?_drop]
    rcases Nat.lt_or_ge (col + 1 + k) e.coefficients.length with hk | hk
    · have hk' : col + 1 + k < pivot.coefficients.length := h ▸ hk
      have hentry : entry pivot (col + 1 + k) = pivot.coefficients[col + 1 + k] := by
        rw [entry, List.getD_eq_getElem?_getD, List.getElem?_eq_getElem hk', Option.getD_some]
      rw [List.getElem?_eq_getElem hk, List.getElem?_eq_getElem hk', Option.map_some,
        if_pos (by omega), hentry]
    · rw [List.getElem?_eq_none_iff.mpr hk]
      rfl

/-- After a column the shortened equations are those of the smaller system. -/
theorem map_shorten_cleared {others : List (Equation α)} {width : Nat}
    (hpivot : pivot.coefficients.length = width)
    (hothers : ∀ e ∈ others, e.coefficients.length = width) :
    (others.map (cleared pivot col)).map (shorten (col + 1)) =
      (others.map (shorten col)).map (reduce (shorten col pivot)) := by
  rw [List.map_map, List.map_map]
  exact List.map_congr_left fun e he => shorten_cleared ((hothers e he).trans hpivot.symm)

/-- **A column refuses the pivot or leaves one equation more that is done.** -/
theorem exists_sweepColumn
    (hdivide : ∀ a b : α, ¬ Scalar.abs b < least → divide a b = .ok (a / b))
    (hdone : done.length = col) (first : Equation α) (rest : List (Equation α)) :
    ∃ pivot others, setAside ((first :: rest).map (shorten col)) =
        some (shorten col pivot, others.map (shorten col)) ∧
      (pivot :: others).Perm (first :: rest) ∧
      sweepColumn divide least (done ++ first :: rest) col =
        if Scalar.abs (entry pivot col) < least then .error .refused
        else .ok (done ++ [pivot] ++ others.map (cleared pivot col)) := by
  obtain ⟨pivot, others, hrow, hswap, haside, hperm⟩ := exists_pivot hdone first rest
  refine ⟨pivot, others, haside, hperm, ?_⟩
  rw [sweepColumn, hrow, hswap]
  dsimp only
  split
  · rfl
  · rename_i hlarge
    have hbelow : (done ++ pivot :: others).drop (col + 1) = others := by
      rw [← hdone, ← List.drop_drop, List.drop_left, List.drop_one, List.tail_cons]
    have habove : (done ++ pivot :: others).take (col + 1) = done ++ [pivot] := by
      rw [← hdone, List.take_length_add_append, List.take_one, List.head?_cons]
      rfl
    have hcleared : others.mapM (subtractPivot divide pivot col) =
        .ok (others.map (cleared pivot col)) :=
      mapM_eq_ok_iff.mpr (List.forall₂_map_right_iff.mpr
        (List.forall₂_same.mpr fun e _ => subtractPivot_eq (hdivide _ _ hlarge)))
    rw [rowAt_done_append hdone, hbelow, habove, hcleared]
    rfl

/-! ## 3. All columns -/

/-- Equations of which the first has its pivot in this column and each following one in the next,
with the values of the unknowns from this column on that they give. -/
inductive Stepped (least : α) : Nat → List (Equation α) → List α → Prop where
  | nil {col : Nat} : Stepped least col [] []
  | cons {col : Nat} {e : Equation α} {rest : List (Equation α)} {xs : List α}
      (hlarge : ¬ Scalar.abs (entry e col) < least) (hrest : Stepped least (col + 1) rest xs) :
      Stepped least col (e :: rest)
        ((e.constant - Scalar.dot (e.coefficients.drop (col + 1)) xs) / entry e col :: xs)

theorem Stepped.length_eq {xs : List α} (h : Stepped least col rows xs) :
    xs.length = rows.length := by
  induction h with
  | nil => rfl
  | cons _ _ ih => rw [List.length_cons, List.length_cons, ih]

/-- **The columns that are left are refused if the shortened equations are, and else leave equations
that give the same unknowns**: by induction on the columns. -/
theorem foldlM_sweepColumn
    (hdivide : ∀ a b : α, ¬ Scalar.abs b < least → divide a b = .ok (a / b)) {width m : Nat}
    (hdone : done.length = col) (hrows : rows.length = m)
    (hwidths : ∀ e ∈ rows, e.coefficients.length = width) :
    (eliminate least m (rows.map (shorten col)) = none ∧
      (List.range' col m).foldlM (sweepColumn divide least) (done ++ rows) = .error .refused) ∨
    ∃ xs swept, eliminate least m (rows.map (shorten col)) = some xs ∧
      (List.range' col m).foldlM (sweepColumn divide least) (done ++ rows) =
        .ok (done ++ swept) ∧
      Stepped least col swept xs ∧ ∀ e ∈ swept, e.coefficients.length = width := by
  induction m generalizing col done rows with
  | zero =>
    obtain rfl := List.length_eq_zero_iff.mp hrows
    exact .inr ⟨[], [], rfl, rfl, .nil, hwidths⟩
  | succ m ih =>
    obtain ⟨first, rest, rfl⟩ := List.exists_cons_of_length_eq_add_one hrows
    obtain ⟨pivot, others, haside, hperm, hsweep⟩ := exists_sweepColumn hdivide hdone first rest
    rw [List.range'_succ, List.foldlM_cons, hsweep, eliminate, haside]
    dsimp only
    rw [lead_shorten]
    split
    · exact .inl ⟨rfl, rfl⟩
    · rename_i hlarge
      have hpivot := hwidths pivot (hperm.subset List.mem_cons_self)
      have hothers : ∀ e ∈ others, e.coefficients.length = width := fun e he =>
        hwidths e (hperm.subset (List.mem_cons_of_mem _ he))
      rw [← map_shorten_cleared hpivot hothers]
      have hdone' : (done ++ [pivot]).length = col + 1 := by
        rw [List.length_append, List.length_singleton, hdone]
      have hrows' : (others.map (cleared pivot col)).length = m := by
        rw [List.length_map]
        exact Nat.succ.inj (hperm.length_eq.trans hrows)
      have hwidths' : ∀ e ∈ others.map (cleared pivot col), e.coefficients.length = width :=
        List.forall_mem_map.mpr fun e he => (length_cleared pivot col e).trans (hothers e he)
      rcases ih hdone' hrows' hwidths' with
        ⟨hnone, hstop⟩ | ⟨xs, swept, hsome, hswept, hstepped, hsweptWidths⟩
      · rw [hnone]
        exact .inl ⟨rfl, hstop⟩
      · rw [hsome]
        refine .inr ⟨_, pivot :: swept, rfl, ?_, ?_,
          List.forall_mem_cons.mpr ⟨hpivot, hsweptWidths⟩⟩
        · rwa [← List.append_cons done pivot swept] at hswept
        · have htail : (shorten col pivot).coefficients.tail =
              pivot.coefficients.drop (col + 1) := List.tail_drop
          rw [htail]
          exact .cons hlarge hstepped

/-! ## 4. Unknowns -/

/-- The products with the unknowns that stand behind a column. -/
theorem map_range'_products {before xs : List α} (hbefore : before.length = col)
    (he : e.coefficients.length = col + xs.length) :
    ((List.range' col xs.length).map fun k => entry e k * (before ++ xs).getD k 0) =
      List.zipWith (· * ·) (e.coefficients.drop col) xs := by
  refine List.ext_getElem ?_ fun k hk hk' => ?_
  · rw [List.length_map, List.length_range', List.length_zipWith, List.length_drop, he,
      Nat.add_sub_cancel_left, Nat.min_self]
  · have hk : k < xs.length := by simpa using hk
    have hentry : entry e (col + k) = e.coefficients[col + k] := by
      rw [entry, List.getD_eq_getElem?_getD, List.getElem?_eq_getElem, Option.getD_some]
    have hx : (before ++ xs).getD (col + k) 0 = xs[k] := by
      rw [List.getD_eq_getElem?_getD, List.getElem?_append_right (by omega), hbefore,
        Nat.add_sub_cancel_left, List.getElem?_eq_getElem hk, Option.getD_some]
    rw [List.getElem_map, List.getElem_range', List.getElem_zipWith, List.getElem_drop, one_mul,
      hentry, hx]

/-- **One unknown more**, where those behind it are known. -/
theorem backStep_eq (hdivide : ∀ a b : α, ¬ Scalar.abs b < least → divide a b = .ok (a / b))
    (hdone : done.length = col) (hlarge : ¬ Scalar.abs (entry e col) < least)
    {x : α} {before xs : List α} (hbefore : before.length = col) (hxs : xs.length = rest.length)
    (he : e.coefficients.length = (done ++ e :: rest).length) :
    backStep divide (done ++ e :: rest) (before ++ x :: xs) col =
      .ok (before ++
        (e.constant - Scalar.dot (e.coefficients.drop (col + 1)) xs) / entry e col :: xs) := by
  have hlength : (done ++ e :: rest).length = col + 1 + xs.length := by
    rw [List.length_append, List.length_cons, hdone, hxs]
    omega
  have hproducts : ((List.range' (col + 1) xs.length).map fun k =>
      entry e k * (before ++ x :: xs).getD k 0) =
        List.zipWith (· * ·) (e.coefficients.drop (col + 1)) xs := by
    rw [List.append_cons]
    exact map_range'_products (by rw [List.length_append, List.length_singleton, hbefore])
      (he.trans hlength)
  rw [backStep, rowAt_done_append hdone, hlength, Nat.add_sub_cancel_left, hproducts,
    ← Scalar.dot, hdivide _ _ hlarge]
  subst hbefore
  simp [bind, Except.bind, pure, Except.pure]

/-- **From the last equation upwards the unknowns are those that the equations give**: by induction
on these, the last first. -/
theorem foldlM_backStep (hdivide : ∀ a b : α, ¬ Scalar.abs b < least → divide a b = .ok (a / b))
    {swept : List (Equation α)} {xs : List α} (hstepped : Stepped least col swept xs)
    (hdone : done.length = col)
    (hwidths : ∀ e ∈ swept, e.coefficients.length = (done ++ swept).length)
    {before zs : List α} (hbefore : before.length = col) (hzs : zs.length = swept.length) :
    (List.range' col swept.length).reverse.foldlM (backStep divide (done ++ swept))
      (before ++ zs) = .ok (before ++ xs) := by
  induction hstepped generalizing done before zs with
  | nil =>
    obtain rfl := List.length_eq_zero_iff.mp hzs
    rfl
  | @cons col e rest xs hlarge hrest ih =>
    obtain ⟨z, zs, rfl⟩ := List.exists_cons_of_length_eq_add_one hzs
    have hdone' : (done ++ [e]).length = col + 1 := by
      rw [List.length_append, List.length_singleton, hdone]
    have hbefore' : (before ++ [z]).length = col + 1 := by
      rw [List.length_append, List.length_singleton, hbefore]
    have hwidths' : ∀ d ∈ rest, d.coefficients.length = (done ++ [e] ++ rest).length := by
      rw [← List.append_cons]
      exact fun d hd => hwidths d (List.mem_cons_of_mem _ hd)
    have hlater := ih hdone' hwidths' hbefore' (Nat.succ.inj hzs)
    rw [← List.append_cons, ← List.append_cons, ← List.append_cons] at hlater
    rw [List.length_cons, List.range'_succ, List.reverse_cons, List.foldlM_append, hlater]
    have hstep := backStep_eq (x := z) hdivide hdone hlarge hbefore hrest.length_eq
      (hwidths e List.mem_cons_self)
    exact (bind_pure _).trans hstep

/-! ## 5. Systems -/

/-- **Elimination in place is elimination**, in any arithmetic: where only pivots that are accepted
are divided by, all that is asked of a division is that it divides by these. -/
theorem solveInPlace_eq {es : List (Equation α)}
    (hdivide : ∀ a b : α, ¬ Scalar.abs b < pivotTolerance * diagonalScale es →
      divide a b = .ok (a / b))
    (hes : ∀ e ∈ es, e.coefficients.length = es.length) :
    solveInPlace divide es = (solve es).elim (.error .refused) .ok := by
  have hsame : es.map (shorten 0) = es := List.map_id _
  have hdone : ([] : List (Equation α)).length = 0 := rfl
  have hsweep := foldlM_sweepColumn hdivide hdone rfl hes
  rw [hsame, List.nil_append] at hsweep
  rw [solveInPlace, solve, sweep, List.range_eq_range']
  rcases hsweep with ⟨hnone, hstop⟩ | ⟨xs, swept, hsome, hswept, hstepped, hwidths⟩
  · rw [hnone, hstop]
    rfl
  · have hlength : swept.length = es.length := by
      rw [← hstepped.length_eq, length_eliminate hsome]
    have hbefore : ([] : List α).length = 0 := rfl
    have hzeros : (List.replicate swept.length (0 : α)).length = swept.length :=
      List.length_replicate
    have hback := foldlM_backStep hdivide hstepped hdone
      (fun e he => (hwidths e he).trans hlength.symm) hbefore hzeros
    have hunknowns : backSubstitute divide swept = .ok xs := by
      rw [backSubstitute, List.range_eq_range']
      exact hback
    rw [hsome, hswept]
    dsimp only [bind, Except.bind]
    rw [List.nil_append, hunknowns]
    dsimp only
    cases Scalar.allFinite xs <;> rfl

/-! ## 6. Matrices -/

section Matrices

variable {β : Type} {n : Nat}

/-- The equations `a * x = b`. -/
def ofMatrix (a : Matrix (Fin n) (Fin n) β) (b : Fin n → β) : List (Equation β) :=
  List.ofFn fun i => ⟨List.ofFn (a i), b i⟩

theorem length_ofMatrix (a : Matrix (Fin n) (Fin n) β) (b : Fin n → β) :
    (ofMatrix a b).length = n := List.length_ofFn

theorem width_ofMatrix (a : Matrix (Fin n) (Fin n) β) (b : Fin n → β) :
    ∀ e ∈ ofMatrix a b, e.coefficients.length = (ofMatrix a b).length := by
  rw [ofMatrix, List.forall_mem_ofFn_iff]
  exact fun i => by rw [List.length_ofFn, List.length_ofFn]

variable {K : Type} [Field K] [LinearOrder K] [FloorSemiring K] [RootExp K]

theorem dot_ofFn (f g : Fin n → K) :
    Scalar.dot (List.ofFn f) (List.ofFn g) = dotProduct f g := by
  have hzip : List.zipWith (· * ·) (List.ofFn f) (List.ofFn g) =
      List.ofFn fun i => f i * g i :=
    List.ext_getElem (by simp) fun i _ _ => by simp
  rw [Scalar.dot_eq, hzip, List.sum_ofFn, dotProduct]

theorem holds_ofMatrix_iff (a : Matrix (Fin n) (Fin n) K) (b w : Fin n → K) :
    (∀ e ∈ ofMatrix a b, e.Holds (List.ofFn w)) ↔ a.mulVec w = b := by
  rw [ofMatrix, List.forall_mem_ofFn_iff, funext_iff]
  exact forall_congr' fun i => by rw [Equation.Holds, dot_ofFn, Matrix.mulVec]

variable [IsStrictOrderedRing K]

/-- **What is answered is the only solution.** -/
theorem mulVec_eq_iff_of_solve {a : Matrix (Fin n) (Fin n) K} {b : Fin n → K} {xs : List K}
    (h : solve (ofMatrix a b) = some xs) :
    ∃ x : Fin n → K, xs = List.ofFn x ∧ ∀ w, a.mulVec w = b ↔ w = x := by
  have hlength : xs.length = n := (length_solve h).trans (length_ofMatrix a b)
  subst hlength
  refine ⟨xs.get, (List.ofFn_get xs).symm, fun w => ?_⟩
  have hw : (List.ofFn w).length = (ofMatrix a b).length := by
    rw [List.length_ofFn, length_ofMatrix]
  rw [← holds_ofMatrix_iff, solve_iff (width_ofMatrix a b) h hw]
  exact ⟨fun heq => List.ofFn_injective (heq.trans (List.ofFn_get xs).symm),
    fun heq => heq ▸ List.ofFn_get xs⟩

/-- A matrix whose system has exactly one solution is invertible: what it sends to the same can be
added to the solution. -/
theorem isUnit_of_mulVec_eq_iff {a : Matrix (Fin n) (Fin n) K} {b x : Fin n → K}
    (h : ∀ w, a.mulVec w = b ↔ w = x) : IsUnit a := by
  rw [← Matrix.mulVec_injective_iff_isUnit]
  intro u v huv
  have hx : a.mulVec x = b := (h x).mpr rfl
  have hshifted : x + (u - v) = x := by
    rw [← h, Matrix.mulVec_add, Matrix.mulVec_sub, hx, huv, sub_self, add_zero]
  exact sub_eq_zero.mp (add_eq_left.mp hshifted)

/-- No pivot that is accepted is zero. -/
theorem checkedDivide_eq {es : List (Equation K)} (a b : K)
    (hlarge : ¬ Scalar.abs b < pivotTolerance * diagonalScale es) :
    checkedDivide a b = .ok (a / b) := by
  rw [checkedDivide, if_neg]
  intro hzero
  have hb : b = 0 := (beq_iff_eq.mp hzero).trans Scalar.ofNat_zero
  exact hlarge (lt_of_eq_of_lt (abs_eq_zero.mpr hb) (pivotTolerance_mul_pos es))

/-- **A system is answered with its only solution or not at all, and nothing is divided by zero.**
For matrices of every size: if there is an answer, the matrix is invertible and the answer is the
only solution; for a singular matrix there is none; and elimination in place, stopped by a division
by zero, is never stopped by one and comes to the same. -/
theorem solve_gives_only_solution (a : Matrix (Fin n) (Fin n) K) (b : Fin n → K) :
    (∀ xs, solve (ofMatrix a b) = some xs →
      IsUnit a ∧ ∃ x : Fin n → K, xs = List.ofFn x ∧ ∀ w, a.mulVec w = b ↔ w = x) ∧
    (¬ IsUnit a → solve (ofMatrix a b) = none) ∧
    solveInPlace checkedDivide (ofMatrix a b) =
      (solve (ofMatrix a b)).elim (.error .refused) .ok := by
  have hsound (xs : List K) (h : solve (ofMatrix a b) = some xs) :
      IsUnit a ∧ ∃ x : Fin n → K, xs = List.ofFn x ∧ ∀ w, a.mulVec w = b ↔ w = x := by
    obtain ⟨x, hxs, hx⟩ := mulVec_eq_iff_of_solve h
    exact ⟨isUnit_of_mulVec_eq_iff hx, x, hxs, hx⟩
  refine ⟨hsound, fun hsingular => ?_, solveInPlace_eq checkedDivide_eq (width_ofMatrix a b)⟩
  exact Option.eq_none_iff_forall_ne_some.mpr fun xs h => hsingular (hsound xs h).1

/-- The first pivot stands below the diagonal, and one of the equations does not have the first
unknown. -/
def threeEquations : Matrix (Fin 3) (Fin 3) ℚ := !![0, 2, 0; 2, 0, 2; 1, 1, 2]

/-- The third equation follows from the others. -/
def twoOfThree : Matrix (Fin 3) (Fin 3) ℚ := !![0, 2, 0; 2, 0, 2; 1, 1, 1]

theorem solve_gives_only_solution_three :
    (∀ w, threeEquations.mulVec w = ![4, 8, 6] ↔ w = ![4, 2, 0]) ∧
      solveInPlace checkedDivide (ofMatrix threeEquations ![4, 8, 6]) = .ok [4, 2, 0] ∧
      solve (ofMatrix twoOfThree ![4, 8, 6]) = none := by
  obtain ⟨hsound, -, hplace⟩ := solve_gives_only_solution threeEquations ![4, 8, 6]
  obtain ⟨-, hsingular, -⟩ := solve_gives_only_solution twoOfThree ![4, 8, 6]
  have hsolved : solve (ofMatrix threeEquations ![4, 8, 6]) = some [4, 2, 0] := by decide +kernel
  obtain ⟨-, x, hx, honly⟩ := hsound _ hsolved
  have hx : x = ![4, 2, 0] := List.ofFn_injective hx.symm
  have hdet : twoOfThree.det = 0 := by decide +kernel
  refine ⟨hx ▸ honly, by rw [hplace, hsolved]; rfl, hsingular fun hunit => ?_⟩
  exact ((Matrix.isUnit_iff_isUnit_det _).mp hunit).ne_zero hdet

end Matrices

end LinearSystem

end CodeCausality
