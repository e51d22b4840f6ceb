import Mathlib.Data.List.GetD
import CodeCausality.Proofs.Numeric.Exact

/-!
# Percentiles

A percentile is read off a line through the members of a sorted sample, each of which stands at its
rank. The ranks next to a percentile's are those of members, and over exact arithmetic the line
never falls.

* `valueAt`, `percentile_eq` -- the line; a sample of one member is no exception to it;
* `Scales`, `floor_rank_lt`, `ceil_rank_lt` -- **no percentile reads outside of its sample**, where
  a share of `n` is not above `n`;
* `valueAt_le_getD_ceil`, `getD_floor_le_valueAt` -- it stays between its neighbours;
* `valueAt_mono` -- **and does not fall**, neither between two members nor across one;
* `percentile_mono`, `exists_percentile_between` -- so percentiles grow with their rank, from the
  smallest member to the largest.
-/

namespace CodeCausality

namespace Stats

/-! ## 1. The line -/

section Line

variable {α : Type} [Scalar α]

/-- Where the percentile at `q` stands among `n` members, the first of which has rank zero. -/
def rank (n : Nat) (q : α) : α := Scalar.clamp q 0 1 * Scalar.ofNat (n - 1)

/-- The value at a rank, from the members at the ranks next to it. -/
def valueAt (xs : List α) (r : α) : α :=
  xs.getD (Scalar.floor r) 0 +
    (xs.getD (Scalar.ceil r) 0 - xs.getD (Scalar.floor r) 0) * (r - Scalar.ofNat (Scalar.floor r))

theorem percentile_of_two_le {xs : List α} (h : 2 ≤ xs.length) (q : α) :
    percentile xs q = valueAt xs (rank xs.length q) := by
  match xs, h with
  | _ :: _ :: _, _ => rfl

/-- No share of `n` is above `n`, and what is not above `n` is not rounded to more than `n`; a value
that does not compare with `n` counts as not above it. -/
structure Scales (α : Type) [Scalar α] (n : Nat) : Prop where
  share : ∀ q : α, ¬ Scalar.ofNat n < Scalar.clamp q 0 1 * Scalar.ofNat n
  floor_le : ∀ x : α, ¬ Scalar.ofNat n < x → Scalar.floor x ≤ n
  ceil_le : ∀ x : α, ¬ Scalar.ofNat n < x → Scalar.ceil x ≤ n

variable {n : Nat} (h : Scales α (n - 1)) (hn : 0 < n) (q : α)

include h hn

theorem floor_rank_lt : Scalar.floor (rank n q) < n :=
  Nat.lt_of_le_of_lt (h.floor_le _ (h.share q)) (Nat.sub_lt hn Nat.one_pos)

theorem ceil_rank_lt : Scalar.ceil (rank n q) < n :=
  Nat.lt_of_le_of_lt (h.ceil_le _ (h.share q)) (Nat.sub_lt hn Nat.one_pos)

end Line

theorem getD_le_getD {β : Type} [Preorder β] {xs : List β} (h : xs.Pairwise (· ≤ ·)) {d : β}
    {i j : Nat} (hij : i ≤ j) (hj : j < xs.length) : xs.getD i d ≤ xs.getD j d := by
  have hi : i < xs.length := hij.trans_lt hj
  rw [List.getD_eq_getElem xs d hi, List.getD_eq_getElem xs d hj]
  exact h.rel_get_of_le (show (⟨i, hi⟩ : Fin xs.length) ≤ ⟨j, hj⟩ from hij)

variable {K : Type} [Field K] [LinearOrder K] [FloorSemiring K] [RootExp K]

theorem valueAt_eq (xs : List K) (r : K) : valueAt xs r =
    xs.getD ⌊r⌋₊ 0 + (xs.getD ⌈r⌉₊ 0 - xs.getD ⌊r⌋₊ 0) * (r - ⌊r⌋₊) := by
  rw [← Scalar.ofNat_zero (K := K)]
  rfl

variable [IsStrictOrderedRing K]

/-! ## 2. Ranks -/

omit [IsStrictOrderedRing K] in
theorem rank_eq (n : Nat) (q : K) : rank n q = max 0 (min q 1) * (n - 1 : Nat) := by
  have hle : (0 : K) ≤ 1 := zero_le_one
  rw [← Scalar.clamp_eq hle, ← Scalar.ofNat_zero (K := K), ← Scalar.ofNat_one (K := K)]
  rfl

theorem rank_nonneg (n : Nat) (q : K) : 0 ≤ rank n q := by
  rw [rank_eq]
  exact mul_nonneg (le_max_left _ _) (Nat.cast_nonneg _)

theorem rank_le (n : Nat) (q : K) : rank n q ≤ (n - 1 : Nat) := by
  rw [rank_eq]
  exact mul_le_of_le_one_left (Nat.cast_nonneg _) (max_le zero_le_one (min_le_right _ _))

theorem rank_mono (n : Nat) {p q : K} (h : p ≤ q) : rank n p ≤ rank n q := by
  rw [rank_eq, rank_eq]
  exact mul_le_mul_of_nonneg_right (max_le_max le_rfl (min_le_min h le_rfl)) (Nat.cast_nonneg _)

/-- Exact arithmetic scales. -/
theorem scales_exact (n : Nat) : Scales K n where
  share q := not_lt.mpr (rank_le (n + 1) q)
  floor_le _ h := Nat.floor_le_of_le (not_lt.mp h)
  ceil_le _ h := Nat.ceil_le.mpr (not_lt.mp h)

/-! ## 3. Along the line -/

theorem valueAt_natCast (xs : List K) (n : Nat) : valueAt xs (n : K) = xs.getD n 0 := by
  rw [valueAt_eq, Nat.floor_natCast, sub_self, mul_zero, add_zero]

omit [IsStrictOrderedRing K] in
/-- Between two members the line is the one through both. -/
theorem valueAt_of_lt {r : K} (xs : List K) (h : (⌊r⌋₊ : K) < r) : valueAt xs r =
    xs.getD ⌊r⌋₊ 0 + (xs.getD (⌊r⌋₊ + 1) 0 - xs.getD ⌊r⌋₊ 0) * (r - ⌊r⌋₊) := by
  have hceil : ⌈r⌉₊ = ⌊r⌋₊ + 1 :=
    le_antisymm (Nat.ceil_le_floor_add_one r) (Nat.lt_ceil.mpr h)
  rw [valueAt_eq, hceil]

/-- **A percentile is on the line.** -/
theorem percentile_eq {xs : List K} (h : xs ≠ []) (q : K) :
    percentile xs q = valueAt xs (rank xs.length q) := by
  match xs with
  | [] => exact absurd rfl h
  | [x] =>
    have hrank : rank [x].length q = (0 : Nat) := by
      rw [rank_eq, List.length_singleton, Nat.sub_self, Nat.cast_zero, mul_zero]
    rw [hrank, valueAt_natCast]
    rfl
  | _ :: _ :: _ => exact percentile_of_two_le (Nat.le_add_left 2 _) q

section Sorted

variable {xs : List K} (h : xs.Pairwise (· ≤ ·))

variable {r s : K}

include h

/-- The line is not above the member after. -/
theorem valueAt_le_getD_ceil (hlt : ⌈r⌉₊ < xs.length) : valueAt xs r ≤ xs.getD ⌈r⌉₊ 0 := by
  have hrise := getD_le_getD (d := 0) h (Nat.floor_le_ceil r) hlt
  have hfraction : r - ⌊r⌋₊ ≤ 1 := by
    have := Nat.lt_floor_add_one r
    linarith
  calc valueAt xs r
    _ = xs.getD ⌊r⌋₊ 0 + (xs.getD ⌈r⌉₊ 0 - xs.getD ⌊r⌋₊ 0) * (r - ⌊r⌋₊) := valueAt_eq xs r
    _ ≤ xs.getD ⌊r⌋₊ 0 + (xs.getD ⌈r⌉₊ 0 - xs.getD ⌊r⌋₊ 0) :=
      add_le_add_right (mul_le_of_le_one_right (sub_nonneg.mpr hrise) hfraction) _
    _ = xs.getD ⌈r⌉₊ 0 := add_sub_cancel _ _

variable (hr : 0 ≤ r)

include hr

/-- The line is not below the member before. -/
theorem getD_floor_le_valueAt (hlt : ⌈r⌉₊ < xs.length) : xs.getD ⌊r⌋₊ 0 ≤ valueAt xs r := by
  have hrise := getD_le_getD (d := 0) h (Nat.floor_le_ceil r) hlt
  rw [valueAt_eq]
  exact le_add_of_nonneg_right
    (mul_nonneg (sub_nonneg.mpr hrise) (sub_nonneg.mpr (Nat.floor_le hr)))

/-- **The line does not fall.** -/
theorem valueAt_mono (hrs : r ≤ s) (hlt : ⌈s⌉₊ < xs.length) : valueAt xs r ≤ valueAt xs s := by
  have hs : 0 ≤ s := hr.trans hrs
  have hlt' : ⌈r⌉₊ < xs.length := (Nat.ceil_le_ceil hrs).trans_lt hlt
  have hfloor : ⌊r⌋₊ ≤ ⌊s⌋₊ := Nat.floor_mono hrs
  rcases hfloor.eq_or_lt with hsame | hless
  · rcases (Nat.floor_le hr).eq_or_lt with hmember | hbetween
    · -- the line starts at a member
      rw [← hmember, valueAt_natCast, hsame]
      exact getD_floor_le_valueAt h hs hlt
    · -- both lie between the same two members
      have hbetween' : (⌊s⌋₊ : K) < s := hsame ▸ hbetween.trans_le hrs
      have hnext : ⌊s⌋₊ + 1 < xs.length := lt_of_le_of_lt (Nat.lt_ceil.mpr hbetween') hlt
      have hrise := getD_le_getD (d := 0) h (Nat.le_succ ⌊s⌋₊) hnext
      rw [valueAt_of_lt xs hbetween, valueAt_of_lt xs hbetween', hsame]
      exact add_le_add_right
        (mul_le_mul_of_nonneg_left (sub_le_sub_right hrs _) (sub_nonneg.mpr hrise)) _
  · -- a member stands between them
    have hceil : ⌈r⌉₊ ≤ ⌊s⌋₊ := (Nat.ceil_le_floor_add_one r).trans hless
    calc valueAt xs r
      _ ≤ xs.getD ⌈r⌉₊ 0 := valueAt_le_getD_ceil h hlt'
      _ ≤ xs.getD ⌊s⌋₊ 0 := getD_le_getD h hceil ((Nat.floor_le_ceil s).trans_lt hlt)
      _ ≤ valueAt xs s := getD_floor_le_valueAt h hs hlt

end Sorted

/-! ## 4. Percentiles -/

section Sample

variable {xs : List K} (h : xs.Pairwise (· ≤ ·))

include h

/-- **A percentile grows with its rank**, in a sample of any size. -/
theorem percentile_mono {p q : K} (hpq : p ≤ q) : percentile xs p ≤ percentile xs q := by
  by_cases hne : xs = []
  · rw [hne]
    exact le_rfl
  · rw [percentile_eq hne, percentile_eq hne]
    exact valueAt_mono h (rank_nonneg _ p) (rank_mono _ hpq)
      (ceil_rank_lt (scales_exact _) (List.length_pos_iff.mpr hne) q)

/-- **Percentiles lie between the smallest member and the largest.** -/
theorem exists_percentile_between (hne : xs ≠ []) :
    ∃ least ∈ xs, ∃ greatest ∈ xs, (∀ x ∈ xs, least ≤ x ∧ x ≤ greatest) ∧
      ∀ q, least ≤ percentile xs q ∧ percentile xs q ≤ greatest := by
  have hpos : 0 < xs.length := List.length_pos_iff.mpr hne
  have hlast : xs.length - 1 < xs.length := Nat.sub_lt hpos one_pos
  have hmem {i : Nat} (hi : i < xs.length) : xs.getD i 0 ∈ xs :=
    List.getD_eq_getElem _ (0 : K) hi ▸ List.getElem_mem hi
  refine ⟨xs.getD 0 0, hmem hpos, xs.getD (xs.length - 1) 0, hmem hlast, fun x hx => ?_,
    fun q => ?_⟩
  · obtain ⟨i, hi, rfl⟩ := List.mem_iff_getElem.mp hx
    rw [← List.getD_eq_getElem xs 0 hi]
    exact ⟨getD_le_getD h (Nat.zero_le i) hi, getD_le_getD h (by omega) hlast⟩
  · have hceil : ⌈rank xs.length q⌉₊ < xs.length := ceil_rank_lt (scales_exact _) hpos q
    have hfloor : ⌊rank xs.length q⌋₊ < xs.length := floor_rank_lt (scales_exact _) hpos q
    rw [percentile_eq hne]
    exact ⟨(getD_le_getD h (Nat.zero_le _) hfloor).trans
        (getD_floor_le_valueAt h (rank_nonneg _ q) hceil),
      (valueAt_le_getD_ceil h hceil).trans
        (getD_le_getD h (by omega) hlast)⟩

end Sample

end Stats

end CodeCausality
