import CodeCausality.Proofs.Numeric.Order

/-!
# Values that are no number

A comparison with a value that is no number fails, so a float that is not below a threshold need not
be above it.

* `not_lt_iff`, `not_le_of_isNaN` -- **what it says that a float is not below a number**;
* `isNaN_unpack_pack` -- rounding neither makes nor loses a value that is no number;
* `isNaN_add_left`, `isNaN_add_right`, `isNaN_sum` -- one such summand spoils a sum;
* `isNaN_sub_iff`, `isNaN_div_iff` -- where differences and ratios are no numbers.
-/

namespace CodeCausality

namespace Binary64

open Float.Model

/-! ## 1. Comparisons -/

/-- Values compare in the opposite order the other way round. -/
theorem compare_comm (a b : UnpackedFloat) : b.compare a = (a.compare b).map Ordering.swap := by
  cases a with
  | notANumber => cases b <;> rfl
  | infinity s =>
    cases b with
    | infinity t => cases s <;> cases t <;> rfl
    | notANumber => rfl
    | zero t => cases s <;> rfl
    | finite t n d hn => cases s <;> cases t <;> rfl
  | zero s =>
    cases b with
    | infinity t => cases t <;> rfl
    | notANumber => rfl
    | zero t => rfl
    | finite t n d hn => cases t <;> rfl
  | finite s m e hm =>
    cases b with
    | infinity t => cases s <;> cases t <;> rfl
    | notANumber => rfl
    | zero t => cases s <;> rfl
    | finite t n d hn =>
      rw [compare_eq rfl rfl, compare_eq rfl rfl, Option.map_some, ← Std.OrientedCmp.eq_swap]

/-- Values compare unless one of them is no number. -/
theorem isSome_compare (a b : UnpackedFloat) : (a.compare b).isSome = (!a.isNaN && !b.isNaN) := by
  cases a with
  | notANumber => cases b <;> rfl
  | infinity s =>
    cases b with
    | infinity t => cases s <;> cases t <;> rfl
    | notANumber => rfl
    | zero t => cases s <;> rfl
    | finite t n d hn => cases s <;> rfl
  | zero s =>
    cases b with
    | infinity t => cases t <;> rfl
    | notANumber => rfl
    | zero t => rfl
    | finite t n d hn => cases t <;> rfl
  | finite s m e hm =>
    cases b with
    | infinity t => cases t <;> rfl
    | notANumber => rfl
    | zero t => cases s <;> rfl
    | finite t n d hn =>
      rw [compare_eq rfl rfl]
      rfl

theorem compare_eq_none_iff {a b : UnpackedFloat} :
    a.compare b = none ↔ a.isNaN = true ∨ b.isNaN = true := by
  rw [← Option.not_isSome_iff_eq_none, isSome_compare]
  cases a.isNaN <;> cases b.isNaN <;> decide

variable {x y : Float}

/-- **A float is not below a number exactly if the number is at most the float, or the float is no
number.** -/
theorem not_lt_iff (hy : y.isNaN = false) : ¬ x < y ↔ y ≤ x ∨ x.isNaN = true := by
  have hlt : x < y ↔ (x.toModel.unpack.compare y.toModel.unpack == some .lt) = true :=
    decide_eq_true_iff
  have hle : y ≤ x ↔ (y.toModel.unpack.compare x.toModel.unpack).any (·.isLE) = true :=
    decide_eq_true_iff
  have hnone : x.toModel.unpack.compare y.toModel.unpack = none ↔ x.isNaN = true :=
    compare_eq_none_iff.trans (or_iff_left (Bool.eq_false_iff.mp hy))
  rw [hlt, hle, compare_comm x.toModel.unpack, ← hnone]
  cases x.toModel.unpack.compare y.toModel.unpack with
  | none => exact iff_of_true (fun h => nomatch h) (.inr rfl)
  | some o => cases o <;> decide

theorem not_le_of_isNaN (hx : x.isNaN = true) : ¬ y ≤ x := by
  have hle : y ≤ x ↔ (y.toModel.unpack.compare x.toModel.unpack).any (·.isLE) = true :=
    decide_eq_true_iff
  rw [hle, compare_eq_none_iff.mpr (.inr hx)]
  exact Bool.false_ne_true

/-! ## 2. Rounding -/

theorem isNaN_eq_true_iff {u : UnpackedFloat} : u.isNaN = true ↔ u = .notANumber := by
  cases u with
  | notANumber => exact iff_of_true rfl rfl
  | infinity s => exact iff_of_false (fun h => nomatch h) fun h => nomatch h
  | zero s => exact iff_of_false (fun h => nomatch h) fun h => nomatch h
  | finite s m e hm => exact iff_of_false (fun h => nomatch h) fun h => nomatch h

/-- A pattern whose exponent is not all ones is a number. -/
theorem isNaN_unpack {spec : Format} {b : BitVec spec.numBits}
    (h : UnpackedFloat.unpackExponent b ≠ -1#_) : (UnpackedFloat.unpack spec b).isNaN = false := by
  unfold UnpackedFloat.unpack
  dsimp only
  rw [if_neg h]
  by_cases hexponent : UnpackedFloat.unpackExponent b = 0#_
  · rw [if_pos hexponent]
    by_cases hmantissa : UnpackedFloat.unpackMantissa b = 0#_
    · rw [dif_pos hmantissa]
      rfl
    · rw [dif_neg hmantissa]
      rfl
  · rw [if_neg hexponent]
    rfl

/-- Packing neither makes nor loses a value that is no number: too large a number is infinite. -/
theorem isNaN_unpack_pack (u : UnpackedFloat) : (pack u).unpack.isNaN = u.isNaN := by
  cases u with
  | notANumber => rfl
  | infinity s => cases s <;> rfl
  | zero s => cases s <;> rfl
  | finite s m e hm =>
    show (UnpackedFloat.unpack Format.binary64
      (UnpackedFloat.pack Format.binary64 (.finite s m e hm))).isNaN = false
    unfold UnpackedFloat.pack
    dsimp only
    split
    · cases s <;> rfl
    · rename_i hexponent
      split
      · refine isNaN_unpack fun h => ?_
        rw [UnpackedFloat.unpackExponent_packComponents] at h
        have hnat := congrArg BitVec.toNat h
        simp only [BitVec.toNat_ofNat, BitVec.toNat_neg] at hnat
        omega
      · refine isNaN_unpack ?_
        rw [UnpackedFloat.unpackExponent_packComponents]
        decide

theorem isNaN_roundWithAccuracy (spec : Format) (s : UnpackedFloat.Sign) (m : Nat) (e : Int)
    (acc : UnpackedFloat.Accuracy) :
    (UnpackedFloat.roundWithAccuracy spec s m e acc).isNaN = false := by
  unfold UnpackedFloat.roundWithAccuracy
  dsimp only
  exact (apply_dite UnpackedFloat.isNaN _ _ _).trans (ite_self false)

theorem isNaN_normalize (spec : Format) (m e : Int) (s : UnpackedFloat.Sign) :
    (UnpackedFloat.normalize spec m e s).isNaN = false := by
  unfold UnpackedFloat.normalize
  split
  · exact isNaN_roundWithAccuracy ..
  · rfl
  · exact isNaN_roundWithAccuracy ..

/-! ## 3. Arithmetic -/

theorem isNaN_add_left (h : x.isNaN = true) : (x + y).isNaN = true := by
  refine (isNaN_unpack_pack _).trans ?_
  rw [show x.toModel.unpack = .notANumber from isNaN_eq_true_iff.mp h]
  cases y.toModel.unpack <;> rfl

theorem isNaN_add_right (h : y.isNaN = true) : (x + y).isNaN = true := by
  refine (isNaN_unpack_pack _).trans ?_
  rw [show y.toModel.unpack = .notANumber from isNaN_eq_true_iff.mp h]
  cases x.toModel.unpack <;> rfl

theorem isNaN_foldl_add {xs : List Float} {a : Float}
    (h : a.isNaN = true ∨ ∃ v ∈ xs, v.isNaN = true) : (xs.foldl (· + ·) a).isNaN = true := by
  induction xs generalizing a with
  | nil => exact h.resolve_right fun ⟨_, hv, _⟩ => nomatch hv
  | cons v xs ih =>
    refine ih ?_
    rcases h with ha | ⟨w, hw, hnan⟩
    · exact .inl (isNaN_add_left ha)
    · rcases List.mem_cons.mp hw with rfl | hw
      · exact .inl (isNaN_add_right hnan)
      · exact .inr ⟨w, hw, hnan⟩

/-- **One summand that is no number spoils the sum.** -/
theorem isNaN_sum {xs : List Float} {v : Float} (hv : v ∈ xs) (h : v.isNaN = true) :
    (Scalar.sum xs).isNaN = true := isNaN_foldl_add (.inr ⟨v, hv, h⟩)

/-- A finite number less a float is no number only if the float is none. -/
theorem isNaN_sub_iff (hx : x.isFinite = true) : (x - y).isNaN = true ↔ y.isNaN = true := by
  have hx : x.toModel.unpack.isFinite = true := hx
  have hsub : (x - y).isNaN =
      (UnpackedFloat.sub Format.binary64 x.toModel.unpack y.toModel.unpack).isNaN :=
    isNaN_unpack_pack _
  rw [hsub, show y.isNaN = y.toModel.unpack.isNaN from rfl]
  cases hxu : x.toModel.unpack with
  | notANumber => exact nomatch hxu ▸ hx
  | infinity s => exact nomatch hxu ▸ hx
  | zero s =>
    cases y.toModel.unpack with
    | zero t => cases s <;> cases t <;> exact iff_of_false (fun h => nomatch h) fun h => nomatch h
    | notANumber => exact Iff.rfl
    | infinity t => exact Iff.rfl
    | finite t n d hn => exact Iff.rfl
  | finite s m e hm =>
    cases y.toModel.unpack with
    | zero t => exact Iff.rfl
    | notANumber => exact Iff.rfl
    | infinity t => exact Iff.rfl
    | finite t n d hn =>
      exact iff_of_false (ne_true_of_eq_false (isNaN_normalize ..)) fun h => nomatch h

/-- The zeros are the values that compare equal to zero. -/
theorem beq_zero_iff : (x == 0) = true ↔ ∃ s, x.toModel.unpack = .zero s := by
  have h : (x == 0) = (x.toModel.unpack.compare (.zero .positive) == some .eq) := rfl
  rw [h]
  cases x.toModel.unpack with
  | notANumber => exact iff_of_false (fun h => nomatch h) fun ⟨_, h⟩ => nomatch h
  | infinity s => cases s <;> exact iff_of_false (fun h => nomatch h) fun ⟨_, h⟩ => nomatch h
  | zero s => exact iff_of_true rfl ⟨s, rfl⟩
  | finite s m e hm => cases s <;> exact iff_of_false (fun h => nomatch h) fun ⟨_, h⟩ => nomatch h

/-- Zeros are at most what zero is at most. -/
theorem le_of_beq_zero (hx : (x == 0) = true) (hy : y.isFinite = true) (h : 0 ≤ y) : x ≤ y := by
  obtain ⟨s, hs⟩ := beq_zero_iff.mp hx
  have hfinite : x.isFinite = true := by
    show x.toModel.unpack.isFinite = true
    rw [hs]
    rfl
  have hle : x ≤ 0 := ((Scalar.Ordered.beq_iff (x := x) (y := 0) hfinite rfl).mp hx).1
  exact Scalar.Ordered.le_trans (y := 0) hfinite rfl hy hle h

/-- A ratio is no number if a part is none, or both are infinite, or both are zero. -/
theorem isNaN_div_iff : (x / y).isNaN = true ↔ x.isNaN = true ∨ y.isNaN = true ∨
    (x.isInf = true ∧ y.isInf = true) ∨ ((x == 0) = true ∧ (y == 0) = true) := by
  have hdiv : (x / y).isNaN =
      (UnpackedFloat.div Format.binary64 x.toModel.unpack y.toModel.unpack).isNaN :=
    isNaN_unpack_pack _
  rw [hdiv, beq_zero_iff, beq_zero_iff]
  show _ ↔ x.toModel.unpack.isNaN = true ∨ y.toModel.unpack.isNaN = true ∨
    (x.toModel.unpack.isInf = true ∧ y.toModel.unpack.isInf = true) ∨ _
  cases x.toModel.unpack with
  | notANumber => exact iff_of_true rfl (.inl rfl)
  | infinity s =>
    cases y.toModel.unpack with
    | notANumber => exact iff_of_true rfl (.inr (.inl rfl))
    | infinity t => exact iff_of_true rfl (.inr (.inr (.inl ⟨rfl, rfl⟩)))
    | zero t | finite t n d hn =>
      refine iff_of_false Bool.false_ne_true ?_
      rintro (h | h | ⟨-, h⟩ | ⟨⟨_, h⟩, -⟩) <;> cases h
  | zero s =>
    cases y.toModel.unpack with
    | notANumber => exact iff_of_true rfl (.inr (.inl rfl))
    | zero t => exact iff_of_true rfl (.inr (.inr (.inr ⟨⟨s, rfl⟩, t, rfl⟩)))
    | infinity t | finite t n d hn =>
      refine iff_of_false Bool.false_ne_true ?_
      rintro (h | h | ⟨h, -⟩ | ⟨-, _, h⟩) <;> cases h
  | finite s m e hm =>
    cases y.toModel.unpack with
    | notANumber => exact iff_of_true rfl (.inr (.inl rfl))
    | infinity t | zero t =>
      refine iff_of_false Bool.false_ne_true ?_
      rintro (h | h | ⟨h, -⟩ | ⟨⟨_, h⟩, -⟩) <;> cases h
    | finite t n d hn =>
      refine iff_of_false (ne_true_of_eq_false (isNaN_roundWithAccuracy ..)) ?_
      rintro (h | h | ⟨h, -⟩ | ⟨⟨_, h⟩, -⟩) <;> cases h

end Binary64

end CodeCausality
