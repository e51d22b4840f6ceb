import Mathlib
import CodeCausality.Proofs.Numeric.Exact

/-!
# Whole numbers

An arithmetic in which codes are positions must find a position again in its code.

* `unpack_pack_finite`, `unpack_mul_one` -- a float of 53 digits is stored as it is, and stays so in
  a product with one;
* `toUInt64_ofNat` -- **a whole number below `2 ^ 53` is found again in its float**;
* `Scalar.Counts` -- what an arithmetic needs for that: in floats as far as `2 ^ 53`
  (`counts_float`), in exact arithmetic without end (`counts_exact`).
-/

namespace CodeCausality

namespace Binary64

open Float.Model
open Float.Model.UnpackedFloat

/-! ## 1. Shifts -/

/-- A mantissa that ends in `k` zeros loses nothing when it is shifted by `k`. -/
theorem repeat_shiftRightOne (m k : Nat) :
    k.repeat ExtendedMantissa.shiftRightOne ⟨m * 2 ^ k, false, false⟩ = ⟨m, false, false⟩ := by
  induction k generalizing m with
  | zero => rw [Nat.pow_zero, Nat.mul_one, Nat.repeat]
  | succ k ih =>
    rw [Nat.repeat, Nat.pow_succ, Nat.mul_comm (2 ^ k), ← Nat.mul_assoc, ih,
      ExtendedMantissa.shiftRightOne]
    simp

theorem shiftToExponent_mul_two_pow (m k : Nat) {e target : Int} (h : target = e + k) :
    shiftToExponent (m * 2 ^ k) e .exact target = (⟨m, false, false⟩, target) := by
  have hk : (target - e).toNat = k := by omega
  rw [shiftToExponent, hk]
  exact Prod.ext (repeat_shiftRightOne m k) h.symm

theorem shiftToExponent_self (m : Nat) (e : Int) :
    shiftToExponent m e .exact e = (⟨m, false, false⟩, e) := by
  rw [shiftToExponent, Int.sub_self]
  exact Prod.ext rfl (Int.add_zero e)

theorem log2_mul_two_pow {m : Nat} (hm : 0 < m) (k : Nat) : (m * 2 ^ k).log2 = m.log2 + k := by
  induction k with
  | zero => rw [Nat.pow_zero, Nat.mul_one, Nat.add_zero]
  | succ k ih =>
    have hne : m * 2 ^ k ≠ 0 := Nat.mul_ne_zero hm.ne' (Nat.two_pow_pos k).ne'
    rw [Nat.pow_succ, ← Nat.mul_assoc, Nat.mul_comm, Nat.log2_two_mul hne, ih, Nat.add_assoc]

/-! ## 2. Numbers of 53 digits -/

/-- With 53 digits and `k` zeros, the exponent that a number shall have drops the zeros. -/
theorem targetExponent_of_log2 {m : Nat} {e : Int} {k : Nat} (hm : m.log2 = 52 + k)
    (he : -1074 ≤ e + k) : Format.binary64.targetExponent (totalExponent m e) = e + k := by
  have hmin : Format.binary64.minExponent = -1074 := by decide
  have hbits : Format.binary64.mantissaBits = 53 := rfl
  rw [Format.targetExponent, totalExponent, hm, hmin, hbits]
  omega

/-- Rounding drops the zeros after 53 digits. -/
theorem roundWithAccuracy_exact (s : UnpackedFloat.Sign) {m : Nat} (hm : m.log2 = 52) (hpos : 0 < m)
    (k : Nat) {e : Int} (he : -1074 ≤ e + k) :
    roundWithAccuracy Format.binary64 s (m * 2 ^ k) e .exact = .finite s m (e + k) hpos := by
  have hlog : (m * 2 ^ k).log2 = 52 + k := by rw [log2_mul_two_pow hpos, hm]
  have hfirst : shiftToTargetExponent Format.binary64 (m * 2 ^ k) e .exact =
      (⟨m, false, false⟩, e + k) := by
    rw [shiftToTargetExponent, targetExponent_of_log2 hlog he]
    exact shiftToExponent_mul_two_pow m k rfl
  have hsecond : shiftToTargetExponent Format.binary64 m (e + k) .exact =
      (⟨m, false, false⟩, e + k) := by
    have htarget := targetExponent_of_log2 (m := m) (k := 0) hm (e := e + k) (by omega)
    rw [Int.natCast_zero, Int.add_zero] at htarget
    rw [shiftToTargetExponent, htarget, shiftToExponent_self]
  have hrounded : (⟨m, false, false⟩ : ExtendedMantissa).roundedMantissa = m := rfl
  rw [roundWithAccuracy, hfirst]
  dsimp only
  rw [hrounded, hsecond]
  exact dif_neg (Nat.pos_iff_ne_zero.mp hpos)

/-- The leading digit of 53 is not stored. -/
theorem toNat_implicit {m : Nat} (hm : m.log2 = 52) (hpos : 0 < m) :
    (1#1 ++ BitVec.ofNat 52 m).toNat = m := by
  obtain ⟨hle, hlt⟩ := (Nat.log2_eq_iff hpos.ne').mp hm
  rw [BitVec.toNat_append, BitVec.toNat_ofNat, BitVec.toNat_ofNat,
    ← Nat.shiftLeft_add_eq_or_of_lt (Nat.mod_lt _ (Nat.two_pow_pos 52)), Nat.shiftLeft_eq]
  omega

/-- A number of 53 digits is stored as it is. -/
theorem unpack_pack_finite (s : UnpackedFloat.Sign) {m : Nat} (hm : m.log2 = 52) (hpos : 0 < m)
    {e : Int} (hlo : -1074 ≤ e) (hhi : e < 972) :
    (pack (.finite s m e hpos)).unpack = .finite s m e hpos := by
  have hbias : (Format.binary64.exponentBias : Int) = 1023 := rfl
  obtain ⟨field, hfield⟩ := Int.eq_ofNat_of_zero_le (show 0 ≤ e + 1075 by omega)
  have hbiased : (e + Format.binary64.exponentBias + (52 : Nat)).toNat = field := by omega
  have htoNat : (BitVec.ofNat 11 field).toNat = field :=
    Nat.mod_eq_of_lt (show field < 2048 by omega)
  have hpack : UnpackedFloat.pack Format.binary64 (.finite s m e hpos) =
      packComponents Format.binary64 s (BitVec.ofNat 11 field) (BitVec.ofNat 52 m) := by
    rw [UnpackedFloat.pack]
    dsimp only
    rw [hbiased, if_neg (show ¬ 2048 ≤ field + 1 by omega), if_pos (by rw [hm]; rfl)]
  have hfull : BitVec.ofNat 11 field ≠ -1#11 := fun h => by
    have := congrArg BitVec.toNat h
    rw [htoNat, show (-1#11).toNat = 2047 from rfl] at this
    omega
  have hempty : BitVec.ofNat 11 field ≠ 0#11 := fun h => by
    have := congrArg BitVec.toNat h
    rw [htoNat, show (0#11).toNat = 0 from rfl] at this
    omega
  show UnpackedFloat.unpack Format.binary64 (UnpackedFloat.pack Format.binary64 _) = _
  rw [hpack, UnpackedFloat.unpack]
  simp only [unpackExponent_packComponents, unpackMantissa_packComponents,
    unpackSign_packComponents, Sign.ofBitVec_toBitVec, if_neg hfull, if_neg hempty,
    toNat_implicit hm hpos, htoNat, hbias]
  congr 1
  omega

/-! ## 3. Whole numbers -/

theorem exists_log2_mul {n : Nat} (hpos : 0 < n) (hn : n < 2 ^ 53) :
    ∃ k ≤ 52, (n * 2 ^ k).log2 = 52 := by
  have hlog : n.log2 < 53 := (Nat.log2_lt hpos.ne').mpr hn
  refine ⟨52 - n.log2, Nat.sub_le _ _, ?_⟩
  rw [log2_mul_two_pow hpos]
  omega

/-- The float of a positive whole number of at most 53 digits. -/
theorem unpack_toFloat {n k : Nat} (hn : n < 2 ^ 53) (hk : k ≤ 52) (hlog : (n * 2 ^ k).log2 = 52)
    (hpos : 0 < n * 2 ^ k) :
    n.toUInt64.toFloat.toModel.unpack = .finite .positive (n * 2 ^ k) (-k) hpos := by
  have hn0 : 0 < n := Nat.pos_of_mul_pos_right hpos
  have htoNat : n.toUInt64.toNat = n := Nat.mod_eq_of_lt (by omega)
  have hround : UnpackedFloat.round Format.binary64 .positive n 0 =
      .finite .positive (n * 2 ^ k) (-k) hpos := by
    have htarget : Format.binary64.targetExponent (totalExponent n 0) = -k := by
      rw [log2_mul_two_pow hn0] at hlog
      have hmin : Format.binary64.minExponent = -1074 := by decide
      have hbits : Format.binary64.mantissaBits = 53 := rfl
      rw [Format.targetExponent, totalExponent, hmin, hbits]
      omega
    have hshift : decreaseExponent n 0 (-k) = (n * 2 ^ k, -(k : Int)) := by
      rw [decreaseExponent, Int.zero_sub, Int.neg_neg, Int.toNat_natCast, Nat.shiftLeft_eq,
        Int.zero_sub]
    rw [UnpackedFloat.round, htarget, hshift]
    have h := roundWithAccuracy_exact .positive hlog hpos 0 (e := -k) (by omega)
    rw [Nat.pow_zero, Nat.mul_one, Int.natCast_zero, Int.add_zero] at h
    exact h
  have hnormalize : UnpackedFloat.ofUInt64 Format.binary64 n.toUInt64 =
      .finite .positive (n * 2 ^ k) (-k) hpos := by
    rw [UnpackedFloat.ofUInt64, htoNat, UnpackedFloat.ofNat, UnpackedFloat.ofInt,
      UnpackedFloat.normalize, show compare (n : Int) 0 = .gt from
        Int.compare_eq_gt.mpr (by omega)]
    exact hround
  show (pack (UnpackedFloat.ofUInt64 Format.binary64 n.toUInt64)).unpack = _
  rw [hnormalize, unpack_pack_finite .positive hlog hpos (by omega) (by omega)]

/-- A product with one is the number itself. -/
theorem unpack_mul_one {x : Float} {m : Nat} {e : Int} {hpos : 0 < m} (hm : m.log2 = 52)
    (hlo : -1074 ≤ e) (hhi : e < 972) (hx : x.toModel.unpack = .finite .positive m e hpos) :
    (x * Float.ofBits 4607182418800017408).toModel.unpack = .finite .positive m e hpos := by
  have hone : (Float.ofBits 4607182418800017408).toModel.unpack =
      .finite .positive (2 ^ 52) (-52) (Nat.two_pow_pos 52) := rfl
  show (pack (UnpackedFloat.mul Format.binary64 x.toModel.unpack _)).unpack = _
  rw [hx, hone]
  show (pack (roundWithAccuracy Format.binary64 .positive (m * 2 ^ 52) (e + -52) .exact)).unpack = _
  rw [roundWithAccuracy_exact .positive hm hpos 52 (by omega)]
  have he : e + -52 + (52 : Nat) = e := by omega
  rw [unpack_pack_finite .positive hm hpos (by omega) (by omega)]
  congr 1

/-- A float that stands for a whole number is truncated to it. -/
theorem toUInt64_of_unpack {x : Float} {n k : Nat} {hk : 0 < n * 2 ^ k} (hn : n < 2 ^ 64)
    (hx : x.toModel.unpack = .finite .positive (n * 2 ^ k) (-k) hk) : x.toUInt64.toNat = n := by
  have hround : roundToInt .positive (n * 2 ^ k) (-k) = n := by
    have hshift : decreaseExponent (n * 2 ^ k) (-k) 0 = (n * 2 ^ k, -(k : Int)) := by
      rw [decreaseExponent, show (-(k : Int) - 0).toNat = 0 by omega, Nat.shiftLeft_zero]
      simp
    rw [roundToInt, hshift]
    dsimp only
    rw [shiftToExponent_mul_two_pow n k (by omega)]
    rfl
  show (UInt64.ofNatClamp (UnpackedFloat.toInt 0 _ x.toModel.unpack).toNat).toNat = n
  rw [hx, UnpackedFloat.toInt, hround, Int.toNat_natCast]
  exact UInt64.toNat_ofNatClamp_of_lt hn

/-- **A whole number below `2 ^ 53` is found again in the float of it.** -/
theorem toUInt64_ofNat {n : Nat} (hn : n < 2 ^ 53) : (Float.ofNat n).toUInt64.toNat = n := by
  rcases Nat.eq_zero_or_pos n with rfl | hn0
  · decide +kernel
  · obtain ⟨k, hk, hlog⟩ := exists_log2_mul hn0 hn
    have hpos : 0 < n * 2 ^ k := Nat.mul_pos hn0 (Nat.two_pow_pos k)
    have hofNat : Float.ofNat n = n.toUInt64.toFloat * Float.ofBits 4607182418800017408 :=
      dif_pos ⟨hn, by decide⟩
    rw [hofNat]
    exact toUInt64_of_unpack (by omega)
      (unpack_mul_one hlog (by omega) (by omega) (unpack_toFloat hn hk hlog hpos))

end Binary64

/-! ## 4. Counting -/

namespace Scalar

/-- The arithmetic tells 0 from 1 and finds each of the first `n` natural numbers again. -/
structure Counts (α : Type) [Scalar α] (n : Nat) : Prop where
  zero : ((0 : α) == 0) = true
  one : ((1 : α) == 1) = true
  one_ne_zero : ((1 : α) == 0) = false
  floor_ofNat : ∀ i < n, floor (ofNat i : α) = i

theorem counts_float {n : Nat} (hn : n ≤ 2 ^ 53) : Counts Float n where
  zero := by decide +kernel
  one := by decide +kernel
  one_ne_zero := by decide +kernel
  floor_ofNat _ hi := Binary64.toUInt64_ofNat (Nat.lt_of_lt_of_le hi hn)

theorem counts_exact {K : Type} [Field K] [LinearOrder K] [IsStrictOrderedRing K]
    [FloorSemiring K] [RootExp K] (n : Nat) : Counts K n where
  zero := beq_self_eq_true _
  one := beq_self_eq_true _
  one_ne_zero := by
    rw [beq_eq_false_iff_ne]
    show (ofNat 1 : K) ≠ ofNat 0
    rw [ofNat_one, ofNat_zero]
    exact one_ne_zero
  floor_ofNat i _ := by
    rw [ofNat_eq]
    exact Nat.floor_natCast i

end Scalar

end CodeCausality
