import Mathlib.Data.List.GetD
import CodeCausality.Mechanism

/-!
# Positions from noise

A position below `n` is the upper half of a word times `n`, so that no word leads beyond the bound.

* `Noise.Within` -- positions lie below their bound;
* `accept?_lt`, `within_generator` -- **those of the generator do**, also when every attempt was
  rejected;
* `Mechanism.mem_pick` -- so what is picked from a list is a member of it.
-/

namespace CodeCausality

/-- The positions that a noise gives lie below their bound. -/
structure Noise.Within (ρ : Type) {α : Type} [Noise ρ α] : Prop where
  position_lt : ∀ {n : Nat} (r : ρ), 0 < n → (Noise.position n r).1 < n
  choice_lt : ∀ {n : Nat} (r : ρ), 0 < n → (Noise.choice n r).1 < n

/-! ## 1. The generator -/

namespace Random

variable {n : Nat}

theorem accept?_lt {bits word i : Nat} (hword : word < Nat.pow 2 bits)
    (h : accept? bits n word = some i) (hn : 0 < n) : i < n := by
  rw [accept?] at h
  split at h
  · obtain rfl := Option.some.inj h
    exact Nat.div_lt_of_lt_mul (Nat.mul_lt_mul_of_pos_right hword hn)
  · exact nomatch h

theorem Generator.choose_lt (hn : 0 < n) (tries : Nat) (g : Generator) :
    (g.choose n tries).1 < n := by
  induction tries generalizing g with
  | zero => exact hn
  | succ tries ih =>
    rw [Generator.choose]
    dsimp only
    split
    · rename_i i hi
      exact accept?_lt g.word.1.toNat_lt hi hn
    · exact ih g.word.2

theorem Generator.locate_lt (hn : 0 < n) (tries : Nat) (g : Generator) :
    (g.locate n tries).1 < n := by
  induction tries generalizing g with
  | zero => exact hn
  | succ tries ih =>
    rw [Generator.locate]
    dsimp only
    split
    · rename_i i hi
      exact accept?_lt g.doubleWord.1.toNat_lt hi hn
    · exact ih g.doubleWord.2

/-- **No position of the generator lies beyond its bound.** -/
theorem within_generator : Noise.Within Generator where
  position_lt g hn := g.locate_lt hn attempts
  choice_lt g hn := g.choose_lt hn attempts

end Random

/-! ## 2. Picking -/

/-- **What is picked is one of the values.** -/
theorem Mechanism.mem_pick {α : Type} [Scalar α] {ρ : Type} [Noise ρ α] (hρ : Noise.Within ρ)
    {values : List α} (h : values ≠ []) (r : ρ) : (pick values r).1 ∈ values := by
  have hi : (Noise.position values.length r).1 < values.length :=
    hρ.position_lt r (List.length_pos_iff.mpr h)
  have hpick : (pick values r).1 = values.getD (Noise.position values.length r).1 0 := by
    rw [pick, if_neg fun he => h (List.isEmpty_iff.mp he)]
  rw [hpick, List.getD_eq_getElem values 0 hi]
  exact List.getElem_mem hi

end CodeCausality
