import CodeCausality.Proofs.Numeric.Percentile
import CodeCausality.Proofs.Simulation.PathTracing

/-!
# Confidence intervals

The interval of an effect leaves out the same share of the resampled effects on either side. The
level of confidence decides only how much that is: the resampled effects are the same.

* `effectsAt`, `get?_intervals` -- the resampled effects at a node, and the interval they give;
* `effectsAt_pairwise`, `effectsAt_ne_nil` -- they are in order, and there are some;
* `interval_nested` -- **of two intervals of one sample, that of the higher level holds the other**,
  and both lie between the least and the greatest member;
* `intervals_nest` -- so do those that two queries report which differ in nothing else.
-/

namespace CodeCausality

/-- The same settings but for the level of confidence. -/
def SimulationSettings.withConfidence {α : Type} (settings : SimulationSettings α)
    (level : Option α) : SimulationSettings α := { settings with confidence := level }

namespace Simulation

/-! ## 1. Resampled effects -/

section Effects

variable {α : Type} [Scalar α] {ρ : Type} [Noise ρ α] {m : Model α} {seed : UInt64}
  {baseline intervened : Samples α} {id : String}

/-- The effect sizes of the resamples at a node, in increasing order. -/
def effectsAt (ρ : Type) [Noise ρ α] (settings : SimulationSettings α) (m : Model α)
    (seed : UInt64) (baseline intervened : Samples α) (id : String) : List α :=
  let position := m.graph.topologicalOrder.idxOf id
  let (base, forced) := outcomes (domainOf m id) (baseline.column position)
    (intervened.column position)
  resampledEffects ρ settings (Stats.Reference.ofSample base) forced seed position

/-- **The interval that an answer reports is that of the resampled effects.** -/
theorem get?_intervals (settings : SimulationSettings α) {i : Intervention α} {n : Nat}
    (hid : id ∈ affectedNodes m i) :
    (compare ρ settings m m.graph.topologicalOrder i n seed baseline intervened).intervals.get? id =
      some (interval settings.confidenceLevel
        (effectsAt ρ settings m seed baseline intervened id)) := by
  rw [compare_eq]
  exact get?_report _ hid

theorem length_effectsAt (settings : SimulationSettings α) :
    (effectsAt ρ settings m seed baseline intervened id).length = settings.resampleCount := by
  unfold effectsAt resampledEffects
  simp

theorem effectsAt_ne_nil (settings : SimulationSettings α) :
    effectsAt ρ settings m seed baseline intervened id ≠ [] := by
  have hpos : 1 ≤ settings.resampleCount := le_max_right _ _
  refine List.ne_nil_of_length_pos ?_
  rw [length_effectsAt]
  exact hpos

end Effects

/-! ## 2. Exact arithmetic -/

section Exact

variable {K : Type} [Field K] [LinearOrder K] [FloorSemiring K] [RootExp K] {ρ : Type} [Noise ρ K]
  {m : Model K} {seed : UInt64} {baseline intervened : Samples K} {id : String}

theorem effectsAt_pairwise (settings : SimulationSettings K) :
    (effectsAt ρ settings m seed baseline intervened id).Pairwise (· ≤ ·) := by
  have hsorted (xs : List K) : (xs.mergeSort Scalar.totalLE).Pairwise (· ≤ ·) := by
    refine (List.pairwise_mergeSort ?_ ?_ xs).imp fun h => of_decide_eq_true h
    · intro a b c hab hbc
      exact decide_eq_true ((of_decide_eq_true hab).trans (of_decide_eq_true hbc))
    · intro a b
      exact Bool.or_eq_true_iff.mpr ((le_total a b).imp decide_eq_true decide_eq_true)
  exact hsorted _

variable [IsStrictOrderedRing K]

omit [IsStrictOrderedRing K] in
theorem interval_eq (level : K) (xs : List K) : interval level xs =
    (Stats.percentile xs ((1 - level) / 2), Stats.percentile xs (1 - (1 - level) / 2)) := by
  have htwo : (Scalar.ofNat 2 : K) = 2 := Nat.cast_ofNat
  rw [← htwo, ← Scalar.ofNat_one (K := K)]
  rfl

theorem confidenceLevel_eq (settings : SimulationSettings K) : settings.confidenceLevel =
    max (5 / 10) (min (settings.confidence.getD (95 / 100)) (999 / 1000)) := by
  have hlow : (Scalar.ofDecimal 5 1 : K) = 5 / 10 := by
    norm_num [Scalar.ofDecimal_eq]
  have hhigh : (Scalar.ofDecimal 999 3 : K) = 999 / 1000 := by
    norm_num [Scalar.ofDecimal_eq]
  have hdefault : (Scalar.ofDecimal 95 2 : K) = 95 / 100 := by
    norm_num [Scalar.ofDecimal_eq]
  rw [SimulationSettings.confidenceLevel, hlow, hhigh, hdefault, Scalar.clamp_eq (by norm_num)]

/-- The outer interval holds the inner one, whose bounds are in order. -/
structure Nested (inner outer : K × K) : Prop where
  lower : outer.1 ≤ inner.1
  ordered : inner.1 ≤ inner.2
  upper : inner.2 ≤ outer.2

/-- **The interval of a higher level holds that of a lower one.** -/
theorem interval_nested {xs : List K} (h : xs.Pairwise (· ≤ ·)) {c d : K} (hc : 0 ≤ c)
    (hcd : c ≤ d) : Nested (interval c xs) (interval d xs) := by
  rw [interval_eq, interval_eq]
  exact {
    lower := Stats.percentile_mono h (by linarith)
    ordered := Stats.percentile_mono h (by linarith)
    upper := Stats.percentile_mono h (by linarith) }

/-! ## 3. Two queries -/

variable {i : Intervention K} {n : Nat} {kept kept' : Baselines K}

/-- **More confidence, wider intervals.** Of two queries that differ only in the level of confidence
one is answered if the other is, and at each affected node the interval of the higher level holds
that of the lower one; both are made of percentiles of the same effects, and lie between the least
and the greatest of them. Percentiles of a sample in order grow with their rank, and the ranks that
are read are those of members. -/
theorem intervals_nest (hm : Model.Produced ρ m) (settings : SimulationSettings K) {c d : Option K}
    (hlevel : (settings.withConfidence c).confidenceLevel ≤
      (settings.withConfidence d).confidenceLevel)
    (hk : Kept ρ m kept) (hk' : Kept ρ m kept') {narrow : Impact K}
    (hnarrow : (estimateImpact ρ (settings.withConfidence c) m i n false kept).1 = .ok narrow) :
    (∃ wide clamps base forced,
      (estimateImpact ρ (settings.withConfidence d) m i n false kept').1 = .ok wide ∧
      checkIntervention m i n = .ok clamps ∧
      plan m m.graph.topologicalOrder [] = .ok base ∧
      plan m m.graph.topologicalOrder clamps = .ok forced ∧
      wide.effects.keys = narrow.effects.keys ∧
      ∀ id ∈ narrow.effects.keys, ∃ inner outer least greatest, ∃ effects : List K,
        narrow.intervals.get? id = some inner ∧ wide.intervals.get? id = some outer ∧
        effects = effectsAt ρ settings m (querySeed settings m)
          (simulate ρ base n (querySeed settings m))
          (simulate ρ forced n (querySeed settings m)) id ∧
        effects.length = settings.resampleCount ∧
        Nested inner outer ∧ least ∈ effects ∧ greatest ∈ effects ∧
        (∀ x ∈ effects, least ≤ x ∧ x ≤ greatest) ∧ least ≤ outer.1 ∧ outer.2 ≤ greatest) ∧
    (∀ xs : List K, xs.Pairwise (· ≤ ·) → ∀ p q, p ≤ q →
      Stats.percentile xs p ≤ Stats.percentile xs q) ∧
    ∀ xs : List K, xs ≠ [] → ∀ q,
      Stats.percentile xs q = Stats.valueAt xs (Stats.rank xs.length q) ∧
      Scalar.floor (Stats.rank xs.length q) < xs.length ∧
      Scalar.ceil (Stats.rank xs.length q) < xs.length := by
  have hg := hm.grounded
  refine ⟨?_, fun xs h p q hpq => Stats.percentile_mono h hpq, fun xs hne q => ?_⟩
  · obtain ⟨clamps, base, forced, hcheck, hbase, hforced, rfl⟩ :=
      eq_compare_of_estimateImpact hg hk.faithful hnarrow
    obtain ⟨base', forced', hbase', -, hforced', -, hwide⟩ := estimateImpact_of_accepted hg
      hk'.faithful hcheck (settings.withConfidence d) false
    obtain rfl := Except.ok.inj (hbase.symm.trans hbase')
    obtain rfl := Except.ok.inj (hforced.symm.trans hforced')
    refine ⟨_, clamps, base, forced, hwide.resolve_right fun h => Bool.false_ne_true h.1, hcheck,
      hbase, hforced, ?_, fun id hid => ?_⟩
    · rw [compare_eq, compare_eq, keys_report, keys_report]
    · rw [compare_eq, keys_report] at hid
      have hsorted : (effectsAt ρ settings m (querySeed settings m)
          (simulate ρ base n (querySeed settings m))
          (simulate ρ forced n (querySeed settings m)) id).Pairwise (· ≤ ·) :=
        effectsAt_pairwise settings
      obtain ⟨least, hleast, greatest, hgreatest, hall, hbetween⟩ :=
        Stats.exists_percentile_between hsorted (effectsAt_ne_nil settings)
      have hlow : 0 ≤ (settings.withConfidence c).confidenceLevel := by
        rw [confidenceLevel_eq]
        exact le_max_of_le_left (by norm_num)
      refine ⟨_, _, least, greatest, _, get?_intervals _ hid, get?_intervals _ hid, rfl,
        length_effectsAt settings, interval_nested hsorted hlow hlevel, hleast, hgreatest, hall,
        (hbetween _).1, (hbetween _).2⟩
  · have hpos : 0 < xs.length := List.length_pos_iff.mpr hne
    exact ⟨Stats.percentile_eq hne q, Stats.floor_rank_lt (Stats.scales_exact _) hpos q,
      Stats.ceil_rank_lt (Stats.scales_exact _) hpos q⟩

end Exact

/-- At the end of the fork the interval of the default level holds that of the least one. -/
theorem intervals_nest_fork :
    (({} : SimulationSettings ℝ).withConfidence (some 0)).confidenceLevel ≤
        (({} : SimulationSettings ℝ).withConfidence none).confidenceLevel ∧
      ∃ (narrow wide : Impact ℝ) (inner outer : ℝ × ℝ),
        (estimateImpact StreamNumber (({} : SimulationSettings ℝ).withConfidence (some 0))
          (fitStatic {} ⟨0, 0⟩ (fork 3)) (forceNumber "a" 2) 2 false []).1 = .ok narrow ∧
        (estimateImpact StreamNumber (({} : SimulationSettings ℝ).withConfidence none)
          (fitStatic {} ⟨0, 0⟩ (fork 3)) (forceNumber "a" 2) 2 false []).1 = .ok wide ∧
        narrow.intervals.get? "d" = some inner ∧ wide.intervals.get? "d" = some outer ∧
        Nested inner outer := by
  have hwf := CausalGraph.wellFormed_of_ofParts (ofParts_fork 3)
  have hfit : acceptLowScore (fit StreamNumber {} ⟨0, 0⟩ (fork 3) none true) =
      .ok (fitStatic {} ⟨0, 0⟩ (fork 3)) := rfl
  have hm : Model.Produced StreamNumber (fitStatic {} ⟨0, 0⟩ (fork 3)) :=
    .fitted (ofParts_fork 3) hfit
  have hlevel : (({} : SimulationSettings ℝ).withConfidence (some 0)).confidenceLevel ≤
      (({} : SimulationSettings ℝ).withConfidence none).confidenceLevel := by
    rw [confidenceLevel_eq, confidenceLevel_eq]
    refine max_le_max le_rfl (min_le_min ?_ le_rfl)
    show (0 : ℝ) ≤ 95 / 100
    norm_num
  have ha : "a" ∈ (fork 3).ids := .head _
  obtain ⟨base, hbase, -⟩ := exists_planned (Model.grounded_fitStatic hwf)
    (Model.missingMechanisms_fitStatic hwf) []
  obtain ⟨narrow, -, hnarrow, -⟩ := exists_impact_forceNumber (ρ := StreamNumber) hwf ha 2 hbase
    (({} : SimulationSettings ℝ).withConfidence (some 0)) (le_refl 2) Kept.fresh.faithful
  obtain ⟨⟨wide, _, _, _, hwide, -, -, -, -, hall⟩, -⟩ :=
    intervals_nest hm {} hlevel .fresh .fresh hnarrow
  have hd : "d" ∈ narrow.effects.keys := by
    obtain ⟨_, _, _, -, -, -, rfl⟩ :=
      eq_compare_of_estimateImpact hm.grounded Kept.fresh.faithful hnarrow
    have hab : (fork 3).HasEdge "a" "b" := ⟨_, .head _, rfl, rfl⟩
    have hbd : (fork 3).HasEdge "b" "d" := ⟨_, .tail _ (.tail _ (.head _)), rfl, rfl⟩
    rw [compare_eq, keys_report]
    exact (mem_affectedNodes_forceNumber hwf).mpr (hab.reaches.trans hbd.reaches)
  obtain ⟨inner, outer, -, -, -, hinner, houter, -, -, hnested, -⟩ := hall "d" hd
  exact ⟨hlevel, narrow, wide, inner, outer, hnarrow, hwide, hinner, houter, hnested⟩

end Simulation

end CodeCausality
