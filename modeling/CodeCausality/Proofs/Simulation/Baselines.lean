import CodeCausality.Proofs.Simulation.Draw
import CodeCausality.Proofs.Simulation.Intervention

/-!
# Kept baselines

* `Kept` -- the baselines that queries on a model, one after another, have kept;
* `Faithful` -- what is kept under a sample size and a seed is what a query would draw;
* `faithful_estimateImpact`, `Kept.faithful` -- one query keeps baselines faithful, so **they are
  faithful after any queries**, failed and cancelled ones included;
* `estimateImpact_of_accepted` -- what a query answers that finds faithful baselines;
* `estimateImpact_eq_of_faithful` -- whichever these are.
-/

namespace CodeCausality

namespace Simulation

variable {α : Type} [Scalar α] {ρ : Type} [Noise ρ α] {m : Model α} {kept : Baselines α}

/-- The baselines kept after some queries on the model. -/
inductive Kept (ρ : Type) [Noise ρ α] (m : Model α) : Baselines α → Prop where
  | fresh : Kept ρ m []
  | query {kept : Baselines α} (h : Kept ρ m kept) (settings : SimulationSettings α)
      (i : Intervention α) (n : Nat) (cancelled : Bool) :
      Kept ρ m (estimateImpact ρ settings m i n cancelled kept).2

/-- Kept samples are those of the model without intervention, for their size and seed. -/
def Faithful (ρ : Type) [Noise ρ α] (m : Model α) (kept : Baselines α) : Prop :=
  ∀ key s, kept.lookup key = some s → ∃ steps,
    plan m m.graph.topologicalOrder [] = .ok steps ∧ s = simulate ρ steps key.1 key.2

/-! ## 1. One query -/

theorem Faithful.keep (h : Faithful ρ m kept) {steps : List (Step α)}
    (hsteps : plan m m.graph.topologicalOrder [] = .ok steps) (n : Nat) (seed : UInt64) :
    Faithful ρ m (kept.keep (n, seed) (simulate ρ steps n seed)) := by
  intro key s hs
  rw [Baselines.keep] at hs
  split at hs
  · exact h key s hs
  · rw [List.lookup_append, Option.or_eq_some_iff] at hs
    rcases hs with hs | ⟨-, hs⟩
    · exact h key s hs
    · rw [List.lookup_cons] at hs
      split at hs
      · rename_i hkey
        obtain rfl := Option.some.inj hs
        rw [beq_iff_eq.mp hkey]
        exact ⟨steps, hsteps, rfl⟩
      · exact nomatch hs

theorem Faithful.baselineSamples (h : Faithful ρ m kept) (n : Nat) (seed : UInt64)
    (cancelled : Bool) :
    Faithful ρ m (baselineSamples ρ m m.graph.topologicalOrder n seed cancelled kept).2 := by
  rw [Simulation.baselineSamples]
  split
  · exact h
  · split
    · exact h
    · rename_i steps hsteps
      split
      · exact h
      · exact h.keep hsteps n seed

/-- **A query leaves faithful baselines, whatever it answers.** -/
theorem faithful_estimateImpact (h : Faithful ρ m kept) (settings : SimulationSettings α)
    (i : Intervention α) (n : Nat) (cancelled : Bool) :
    Faithful ρ m (estimateImpact ρ settings m i n cancelled kept).2 := by
  rw [estimateImpact]
  split
  · exact h
  · dsimp only
    have hsamples := h.baselineSamples n (settings.seed.getD m.metadata.seed) cancelled
    split
    · rename_i heq
      rwa [heq] at hsamples
    · rename_i heq
      rw [heq] at hsamples
      split
      · exact hsamples
      · split <;> exact hsamples

/-- **Kept baselines are faithful.** -/
theorem Kept.faithful (h : Kept ρ m kept) : Faithful ρ m kept := by
  induction h with
  | fresh => exact fun _ _ hs => nomatch hs
  | query _ settings i n cancelled ih => exact faithful_estimateImpact ih settings i n cancelled

/-! ## 2. Answers -/

section Answer

variable {settings : SimulationSettings α} {i : Intervention α} {n : Nat} {cancelled : Bool}

theorem estimateImpact_of_refused {e : ImpactError α} (h : checkIntervention m i n = .error e) :
    estimateImpact ρ settings m i n cancelled kept = (.error e, kept) := by
  rw [estimateImpact, h]

/-- The seed that a query draws with. -/
def querySeed (settings : SimulationSettings α) (m : Model α) : UInt64 :=
  settings.seed.getD m.metadata.seed

/-- The samples without intervention are drawn or, unless it makes no difference, found. -/
theorem baselineSamples_eq (h : Faithful ρ m kept) {steps : List (Step α)}
    (hsteps : plan m m.graph.topologicalOrder [] = .ok steps) (n : Nat) (seed : UInt64)
    (cancelled : Bool) :
    (baselineSamples ρ m m.graph.topologicalOrder n seed cancelled kept).1 =
        .ok (simulate ρ steps n seed) ∨
      (cancelled = true ∧
        (baselineSamples ρ m m.graph.topologicalOrder n seed cancelled kept).1 =
          .error .cancelled) := by
  rw [baselineSamples]
  split
  · rename_i s hs
    obtain ⟨steps', hsteps', rfl⟩ := h _ _ hs
    obtain rfl := Except.ok.inj (hsteps.symm.trans hsteps')
    exact .inl rfl
  · rw [hsteps]
    dsimp only
    split
    · rename_i hc
      exact .inr ⟨hc, rfl⟩
    · exact .inl rfl

/-- **An accepted intervention is measured on the samples of the two plans, or the query was
cancelled.** -/
theorem estimateImpact_of_accepted (hm : m.Grounded) (hk : Faithful ρ m kept)
    {clamps : List (String × α)} (h : checkIntervention m i n = .ok clamps)
    (settings : SimulationSettings α) (cancelled : Bool) :
    ∃ base forced, plan m m.graph.topologicalOrder [] = .ok base ∧ Planned m [] base ∧
      plan m m.graph.topologicalOrder clamps = .ok forced ∧ Planned m clamps forced ∧
      ((estimateImpact ρ settings m i n cancelled kept).1 =
          .ok (compare ρ settings m m.graph.topologicalOrder i n (querySeed settings m)
            (simulate ρ base n (querySeed settings m))
            (simulate ρ forced n (querySeed settings m))) ∨
        (cancelled = true ∧
          (estimateImpact ρ settings m i n cancelled kept).1 = .error .cancelled)) := by
  obtain ⟨-, -, -, hmissing, -⟩ := checkIntervention_eq_ok_iff.mp h
  obtain ⟨base, hbase, hbase'⟩ := exists_planned hm hmissing []
  obtain ⟨forced, hforced, hforced'⟩ := exists_planned hm hmissing clamps
  refine ⟨base, forced, hbase, hbase', hforced, hforced', ?_⟩
  have hsamples := baselineSamples_eq hk hbase n (querySeed settings m) cancelled
  rw [estimateImpact, h]
  dsimp only [querySeed] at hsamples ⊢
  cases hpair : baselineSamples ρ m m.graph.topologicalOrder n
    (settings.seed.getD m.metadata.seed) cancelled kept with
  | mk answer kept' =>
    rw [hpair] at hsamples
    rcases hsamples with rfl | ⟨hc, rfl⟩
    · dsimp only
      rw [hforced]
      cases cancelled with
      | true => exact .inr ⟨rfl, rfl⟩
      | false => exact .inl rfl
    · exact .inr ⟨hc, rfl⟩

/-- **A query that is not cancelled answers the same from any faithful baselines.** -/
theorem estimateImpact_eq_of_faithful (hm : m.Grounded) {kept' : Baselines α}
    (hk : Faithful ρ m kept) (hk' : Faithful ρ m kept') :
    (estimateImpact ρ settings m i n false kept).1 =
      (estimateImpact ρ settings m i n false kept').1 := by
  cases h : checkIntervention m i n with
  | error e => rw [estimateImpact_of_refused h, estimateImpact_of_refused h]
  | ok clamps =>
    obtain ⟨base, forced, hbase, -, hforced, -, hanswer⟩ :=
      estimateImpact_of_accepted hm hk h settings false
    obtain ⟨base', forced', hbase', -, hforced', -, hanswer'⟩ :=
      estimateImpact_of_accepted hm hk' h settings false
    obtain rfl := Except.ok.inj (hbase.symm.trans hbase')
    obtain rfl := Except.ok.inj (hforced.symm.trans hforced')
    have hdone : ¬ (false = true) := Bool.false_ne_true
    rw [hanswer.resolve_right fun h => hdone h.1, hanswer'.resolve_right fun h => hdone h.1]

end Answer

end Simulation

end CodeCausality
