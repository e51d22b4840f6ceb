import CodeCausality.Proofs.Numeric.Percentile
import CodeCausality.Proofs.Random.Positions
import CodeCausality.Proofs.Simulation.Baselines

/-!
# What a query answers

* `report`, `compare_eq` -- an impact is three reports of what is measured at the affected nodes;
* `keys_report`, `get?_report` -- which nodes a report names, and what it says of them;
* `mem_of_mem_resample` -- a resample has members of its sample only;
* `InBounds`, `inBounds` -- **the positions at which a query looks up values, columns and members are
  there**;
* `estimateImpact_eq_error_iff` -- **a query on a grounded model is refused exactly for the first
  reason that applies**;
* `eq_compare_of_estimateImpact` -- and else answered from the samples of the two plans.
-/

namespace CodeCausality

namespace Simulation

variable {α : Type} [Scalar α] {ρ : Type} [Noise ρ α] {m : Model α} {kept : Baselines α}
  {settings : SimulationSettings α} {i : Intervention α} {n : Nat} {seed : UInt64}
  {baseline intervened : Samples α} {cancelled : Bool}

/-! ## 1. Reports -/

/-- What is measured at a node, given the samples with and without the intervention. -/
def measureAt (ρ : Type) [Noise ρ α] (settings : SimulationSettings α) (m : Model α)
    (seed : UInt64) (baseline intervened : Samples α) (id : String) : NodeImpact α :=
  let position := m.graph.topologicalOrder.idxOf id
  measure ρ settings (domainOf m id) (baseline.column position) (intervened.column position) seed
    position

/-- One of the things measured, for each affected node. -/
def report {β : Type} (ρ : Type) [Noise ρ α] (settings : SimulationSettings α) (m : Model α)
    (i : Intervention α) (seed : UInt64) (baseline intervened : Samples α)
    (f : NodeImpact α → β) : Dictionary β :=
  Dictionary.ofList ((affectedNodes m i).map fun id =>
    (id, f (measureAt ρ settings m seed baseline intervened id)))

theorem compare_eq :
    compare ρ settings m m.graph.topologicalOrder i n seed baseline intervened =
      { intervention := i
        effects := report ρ settings m i seed baseline intervened fun x => x.effect
        intervals := report ρ settings m i seed baseline intervened fun x => x.interval
        shifts := report ρ settings m i seed baseline intervened fun x => x.shift
        samples := n } := by
  simp only [compare, report, List.map_map]
  rfl

/-- **Reported are the affected nodes and no other.** -/
theorem keys_report {β : Type} (f : NodeImpact α → β) :
    (report ρ settings m i seed baseline intervened f).keys = affectedNodes m i :=
  Dictionary.keys_ofList_map affectedNodes_increasing _

theorem get?_report {β : Type} (f : NodeImpact α → β) {id : String} (hid : id ∈ affectedNodes m i) :
    (report ρ settings m i seed baseline intervened f).get? id =
      some (f (measureAt ρ settings m seed baseline intervened id)) :=
  Dictionary.get?_ofList_map affectedNodes_increasing _ hid

/-! ## 2. Positions -/

/-- **A resample has members of its sample only.** -/
theorem mem_of_mem_resample (hρ : Noise.Within ρ) {xs : List α} (hne : xs ≠ []) (k : Nat) (r : ρ)
    {drawn : List α} (hdrawn : ∀ x ∈ drawn, x ∈ xs) :
    ∀ x ∈ resample ρ xs.toArray k r drawn, x ∈ xs := by
  induction k generalizing r drawn with
  | zero =>
    intro x hx
    exact hdrawn x (List.mem_reverse.mp hx)
  | succ k ih =>
    have hsize : (Noise.choice xs.toArray.size r).1 < xs.toArray.size :=
      hρ.choice_lt r (List.length_pos_iff.mpr hne)
    have hmem : xs.toArray.getD (Noise.choice xs.toArray.size r).1 0 ∈ xs := by
      rw [Array.getD_eq_getD_getElem?, Array.getElem?_eq_getElem hsize, Option.getD_some]
      exact List.mem_toArray.mp (Array.getElem_mem hsize)
    exact ih (Noise.choice xs.toArray.size r).2 fun x hx =>
      (List.mem_cons.mp hx).elim (fun h => h ▸ hmem) (hdrawn x)

/-- The look-ups of a query find what they look for, a default is never taken. -/
structure InBounds (ρ : Type) [Noise ρ α] (m : Model α) (i : Intervention α) (kept : Baselines α) :
    Prop where
  /-- `gather` looks up the parents of a step among the values of the steps before it. -/
  parents : ∀ clamps steps, plan m m.graph.topologicalOrder clamps = .ok steps →
    ∀ (position : Nat) (step : Step α), steps[position]? = some step →
      ∀ q ∈ step.parents, q.1 < position ∧
        ∀ seed, q.1 < (drawOnce ρ (steps.take position) seed).length
  /-- `Mechanism.pick` looks up one of the values it is given. -/
  picked : Noise.Within ρ → ∀ values ≠ [], ∀ r : ρ, (Mechanism.pick values r).1 ∈ values
  /-- `simulate` looks up every position of the plan in every draw. -/
  rows : ∀ clamps steps, plan m m.graph.topologicalOrder clamps = .ok steps →
    ∀ n seed, ∀ row ∈ draws ρ steps n seed, row.length = steps.length
  /-- `compare` looks up the columns of the affected nodes, in samples that are drawn … -/
  columns : ∀ clamps steps, plan m m.graph.topologicalOrder clamps = .ok steps →
    ∀ n seed, (simulate ρ steps n seed).columns.length = m.graph.topologicalOrder.length ∧
      ∀ column ∈ (simulate ρ steps n seed).columns, column.length = n
  /-- … and in samples that were kept. -/
  kept : ∀ key s, kept.lookup key = some s → s.columns.length = m.graph.topologicalOrder.length ∧
    ∀ column ∈ s.columns, column.length = key.1
  affected : ∀ id ∈ affectedNodes m i,
    m.graph.topologicalOrder.idxOf id < m.graph.topologicalOrder.length
  /-- `resample` looks up members of a column of outcomes. -/
  resampled : Noise.Within ρ → ∀ outcomes ≠ [], ∀ (k : Nat) (r : ρ),
    ∀ x ∈ resample ρ outcomes.toArray k r [], x ∈ outcomes
  /-- `percentile` looks up the two ranks next to its own. -/
  ranks : ∀ (effects : List α) (q : α), 2 ≤ effects.length →
    Stats.percentile effects q = Stats.valueAt effects (Stats.rank effects.length q) ∧
    (Stats.Scales α (effects.length - 1) →
      Scalar.floor (Stats.rank effects.length q) < effects.length ∧
      Scalar.ceil (Stats.rank effects.length q) < effects.length)

theorem planned_of_plan (hm : m.Grounded) (hc : m.missingMechanisms = [])
    {clamps : List (String × α)} {steps : List (Step α)}
    (h : plan m m.graph.topologicalOrder clamps = .ok steps) : Planned m clamps steps := by
  obtain ⟨steps', h', hplanned⟩ := exists_planned hm hc clamps
  obtain rfl := Except.ok.inj (h.symm.trans h')
  exact hplanned

/-- **Where no mechanism is missing, a query looks up nothing that is not there.** -/
theorem inBounds (hm : m.Grounded) (hc : m.missingMechanisms = []) (hk : Faithful ρ m kept) :
    InBounds ρ m i kept where
  parents _ steps h position _ hstep _ hq := by
    have hlt := (planned_of_plan hm hc h).parent_lt hm hstep hq
    obtain ⟨hposition, -⟩ := List.getElem?_eq_some_iff.mp hstep
    refine ⟨hlt, fun seed => ?_⟩
    rwa [length_drawOnce, List.length_take, Nat.min_eq_left hposition.le]
  picked hρ _ hne r := Mechanism.mem_pick hρ hne r
  rows _ _ _ _ _ _ hrow := length_of_mem_draws hrow
  columns _ _ h n seed :=
    ⟨by rw [length_columns, (planned_of_plan hm hc h).length], length_of_mem_columns⟩
  kept key s hs := by
    obtain ⟨steps, hsteps, rfl⟩ := hk key s hs
    exact ⟨by rw [length_columns, (planned_of_plan hm hc hsteps).length], length_of_mem_columns⟩
  affected id hid := by
    obtain ⟨⟨x, -, hx⟩, -⟩ := (mem_affectedNodes hm.graph.known).mp hid
    exact List.idxOf_lt_length_iff.mpr (hm.graph.mem_order.mpr (hx.target_mem hm.graph.known))
  resampled hρ _ hne k r := mem_of_mem_resample hρ hne k r fun _ hx => nomatch hx
  ranks _ q hlength := ⟨Stats.percentile_of_two_le hlength q, fun h =>
    ⟨Stats.floor_rank_lt h (by omega) q, Stats.ceil_rank_lt h (by omega) q⟩⟩

/-! ## 3. Refusals and answers -/

theorem estimateImpact_eq_error_iff (hm : m.Grounded) (hk : Faithful ρ m kept)
    (settings : SimulationSettings α) {e : ImpactError α} :
    (estimateImpact ρ settings m i n false kept).1 = .error e ↔ Refuses m i n e := by
  rw [← checkIntervention_eq_error_iff]
  cases h : checkIntervention m i n with
  | error d =>
    rw [estimateImpact_of_refused h]
    exact ⟨fun h => congrArg _ (Except.error.inj h), fun h => congrArg _ (Except.error.inj h)⟩
  | ok clamps =>
    obtain ⟨base, forced, -, -, -, -, hanswer⟩ := estimateImpact_of_accepted hm hk h settings false
    rcases hanswer with hanswer | ⟨hc, -⟩
    · rw [hanswer]
      exact iff_of_false (fun h => (nomatch h)) fun h => (nomatch h)
    · exact nomatch hc

/-- The answer to a query, if there is one. -/
theorem eq_compare_of_estimateImpact (hm : m.Grounded) (hk : Faithful ρ m kept) {impact : Impact α}
    (h : (estimateImpact ρ settings m i n cancelled kept).1 = .ok impact) :
    ∃ clamps base forced, checkIntervention m i n = .ok clamps ∧
      plan m m.graph.topologicalOrder [] = .ok base ∧
      plan m m.graph.topologicalOrder clamps = .ok forced ∧
      impact = compare ρ settings m m.graph.topologicalOrder i n (querySeed settings m)
        (simulate ρ base n (querySeed settings m))
        (simulate ρ forced n (querySeed settings m)) := by
  cases hcheck : checkIntervention m i n with
  | error e =>
    rw [estimateImpact_of_refused hcheck] at h
    exact nomatch h
  | ok clamps =>
    obtain ⟨base, forced, hbase, -, hforced, -, hanswer⟩ :=
      estimateImpact_of_accepted hm hk hcheck settings cancelled
    refine ⟨clamps, base, forced, rfl, hbase, hforced, ?_⟩
    rcases hanswer with hanswer | ⟨-, hanswer⟩
    · exact Except.ok.inj (h.symm.trans hanswer)
    · exact nomatch h.symm.trans hanswer

/-- **A query on a produced model is refused for the first reason that applies and answered if none
does; the answer reports the nodes below the intervened ones, and nothing is looked up that is not
there.** -/
theorem estimateImpact_refuses_or_answers (hm : Model.Produced ρ m) (hk : Kept ρ m kept)
    (settings : SimulationSettings α) (i : Intervention α) (n : Nat) :
    (∀ e, (estimateImpact ρ settings m i n false kept).1 = .error e ↔ Refuses m i n e) ∧
    ((∀ e, ¬ Refuses m i n e) →
      ∃ impact, (estimateImpact ρ settings m i n false kept).1 = .ok impact) ∧
    (∀ reason,
      (estimateImpact ρ settings m i n false kept).1 ≠ .error (.unmaterialised reason)) ∧
    (estimateImpact ρ settings m i n false kept).1 ≠ .error .cancelled ∧
    ∀ impact, (estimateImpact ρ settings m i n false kept).1 = .ok impact →
      impact.effects.keys = impact.intervals.keys ∧ impact.effects.keys = impact.shifts.keys ∧
      (∀ id, id ∈ impact.effects.keys ↔
        (∃ x ∈ i.keys, m.graph.Reaches x id) ∧ id ∉ i.keys) ∧
      InBounds ρ m i kept := by
  have hg := hm.grounded
  have hf := hk.faithful
  have herror {e : ImpactError α} : (estimateImpact ρ settings m i n false kept).1 = .error e ↔
      Refuses m i n e := estimateImpact_eq_error_iff hg hf settings
  refine ⟨fun e => herror, fun hno => ?_, fun reason h => ?_, fun h => ?_, fun impact h => ?_⟩
  · cases h : (estimateImpact ρ settings m i n false kept).1 with
    | error e => exact absurd (herror.mp h) (hno e)
    | ok impact => exact ⟨impact, rfl⟩
  · exact nomatch herror.mp h
  · exact nomatch herror.mp h
  · obtain ⟨clamps, base, forced, hcheck, -, -, rfl⟩ := eq_compare_of_estimateImpact hg hf h
    obtain ⟨-, -, -, hmissing, -⟩ := checkIntervention_eq_ok_iff.mp hcheck
    simp only [compare_eq, keys_report]
    exact ⟨trivial, trivial, fun id => mem_affectedNodes hg.graph.known, inBounds hg hmissing hf⟩

/-! ## 4. A static fit -/

/-- The static fit of the diamond. -/
def diamondModel : Model Float := fitStatic {} ⟨0, 0⟩ CausalGraph.diamond

theorem produced_diamondModel : Model.Produced Random.Generator diamondModel :=
  .fitted CausalGraph.ofParts_diamond (show acceptLowScore
    (fit Random.Generator {} ⟨0, 0⟩ CausalGraph.diamond none true) = .ok diamondModel from rfl)

/-- The value 1 at a node. -/
def forceOne (id : String) : Intervention Float := Dictionary.ofList [(id, .number 1)]

theorem exists_clamps_forceOne {id : String} (hid : id ∈ CausalGraph.diamond.ids) (hn : 2 ≤ n) :
    ∃ clamps, checkIntervention diamondModel (forceOne id) n = .ok clamps := by
  have hkeys : (forceOne id).keys = [id] := rfl
  refine exists_clamps_fitStatic (CausalGraph.wellFormed_of_ofParts CausalGraph.ofParts_diamond)
    (List.cons_ne_nil id []) hn (fun k hk => ?_) fun k v hv => ?_
  · rw [hkeys, List.mem_singleton] at hk
    exact hk ▸ hid
  · obtain ⟨rfl, rfl⟩ := Prod.mk.inj (List.mem_singleton.mp (Dictionary.mem_of_get?_ofList hv))
    exact ⟨1, rfl, by decide +kernel⟩

/-- Forcing the first node of the diamond is answered for the last one, from resamples that have
members of their sample only; forcing nothing is refused. -/
theorem estimateImpact_refuses_or_answers_diamond :
    (estimateImpact Random.Generator {} diamondModel .empty 2 false []).1 =
        .error .emptyIntervention ∧
      ∃ impact, (estimateImpact Random.Generator {} diamondModel (forceOne "a") 2 false []).1 =
        .ok impact ∧ "d" ∈ impact.effects.keys ∧
        ∀ outcomes ≠ [], ∀ (k : Nat) (r : Random.Generator),
          ∀ x ∈ resample Random.Generator outcomes.toArray k r [], x ∈ outcomes := by
  have hm := produced_diamondModel
  obtain ⟨hrefused, -⟩ := estimateImpact_refuses_or_answers hm .fresh {} .empty 2
  obtain ⟨-, hanswer, -, -, hok⟩ := estimateImpact_refuses_or_answers hm .fresh {} (forceOne "a") 2
  obtain ⟨clamps, hclamps⟩ :=
    exists_clamps_forceOne (show "a" ∈ CausalGraph.diamond.ids by decide) (le_refl 2)
  have hno (e : ImpactError Float) : ¬ Refuses diamondModel (forceOne "a") 2 e := fun he => by
    rw [← checkIntervention_eq_error_iff, hclamps] at he
    exact nomatch he
  obtain ⟨impact, himpact⟩ := hanswer hno
  obtain ⟨-, -, hkeys, hbounds⟩ := hok impact himpact
  have hedge : CausalGraph.HasEdge diamondModel.graph "a" "d" :=
    (CausalGraph.hasEdge_of_ofParts CausalGraph.ofParts_diamond).mpr
      ⟨⟨"a", "d", .dataFlow, none⟩, .tail _ (.head _), rfl, rfl⟩
  exact ⟨(hrefused _).mpr (.empty rfl), impact, himpact,
    (hkeys "d").mpr ⟨⟨"a", by decide, hedge.reaches⟩, by decide⟩,
    hbounds.resampled Random.within_generator⟩

end Simulation

end CodeCausality
