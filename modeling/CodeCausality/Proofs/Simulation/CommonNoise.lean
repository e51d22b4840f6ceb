import CodeCausality.Proofs.Simulation.Impact

/-!
# Runs with common noise

Two runs of a model with one seed differ only below the nodes at which they force different values:

* `Forces` -- the codes that a run forces, those of no or of an accepted intervention;
* `AgreeAbove` -- two interventions force the same at a node and at all that reaches it;
* `getElem?_drawOnce_eq` -- a draw of two such runs has one value at the node: by induction along
  the order, since the node's step is the same and reads values that are equal already;
* `sameColumn`, `reports_eq` -- **so the columns of the node are equal, and what two queries report
  of it.**
-/

namespace CodeCausality

namespace Simulation

variable {α : Type} [Scalar α] {ρ : Type} [Noise ρ α] {m : Model α}

/-- The codes that a run forces: none, or those of an accepted intervention. -/
inductive Forces (m : Model α) : Intervention α → List (String × α) → Prop where
  | baseline : Forces m .empty []
  | intervened {i : Intervention α} {n : Nat} {clamps : List (String × α)}
      (h : checkIntervention m i n = .ok clamps) : Forces m i clamps

/-- The interventions force the same value, or none, at the node and at each node that reaches
it. -/
def AgreeAbove (g : CausalGraph α) (a b : Intervention α) (id : String) : Prop :=
  ∀ x, x = id ∨ g.Reaches x id → a.get? x = b.get? x

section Agree

variable {a b : Intervention α} {clampsA clampsB : List (String × α)}
  {stepsA stepsB : List (Step α)} {id : String}

omit [Scalar α] in
theorem AgreeAbove.of_hasEdge {g : CausalGraph α} (h : AgreeAbove g a b id) {p : String}
    (hp : g.HasEdge p id) : AgreeAbove g a b p := by
  intro x hx
  refine h x (.inr ?_)
  rcases hx with rfl | hx
  · exact hp.reaches
  · exact hx.trans hp.reaches

theorem Forces.lookup (h : Forces m a clampsA) (id : String) :
    clampsA.lookup id = (a.get? id).bind fun v =>
      (m.mechanism? id).bind fun n => n.domain.encode? v := by
  cases h with
  | baseline => rfl
  | intervened h =>
    obtain ⟨-, -, -, -, hclamps⟩ := checkIntervention_eq_ok_iff.mp h
    rw [Dictionary.get?, Entries.find?_eq_lookup]
    exact lookup_encodeClamps hclamps id

/-- Where two interventions force the same, a node has one step. -/
theorem nodeStep_eq (hA : Forces m a clampsA) (hB : Forces m b clampsB)
    (h : a.get? id = b.get? id) (n : NodeMechanism α) :
    nodeStep m clampsA id n = nodeStep m clampsB id n := by
  rw [nodeStep, nodeStep, hA.lookup, hB.lookup, h]

/-! ## 1. Draws -/

omit [Noise ρ α] in
/-- A step's features are those of its parents' values. -/
theorem stepFeatures_congr {step : Step α} {vs ws : List α}
    (h : ∀ q ∈ step.parents, vs.getD q.1 0 = ws.getD q.1 0) :
    stepFeatures step vs = stepFeatures step ws := by
  refine List.flatMap_congr ?_
  rintro ⟨i, domain⟩ hq
  exact congrArg domain.features (h (i, domain) hq)

/-- A step reads the values of its parents only. -/
theorem stepValue_congr {seed : UInt64} {position : Nat} {step : Step α} {vs ws : List α}
    (h : ∀ q ∈ step.parents, vs.getD q.1 0 = ws.getD q.1 0) :
    stepValue ρ seed position step vs = stepValue ρ seed position step ws := by
  rw [stepValue, stepValue, stepFeatures_congr h]

/-- **In a draw of two runs that agree above a node, the node has one value.** -/
theorem getElem?_drawOnce_eq (hm : m.Grounded) (hpA : Planned m clampsA stepsA)
    (hpB : Planned m clampsB stepsB) (hA : Forces m a clampsA) (hB : Forces m b clampsB)
    (seed : UInt64) (hid : id ∈ m.graph.ids) (h : AgreeAbove m.graph a b id) :
    (drawOnce ρ stepsA seed)[m.graph.topologicalOrder.idxOf id]? =
      (drawOnce ρ stepsB seed)[m.graph.topologicalOrder.idxOf id]? := by
  -- along the order: the parents stand before the node
  induction hpos : m.graph.topologicalOrder.idxOf id using Nat.strong_induction_on
    generalizing id with
  | _ position ih =>
    subst hpos
    obtain ⟨n, hn, hstepA⟩ := hpA.step _ id (getElem?_idxOf hm hid)
    obtain ⟨n', hn', hstepB⟩ := hpB.step _ id (getElem?_idxOf hm hid)
    obtain rfl := Option.some.inj (hn.symm.trans hn')
    rw [← nodeStep_eq hA hB (h id (.inl rfl))] at hstepB
    rw [getElem?_drawOnce hstepA, getElem?_drawOnce hstepB]
    refine congrArg some (stepValue_congr fun q hq => ?_)
    have hlt := hpA.parent_lt hm hstepA hq
    obtain ⟨p, hp, rfl⟩ := List.mem_map.mp hq
    have hedge := hm.parents id n hn p hp
    have hvalue := ih _ hlt (hedge.source_mem hm.graph.known) (h.of_hasEdge hedge) rfl
    rw [List.getD_eq_getElem?_getD, List.getD_eq_getElem?_getD, List.getElem?_take_of_lt hlt,
      List.getElem?_take_of_lt hlt, hvalue]

/-! ## 2. Columns -/

theorem idxOf_lt_of_planned (hm : m.Grounded) (hpA : Planned m clampsA stepsA)
    (hid : id ∈ m.graph.ids) : m.graph.topologicalOrder.idxOf id < stepsA.length := by
  rw [hpA.length]
  exact List.idxOf_lt_length_iff.mpr (hm.graph.mem_order.mpr hid)

theorem getElem?_columns_eq (hm : m.Grounded) (hpA : Planned m clampsA stepsA)
    (hpB : Planned m clampsB stepsB) (hA : Forces m a clampsA) (hB : Forces m b clampsB)
    (n : Nat) (seed : UInt64) (hid : id ∈ m.graph.ids) (h : AgreeAbove m.graph a b id) :
    (simulate ρ stepsA n seed).columns[m.graph.topologicalOrder.idxOf id]? =
      (simulate ρ stepsB n seed).columns[m.graph.topologicalOrder.idxOf id]? := by
  rw [getElem?_columns (idxOf_lt_of_planned hm hpA hid),
    getElem?_columns (idxOf_lt_of_planned hm hpB hid), draws, draws, List.map_map, List.map_map]
  refine congrArg some (List.map_congr_left fun k _ => ?_)
  dsimp only [Function.comp_apply]
  rw [List.getD_eq_getElem?_getD, List.getD_eq_getElem?_getD,
    getElem?_drawOnce_eq hm hpA hpB hA hB _ hid h]

/-- Two runs draw the same `n` values at the node. -/
def SameColumn (ρ : Type) [Noise ρ α] (m : Model α) (clampsA clampsB : List (String × α)) (n : Nat)
    (seed : UInt64) (id : String) : Prop :=
  ∃ stepsA stepsB column, plan m m.graph.topologicalOrder clampsA = .ok stepsA ∧
    plan m m.graph.topologicalOrder clampsB = .ok stepsB ∧
    (simulate ρ stepsA n seed).columns[m.graph.topologicalOrder.idxOf id]? = some column ∧
    (simulate ρ stepsB n seed).columns[m.graph.topologicalOrder.idxOf id]? = some column ∧
    column.length = n

theorem sameColumn (hm : m.Grounded) (hc : m.missingMechanisms = []) (hA : Forces m a clampsA)
    (hB : Forces m b clampsB) (n : Nat) (seed : UInt64) (hid : id ∈ m.graph.ids)
    (h : AgreeAbove m.graph a b id) : SameColumn ρ m clampsA clampsB n seed id := by
  obtain ⟨stepsA, hstepsA, hpA⟩ := exists_planned hm hc clampsA
  obtain ⟨stepsB, hstepsB, hpB⟩ := exists_planned hm hc clampsB
  have hcolumn : (simulate ρ stepsA n seed).columns[m.graph.topologicalOrder.idxOf id]? = some _ :=
    getElem?_columns (idxOf_lt_of_planned hm hpA hid)
  refine ⟨stepsA, stepsB, _, hstepsA, hstepsB, hcolumn, ?_, ?_⟩
  · rw [← getElem?_columns_eq hm hpA hpB hA hB n seed hid h, hcolumn]
  · rw [List.length_map, draws, List.length_map, List.length_range]

/-! ## 3. Queries -/

/-- What is measured at a node of two runs that agree above it. -/
theorem measureAt_eq (hm : m.Grounded) (hpA : Planned m clampsA stepsA)
    (hpB : Planned m clampsB stepsB) (hA : Forces m a clampsA) (hB : Forces m b clampsB)
    (settings : SimulationSettings α) (n : Nat) (seed : UInt64) (baseline : Samples α)
    (hid : id ∈ m.graph.ids) (h : AgreeAbove m.graph a b id) :
    measureAt ρ settings m seed baseline (simulate ρ stepsA n seed) id =
      measureAt ρ settings m seed baseline (simulate ρ stepsB n seed) id := by
  have hcolumn : (simulate ρ stepsA n seed).column (m.graph.topologicalOrder.idxOf id) =
      (simulate ρ stepsB n seed).column (m.graph.topologicalOrder.idxOf id) := by
    rw [Samples.column, Samples.column, List.getD_eq_getElem?_getD, List.getD_eq_getElem?_getD,
      getElem?_columns_eq hm hpA hpB hA hB n seed hid h]
  rw [measureAt, measureAt, hcolumn]

/-- Two answers that agree above a node they affect report the same of it. -/
theorem reports_eq (hm : m.Grounded) {settings : SimulationSettings α} {n : Nat}
    {cancelledA cancelledB : Bool} {keptA keptB : Baselines α} (hkA : Faithful ρ m keptA)
    (hkB : Faithful ρ m keptB) {impactA impactB : Impact α}
    (hanswerA : (estimateImpact ρ settings m a n cancelledA keptA).1 = .ok impactA)
    (hanswerB : (estimateImpact ρ settings m b n cancelledB keptB).1 = .ok impactB)
    (hidA : id ∈ impactA.effects.keys) (hidB : id ∈ impactB.effects.keys)
    (h : AgreeAbove m.graph a b id) :
    impactA.effects.get? id = impactB.effects.get? id ∧
      impactA.intervals.get? id = impactB.intervals.get? id ∧
      impactA.shifts.get? id = impactB.shifts.get? id := by
  obtain ⟨clampsA, base, stepsA, hcheckA, hbase, hstepsA, rfl⟩ :=
    eq_compare_of_estimateImpact hm hkA hanswerA
  obtain ⟨clampsB, base', stepsB, hcheckB, hbase', hstepsB, rfl⟩ :=
    eq_compare_of_estimateImpact hm hkB hanswerB
  obtain rfl := Except.ok.inj (hbase.symm.trans hbase')
  obtain ⟨-, -, -, hc, -⟩ := checkIntervention_eq_ok_iff.mp hcheckA
  simp only [compare_eq, keys_report] at hidA hidB ⊢
  have hid : id ∈ m.graph.ids := by
    obtain ⟨⟨x, -, hx⟩, -⟩ := (mem_affectedNodes hm.graph.known).mp hidA
    exact hx.target_mem hm.graph.known
  have hmeasure := measureAt_eq (ρ := ρ) hm (planned_of_plan hm hc hstepsA)
    (planned_of_plan hm hc hstepsB) (.intervened hcheckA) (.intervened hcheckB) settings n
    (querySeed settings m) (simulate ρ base n (querySeed settings m)) hid h
  simp only [get?_report _ hidA, get?_report _ hidB, hmeasure, and_self]

/-- **Runs with common noise differ only below what is forced differently.** Two runs draw the same
column of a node if their interventions force the same at it and above it; so a node neither
intervened on nor below an intervened node has its baseline column, and two answers that agree
above a node they affect report the same effect, interval and shift of it. -/
theorem runs_agree_where_interventions_do (hm : Model.Produced ρ m)
    (hc : m.missingMechanisms = []) :
    (∀ a b clampsA clampsB id, Forces m a clampsA → Forces m b clampsB → id ∈ m.graph.ids →
      AgreeAbove m.graph a b id → ∀ n seed, SameColumn ρ m clampsA clampsB n seed id) ∧
    (∀ i clamps id, Forces m i clamps → id ∈ m.graph.ids → id ∉ i.keys →
      (∀ x ∈ i.keys, ¬ m.graph.Reaches x id) → ∀ n seed, SameColumn ρ m [] clamps n seed id) ∧
    ∀ settings a b n cancelledA cancelledB keptA keptB impactA impactB id,
      Kept ρ m keptA → Kept ρ m keptB →
      (estimateImpact ρ settings m a n cancelledA keptA).1 = .ok impactA →
      (estimateImpact ρ settings m b n cancelledB keptB).1 = .ok impactB →
      id ∈ impactA.effects.keys → id ∈ impactB.effects.keys → AgreeAbove m.graph a b id →
      impactA.effects.get? id = impactB.effects.get? id ∧
        impactA.intervals.get? id = impactB.intervals.get? id ∧
        impactA.shifts.get? id = impactB.shifts.get? id := by
  have hg := hm.grounded
  refine ⟨?_, ?_, ?_⟩
  · intro a b clampsA clampsB id hA hB hid h n seed
    exact sameColumn hg hc hA hB n seed hid h
  · intro i clamps id hi hid hkey hreach n seed
    refine sameColumn hg hc .baseline hi n seed hid fun x hx => ?_
    have hnone : x ∉ i.keys := by
      rcases hx with rfl | hx
      · exact hkey
      · exact fun hmem => hreach x hmem hx
    rw [Dictionary.get?_empty]
    exact (Dictionary.get?_eq_none_of_not_mem hnone).symm
  · intro settings a b n cancelledA cancelledB keptA keptB impactA impactB id hkA hkB hA hB
      hidA hidB h
    exact reports_eq hg hkA.faithful hkB.faithful hA hB hidA hidB h

end Agree

/-- In the diamond forcing `b` leaves the column of `c` as it is without intervention. -/
theorem runs_agree_where_interventions_do_diamond :
    ∃ clamps, Forces diamondModel (forceOne "b") clamps ∧
      SameColumn Random.Generator diamondModel [] clamps 100 7 "c" := by
  have hwf := CausalGraph.wellFormed_of_ofParts CausalGraph.ofParts_diamond
  obtain ⟨clamps, hclamps⟩ :=
    exists_clamps_forceOne (show "b" ∈ CausalGraph.diamond.ids by decide) (le_refl 2)
  have hbelow : CausalGraph.diamond.descendants "b" = ["d"] := by cbv
  have hreach : ¬ CausalGraph.diamond.Reaches "b" "c" := fun h => by
    have hc := (CausalGraph.mem_descendants hwf.known).mpr ⟨h, (by decide : "c" ≠ "b")⟩
    rw [hbelow] at hc
    exact absurd hc (by decide)
  obtain ⟨-, hsame, -⟩ := runs_agree_where_interventions_do produced_diamondModel
    (Model.missingMechanisms_fitStatic hwf)
  refine ⟨clamps, .intervened hclamps, hsame (forceOne "b") clamps "c" (.intervened hclamps)
    (show "c" ∈ CausalGraph.diamond.ids by decide) (by decide) (fun x hx => ?_) 100 7⟩
  obtain rfl := List.mem_singleton.mp hx
  exact hreach

end Simulation

end CodeCausality
