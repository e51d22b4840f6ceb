import CodeCausality.Proofs.Model.Training
import CodeCausality.Proofs.Record.Families
import CodeCausality.Proofs.Simulation.Domains
import CodeCausality.Proofs.Trace.Columns

/-!
# Features of parents

Three parts of the library lay out the features of a node's parents: the table that a mechanism is
learned from, the check of a record's coefficients, and each draw. A sum over pairs of coefficients
and features stops at the shorter list, so where they disagreed nothing would fail, and the values
would be wrong.

* `stateAt`, `gathered`, `gathered_eq` -- what a draw carries before each node, and what its buffer
  holds when a node that is not clamped is sampled: the features of the node's parents, by their
  values in this draw;
* `length_of_mem_coefficientRows` -- **in a complete model each coefficient row is as long**;
* `stepFeatures_eq_featureRow` -- **where the parents have the values of a trace row, the features
  are a row of the table that the node was learned from**;
* `draws_agree_with_training` -- both, for every complete model.
-/

namespace CodeCausality

/-! ## 1. Coefficient rows -/

section Rows

variable {α : Type}

/-- The coefficient rows of a mechanism; none for a marginal. -/
def Mechanism.coefficientRows : Mechanism α → List (List α)
  | .linearStatic _ cs _ | .linearRegression _ cs _ | .linearRegressionEmpirical _ cs _
  | .logisticRegression _ cs => [cs]
  | .softmaxRegression _ ws => ws
  | _ => []

theorem Mechanism.map_length_coefficientRows (m : Mechanism α) :
    m.coefficientRows.map List.length = m.coefficientWidths := by
  cases m <;> rfl

/-- A readable softmax has one intercept and one row for each label of its node. -/
theorem NodeMechanism.Readable.classes_eq {n : NodeMechanism α} (h : n.Readable) {bs : List α}
    {ws : List (List α)} (hn : n.mechanism = .softmaxRegression bs ws) :
    ∃ labels, n.domain = .categorical labels ∧ bs.length = labels.length ∧
      ws.length = labels.length := by
  obtain ⟨parents, domain, mechanism⟩ := n
  obtain rfl : mechanism = .softmaxRegression bs ws := hn
  obtain ⟨hbs, hws⟩ := Bool.and_eq_true_iff.mp h.labels
  have hsupports := h.supports
  cases domain with
  | continuous | boolean => exact nomatch hsupports
  | categorical labels => exact ⟨labels, rfl, beq_iff_eq.mp hbs, beq_iff_eq.mp hws⟩

/-- Where all nodes have mechanisms their features are counted by their domains. -/
theorem featureCount_eq_totalWidth {m : Model α} {ids : List String}
    (h : ∀ p ∈ ids, ∃ n, m.mechanism? p = some n) :
    m.featureCount ids = Domain.totalWidth (ids.map (Simulation.domainOf m)) := by
  have hdomain (p : String) (hp : p ∈ ids) :
      (m.mechanism? p).map (·.domain) = some (Simulation.domainOf m p) := by
    obtain ⟨n, hn⟩ := h p hp
    rw [hn, Simulation.domainOf_eq hn, Option.map_some]
  rw [Model.featureCount, List.filterMap_congr hdomain, List.filterMap_eq_map']

variable [Scalar α] {ρ : Type} [Noise ρ α] {m : Model α}

/-- In a complete model every parent has a mechanism. -/
theorem exists_mechanism_of_parent (hg : m.Grounded) (hc : m.missingMechanisms = []) {id p : String}
    {n : NodeMechanism α} (hn : m.mechanism? id = some n) (hp : p ∈ n.parents) :
    ∃ np, m.mechanism? p = some np :=
  Model.exists_mechanism hc ((hg.parents id n hn p hp).source_mem hg.graph.known)

/-- **In a complete model the coefficient rows of a node are as wide as its parents' features.** A fit
takes the width from the parents' columns; a record's rows are compared with the parents' domains. -/
theorem widths_of_produced (hm : Model.Produced ρ m) (hc : m.missingMechanisms = []) {id : String}
    {n : NodeMechanism α} (hn : m.mechanism? id = some n) :
    ∀ w ∈ n.mechanism.coefficientWidths, w = m.featureCount n.parents := by
  have hparents : ∀ p ∈ n.parents, ∃ np, m.mechanism? p = some np := fun p hp =>
    exists_mechanism_of_parent hm.grounded hc hn hp
  cases hm with
  | fitted hg hfit =>
    have hwf := CausalGraph.wellFormed_of_ofParts hg
    obtain ⟨domains, nodes, traceCount, static, hnodes, rfl⟩ := exists_nodesSuit_of_fit hwf hfit
    exact (hnodes.wellFormed hwf).widths id n hn
  | loaded hr =>
    exact (recordable_at_epoch hr).widths id n hn _ (expectedWidth_of_fitted hparents)

end Rows

/-! ## 2. What a draw carries -/

namespace Simulation

section States

variable {α : Type} [Scalar α] (ρ : Type) [Noise ρ α]

/-- What a draw carries once the steps before a position are taken. -/
def stateAt (steps : List (Step α)) (seed : UInt64) (i : Nat) : DrawState α :=
  (steps.zipIdx.take i).foldl (DrawState.advance ρ seed) ⟨[], []⟩

variable {ρ} {steps : List (Step α)} {seed : UInt64} {i : Nat} {step : Step α}

/-- A draw takes one step after another. -/
theorem stateAt_succ (hi : steps[i]? = some step) :
    stateAt ρ steps seed (i + 1) = (stateAt ρ steps seed i).advance ρ seed (step, i) := by
  have hzip : steps.zipIdx[i]? = some (step, i) := by
    rw [List.getElem?_zipIdx, hi, Option.map_some, Nat.zero_add]
  rw [stateAt, List.take_add_one, hzip, List.foldl_append]
  rfl

/-- **Before a position the draw's values up to there are known.** -/
theorem values_stateAt (hi : i ≤ steps.length) :
    (stateAt ρ steps seed i).values = (drawOnce ρ steps seed).take i := by
  induction i with
  | zero => rfl
  | succ i ih =>
    have hstep := List.getElem?_eq_getElem (l := steps) hi
    rw [stateAt_succ hstep, values_advance, ih (Nat.le_of_succ_le hi), List.take_add_one,
      getElem?_drawOnce hstep]
    rfl

variable (ρ) in
/-- What the buffer holds when the node at a position is sampled. -/
def gathered (steps : List (Step α)) (seed : UInt64) (i : Nat) : List α :=
  (stateAt ρ steps seed (i + 1)).buffer

/-- **When a node that is not clamped is sampled, the features of its parents are gathered.** -/
theorem gathered_eq (hi : steps[i]? = some step) (hclamp : step.clamp = none) :
    gathered ρ steps seed i = stepFeatures step ((drawOnce ρ steps seed).take i) := by
  have hlt : i < steps.length := (List.getElem?_eq_some_iff.mp hi).1
  rw [gathered, stateAt_succ hi, DrawState.advance]
  dsimp only
  rw [hclamp, ← values_stateAt (ρ := ρ) hlt.le, ← gather_eq]

/-- Its value is sampled from what is gathered. -/
theorem getElem?_drawOnce_eq_sample (hi : steps[i]? = some step) (hclamp : step.clamp = none) :
    (drawOnce ρ steps seed)[i]? = some (step.mechanism.sample (gathered ρ steps seed i)
      (Noise.start seed (UInt64.ofNat i) : ρ)).1 := by
  rw [getElem?_drawOnce hi, stepValue, hclamp, gathered_eq hi hclamp]

omit [Noise ρ α] in
theorem length_stepFeatures (step : Step α) (values : List α) :
    (stepFeatures step values).length = Domain.totalWidth (step.parents.map (·.2)) := by
  rw [stepFeatures]
  induction step.parents with
  | nil => rfl
  | cons q rest ih =>
    rw [List.flatMap_cons, List.length_append, Domain.length_features, List.map_cons, ih]
    rfl

end States

section Widths

variable {α : Type} [Scalar α] {ρ : Type} [Noise ρ α] {m : Model α} {clamps : List (String × α)}
  {steps : List (Step α)}

/-- **What is gathered are the features of the node's parents**, each by its value in the draw: all
of them stand before the node. -/
theorem gathered_of_planned (hg : m.Grounded) (hp : Planned m clamps steps) {id : String}
    (hid : id ∈ m.graph.ids) {n : NodeMechanism α} (hn : m.mechanism? id = some n)
    (hclamp : clamps.lookup id = none) (seed : UInt64) :
    gathered ρ steps seed (m.graph.topologicalOrder.idxOf id) =
      stepFeatures (nodeStep m clamps id n) (drawOnce ρ steps seed) := by
  obtain ⟨n', hn', hstep⟩ := hp.step _ id (getElem?_idxOf hg hid)
  obtain rfl := Option.some.inj (hn.symm.trans hn')
  rw [gathered_eq hstep hclamp]
  refine stepFeatures_congr fun q hq => ?_
  rw [List.getD_eq_getElem?_getD, List.getD_eq_getElem?_getD,
    List.getElem?_take_of_lt (hp.parent_lt hg hstep hq)]

/-- **Each coefficient row has as many coefficients as the parents have features.** -/
theorem length_of_mem_coefficientRows (hm : Model.Produced ρ m) (hc : m.missingMechanisms = [])
    {id : String} {n : NodeMechanism α} (hn : m.mechanism? id = some n) {cs : List α}
    (hcs : cs ∈ n.mechanism.coefficientRows) (values : List α) :
    cs.length = (stepFeatures (nodeStep m clamps id n) values).length := by
  have hwidth : cs.length ∈ n.mechanism.coefficientWidths := by
    rw [← Mechanism.map_length_coefficientRows]
    exact List.mem_map_of_mem hcs
  have hparents : ∀ p ∈ n.parents, ∃ np, m.mechanism? p = some np := fun p hp =>
    exists_mechanism_of_parent hm.grounded hc hn hp
  rw [widths_of_produced hm hc hn _ hwidth, featureCount_eq_totalWidth hparents,
    length_stepFeatures]
  unfold nodeStep
  rw [List.map_map]
  rfl

end Widths

end Simulation

/-! ## 3. Training and drawing -/

namespace Simulation

section Agreement

variable {α : Type} [Scalar α] {ρ : Type} [Noise ρ α] {settings : FitSettings α} {now : Instant}
  {g : CausalGraph α} {t : TraceTable α} {m : Model α} {clamps : List (String × α)}

/-- The parents of a node have, at their positions, the values of a trace row, as codes of their
domains. -/
def HoldsRow (m : Model α) (ids : List String) (r : TraceRow α) (values : List α) : Prop :=
  ∀ p ∈ ids, ∃ v, (r.get? p).bind (domainOf m p).encode? = some v ∧
    values[m.graph.topologicalOrder.idxOf p]? = some v

/-- **Where the parents have the values of a trace row, their features are that row of the design
matrix**, parent by parent: both expand a code in the domain of the parent's column. -/
theorem stepFeatures_eq_featureRow {id : String} {n : NodeMechanism α} {l : Lesson α}
    (hn : Learned ρ settings g t id n l)
    (hdomains : ∀ q d, q ∈ g.parents id → t.column q = .ok d → domainOf m q = d.domain)
    {k : Nat} {r : TraceRow α} (hr : t.rows[k]? = some r) {values : List α}
    (hvalues : HoldsRow m (g.parents id) r values) :
    stepFeatures (nodeStep m clamps id n) values = featureRow l.causes k := by
  have hparents : n.parents = g.parents id := by rw [hn.mechanism]
  unfold nodeStep
  rw [stepFeatures, featureRow, hparents, List.flatMap_map]
  refine flatMap_eq_of_forall₂ ?_
  have hmem := (List.forall₂_and_left _ _).mpr ⟨fun q (hq : q ∈ g.parents id) => hq, hn.parents⟩
  refine hmem.imp ?_
  rintro q d ⟨hq, hcolumn⟩
  obtain ⟨v, hcode, hv⟩ := hvalues q hq
  obtain ⟨x, hx, hencode⟩ :=
    exists_getElem?_of_forall₂ (TraceTable.forall₂_codes_of_column hcolumn) hr
  rw [hdomains q d hq hcolumn] at hcode ⊢
  obtain rfl : v = x := Option.some.inj (hcode.symm.trans hencode)
  dsimp only
  rw [List.getD_eq_getElem?_getD, hv, List.getD_eq_getElem?_getD, hx]

/-- A node of a learned model takes values of its column's domain. -/
theorem domainOf_of_learnModel (hg : g.WellFormed) (h : learnModel ρ settings now g t = .ok m)
    {id : String} (hid : id ∈ g.ids) {c : Column α} (hc : t.column id = .ok c) :
    domainOf m id = c.domain := by
  obtain ⟨columns, nodes, hcolumns, -, hsuit, rfl⟩ := nodesSuit_of_learnModel hg h
  obtain ⟨d, hlookup, hd⟩ := exists_lookup_of_readColumns hg hcolumns hid
  obtain rfl : d = c := Except.ok.inj (hd.symm.trans hc)
  obtain ⟨n, hn, hdomain⟩ := Option.map_eq_some_iff.mp (hsuit.domain_eq hg hid)
  rw [domainOf_eq hn, hdomain, columnDomain_of_lookup hlookup]

/-- Each coefficient row meets the gathered features: pairing them loses neither. -/
theorem unzip_zip_gathered (hm : Model.Produced ρ m) (hc : m.missingMechanisms = [])
    {steps : List (Step α)} (hp : Planned m clamps steps) {id : String} (hid : id ∈ m.graph.ids)
    {n : NodeMechanism α} (hn : m.mechanism? id = some n) (hclamp : clamps.lookup id = none)
    {cs : List α} (hcs : cs ∈ n.mechanism.coefficientRows) (seed : UInt64) :
    cs.length = (gathered ρ steps seed (m.graph.topologicalOrder.idxOf id)).length ∧
      (cs.zip (gathered ρ steps seed (m.graph.topologicalOrder.idxOf id))).unzip =
        (cs, gathered ρ steps seed (m.graph.topologicalOrder.idxOf id)) := by
  have hlength : cs.length =
      (gathered ρ steps seed (m.graph.topologicalOrder.idxOf id)).length := by
    rw [gathered_of_planned hm.grounded hp hid hn hclamp]
    exact length_of_mem_coefficientRows hm hc hn hcs _
  exact ⟨hlength, List.unzip_zip hlength⟩

/-- **Where the parents have the values of a trace row in a draw, the features that are gathered are
those that were learned from.** -/
theorem getElem?_features_of_holdsRow (hg : m.Grounded) (hwf : g.WellFormed)
    (hlearn : learnModel ρ settings now g t = .ok m) {steps : List (Step α)}
    (hp : Planned m clamps steps) {id : String} (hid : id ∈ g.ids) {n : NodeMechanism α}
    {l : Lesson α} (hn : m.mechanism? id = some n) (hlearned : Learned ρ settings g t id n l)
    (hclamp : clamps.lookup id = none) (seed : UInt64) {k : Nat} {r : TraceRow α}
    (hr : t.rows[k]? = some r) (hholds : HoldsRow m (g.parents id) r (drawOnce ρ steps seed)) :
    (l.features t)[k]? = some (gathered ρ steps seed (g.topologicalOrder.idxOf id)) := by
  obtain rfl : m.graph = g := graph_of_learnModel hlearn
  have hdomains (q : String) (d : Column α) (hq : q ∈ m.graph.parents id)
      (hcolumn : t.column q = .ok d) : domainOf m q = d.domain :=
    domainOf_of_learnModel hwf hlearn
      ((CausalGraph.mem_parents.mp hq).source_mem hwf.known) hcolumn
  have hk : k < t.rows.length := (List.getElem?_eq_some_iff.mp hr).1
  have hrow : stepFeatures (nodeStep m clamps id n) (drawOnce ρ steps seed) =
      featureRow l.causes k := stepFeatures_eq_featureRow hlearned hdomains hr hholds
  rw [gathered_of_planned hg hp hid hn hclamp, hrow, Lesson.features, designMatrix,
    List.getElem?_map, List.getElem?_range hk]
  rfl

/-- **Drawing lays out features as checking and training do.** In every draw of a complete model, a
node that is not clamped is sampled from gathered features, and each of its coefficient rows has as
many coefficients, so the pairs of both lose neither; a softmax has one intercept and one row for
each label. In a model learned from traces, where the parents have the values of a trace row in a
draw, the gathered features are this row of the design matrix that the mechanism was fitted on. -/
theorem draws_agree_with_training (hm : Model.Produced ρ m) (hc : m.missingMechanisms = [])
    (clamps : List (String × α)) :
    ∃ steps, plan m m.graph.topologicalOrder clamps = .ok steps ∧
      (∀ seed, ∀ id ∈ m.graph.ids, clamps.lookup id = none → ∃ n i,
        m.mechanism? id = some n ∧ m.graph.topologicalOrder[i]? = some id ∧
        gathered ρ steps seed i = (n.parents.flatMap fun p => (domainOf m p).features
          ((drawOnce ρ steps seed).getD (m.graph.topologicalOrder.idxOf p) 0)) ∧
        (drawOnce ρ steps seed)[i]? = some (n.mechanism.sample (gathered ρ steps seed i)
          (Noise.start seed (UInt64.ofNat i) : ρ)).1 ∧
        (∀ cs ∈ n.mechanism.coefficientRows, cs.length = (gathered ρ steps seed i).length ∧
          (cs.zip (gathered ρ steps seed i)).unzip = (cs, gathered ρ steps seed i)) ∧
        ∀ bs ws, n.mechanism = .softmaxRegression bs ws → ∃ labels,
          n.domain = .categorical labels ∧ bs.length = labels.length ∧
            ws.length = labels.length) ∧
      ∀ (nodes : List Element) (edges : List (Edge α)) g settings now t,
        CausalGraph.ofParts nodes edges = .ok g →
        acceptLowScore (fit ρ settings now g (some t) false) = .ok m →
        ∀ id ∈ g.ids, g.parents id ≠ [] → ∃ n l,
          m.mechanism? id = some n ∧ Learned ρ settings g t id n l ∧
          (clamps.lookup id = none → ∀ seed (k : Nat) r, t.rows[k]? = some r →
            HoldsRow m (g.parents id) r (drawOnce ρ steps seed) →
            (l.features t)[k]? =
              some (gathered ρ steps seed (g.topologicalOrder.idxOf id))) := by
  have hg := hm.grounded
  obtain ⟨steps, hsteps, hp⟩ := exists_planned hg hc clamps
  refine ⟨steps, hsteps, fun seed id hid hclamp => ?_, ?_⟩
  · obtain ⟨n, hn, hstep⟩ := hp.step _ id (getElem?_idxOf hg hid)
    refine ⟨n, _, hn, getElem?_idxOf hg hid, ?_, getElem?_drawOnce_eq_sample hstep hclamp,
      fun cs hcs => unzip_zip_gathered hm hc hp hid hn hclamp hcs seed,
      fun bs ws hsoftmax => (readable_of_produced hm hn).classes_eq hsoftmax⟩
    rw [gathered_of_planned hg hp hid hn hclamp]
    unfold nodeStep
    rw [stepFeatures, List.flatMap_map]
  · intro nodes edges g settings now t hparts hfit id hid hparents
    have hwf := CausalGraph.wellFormed_of_ofParts hparts
    have hlearn : learnModel ρ settings now g t = .ok m :=
      Model.acceptLowScore_fitDynamic.symm.trans hfit
    obtain ⟨n, l, hn, hlearned, -⟩ := learned_of_learnModel hwf hlearn hid hparents
    exact ⟨n, l, hn, hlearned, fun hclamp seed k r hr hholds =>
      getElem?_features_of_holdsRow hg hwf hlearn hp hid hn hlearned hclamp seed hr hholds⟩

end Agreement

/-- Where the switch is forced on, as it is in the first of four observations, the features that the
number is drawn from are the first row that it was learned from. -/
theorem draws_agree_with_training_switched :
    ∃ (m : Model Float) (n : NodeMechanism Float) (l : Lesson Float) (steps : List (Step Float)),
      acceptLowScore (fit Random.Generator {} ⟨0, 0⟩ CausalGraph.switched
        (some TraceTable.indifferent) false) = .ok m ∧
      m.mechanism? "y" = some n ∧
      Learned Random.Generator {} CausalGraph.switched TraceTable.indifferent "y" n l ∧
      plan m m.graph.topologicalOrder [("k", 1)] = .ok steps ∧
      ∀ seed, (l.features TraceTable.indifferent)[0]? =
        some (gathered Random.Generator steps seed 1) := by
  have hparts := CausalGraph.ofParts_switched
  obtain ⟨m, score, threshold, hfit⟩ := TraceTable.exists_lowScore_indifferent
  have haccepted : acceptLowScore (fit Random.Generator {} ⟨0, 0⟩ CausalGraph.switched
      (some TraceTable.indifferent) false) = .ok m := by rw [hfit]; rfl
  have hlearn : learnModel Random.Generator {} ⟨0, 0⟩ CausalGraph.switched
      TraceTable.indifferent = .ok m := Model.acceptLowScore_fitDynamic.symm.trans haccepted
  have hm : Model.Produced Random.Generator m := .fitted hparts haccepted
  have hwf := CausalGraph.wellFormed_of_ofParts hparts
  have hc : m.missingMechanisms = [] := by
    obtain ⟨domains, nodes, traceCount, static, hnodes, rfl⟩ :=
      exists_nodesSuit_of_fit hwf haccepted
    exact (hnodes.wellFormed hwf).missingMechanisms
  obtain ⟨steps, hsteps, -, htrained⟩ := draws_agree_with_training hm hc [("k", 1)]
  obtain ⟨n, l, hn, hlearned, hrow⟩ := htrained _ _ _ _ _ _ hparts haccepted "y"
    (.tail _ (.head _)) (by decide +kernel)
  refine ⟨m, n, l, steps, haccepted, hn, hlearned, hsteps, fun seed => ?_⟩
  have hgraph := graph_of_learnModel hlearn
  have hk : "k" ∈ CausalGraph.switched.ids := .head _
  have hparents : CausalGraph.switched.parents "y" = ["k"] := by decide +kernel
  refine hrow rfl seed 0 (.ofList [("k", .boolean true), ("y", .number 1)]) rfl fun q hq => ?_
  rw [hparents, List.mem_singleton] at hq
  obtain rfl := hq
  obtain ⟨steps', hsteps', hp⟩ := exists_planned hm.grounded hc [("k", 1)]
  obtain rfl := Except.ok.inj (hsteps.symm.trans hsteps')
  have hcolumn : TraceTable.indifferent.column "k" = .ok ⟨.boolean, [1, 0, 1, 0]⟩ := by cbv
  rw [domainOf_of_learnModel hwf hlearn hk hcolumn]
  exact ⟨1, rfl, getElem?_drawOnce_of_clamp hm.grounded hp seed (hgraph ▸ hk) rfl⟩

end Simulation

end CodeCausality
