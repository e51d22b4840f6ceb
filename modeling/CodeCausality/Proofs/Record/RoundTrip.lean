import CodeCausality.Proofs.Model.Fitted
import CodeCausality.Proofs.Record.Mechanism
import CodeCausality.Proofs.Simulation.Impact
import CodeCausality.Proofs.Time.Timestamp

/-!
# Models through records

A record is read back as the model that it was written from. The two sides meet in `Recordable`,
which says of a model what reading checks.

* `readEntry_ofMechanism`, `checkWidths_of_recordable` -- each check passes what was written;
* `toModel_ofModel` -- **a recordable model is read as it was written**;
* `recordable_of_fit` -- every fitted model is recordable, if the clock shows a year of four digits;
* `fitted_models_survive_records` -- **so a fitted model and its record answer alike.**
-/

namespace CodeCausality

/-! ## 1. What reading checks -/

section Recordable

variable {α : Type} [Scalar α]

/-- What reading a record of the model checks: the graph, and of each mechanism that its node is
known, that its parents are as many as the graph's and the graph's, that it can be read, and that
its rows are as wide as the features of its parents; last the time. -/
structure Model.Recordable (m : Model α) : Prop where
  graph : m.graph.WellFormed
  known : ∀ id n, m.mechanism? id = some n → id ∈ m.graph.ids
  parents : ∀ id n, m.mechanism? id = some n →
    n.parents.length = (m.graph.parents id).length ∧ ∀ p ∈ n.parents, p ∈ m.graph.parents id
  readable : ∀ id n, m.mechanism? id = some n → n.Readable
  widths : ∀ id n, m.mechanism? id = some n →
    ∀ width, expectedWidth m.mechanisms n.parents = some width →
      ∀ w ∈ n.mechanism.coefficientWidths, w = width
  fittedAt : Timestamp.read m.metadata.fittedAt.text = .ok m.metadata.fittedAt

variable {m : Model α}

omit [Scalar α] in
theorem Model.mechanism?_of_mem {e : String × NodeMechanism α} (he : e ∈ m.mechanisms.entries) :
    m.mechanism? e.1 = some e.2 := m.mechanisms.get?_eq_some_iff.mpr he

theorem readEntry_ofMechanism (h : m.Recordable) {e : String × NodeMechanism α}
    (he : e ∈ m.mechanisms.entries) :
    MechanismRecord.readEntry m.graph (e.1, MechanismRecord.ofMechanism e.2) = .ok e := by
  have hn := Model.mechanism?_of_mem he
  have hknown : m.graph.contains e.1 = true := CausalGraph.contains_iff.mpr (h.known _ _ hn)
  obtain ⟨hlength, hparents⟩ := h.parents _ _ hn
  have hmatch : (MechanismRecord.ofMechanism e.2).parentsMatch m.graph e.1 = true := by
    rw [MechanismRecord.parentsMatch, Bool.and_eq_true, List.all_eq_true]
    exact ⟨beq_iff_eq.mpr hlength, fun p hp => List.contains_iff_mem.mpr (hparents p hp)⟩
  simp only [MechanismRecord.readEntry, hknown, hmatch, Bool.not_true, Bool.false_eq_true, if_false]
  rw [MechanismRecord.toMechanism_ofMechanism (h.readable _ _ hn)]
  rfl

theorem checkWidths_of_recordable (h : m.Recordable) {e : String × NodeMechanism α}
    (he : e ∈ m.mechanisms.entries) : checkWidths m.mechanisms e = .ok () := by
  rw [checkWidths]
  split
  · rfl
  · rename_i width hwidth
    rw [if_pos]
    exact List.all_eq_true.mpr fun w hw =>
      beq_iff_eq.mpr (h.widths _ _ (Model.mechanism?_of_mem he) width hwidth w hw)

/-! ## 2. Reading -/

/-- **A recordable model is read as it was written.** -/
theorem toModel_ofModel (h : m.Recordable) : (Record.ofModel m).toModel = .ok m := by
  have hgraph : CausalGraph.ofParts (Record.ofModel m).nodes (Record.ofModel m).edges =
      .ok m.graph := CausalGraph.ofParts_of_wellFormed h.graph
  have hentries : (Record.ofModel m).mechanisms.entries.mapM
      (MechanismRecord.readEntry m.graph) = .ok m.mechanisms.entries := by
    rw [mapM_eq_ok_iff]
    unfold Record.ofModel Dictionary.map
    rw [List.forall₂_map_left_iff, List.forall₂_same]
    exact fun e he => readEntry_ofMechanism h he
  have hwidths : checkAll (checkWidths m.mechanisms) m.mechanisms.entries = .ok () :=
    checkAll_eq_ok_iff.mpr fun e he => checkWidths_of_recordable h he
  have htime : Timestamp.read (Record.ofModel m).metadata.fittedAt = .ok m.metadata.fittedAt :=
    h.fittedAt
  unfold Record.toModel
  rw [hgraph, htime]
  refine bind_eq_ok_iff.mpr ⟨m.graph, rfl, ?_⟩
  refine bind_eq_ok_iff.mpr ⟨m.mechanisms.entries, hentries, ?_⟩
  rw [Dictionary.ofList_entries]
  refine bind_eq_ok_iff.mpr ⟨(), hwidths, ?_⟩
  exact bind_eq_ok_iff.mpr ⟨m.metadata.fittedAt, rfl, rfl⟩

/-! ## 3. Fitted models -/

omit [Scalar α] in
/-- Widths are only compared where all parents have mechanisms, and then with all their features. -/
theorem featureCount_of_expectedWidth {ids : List String} {width : Nat}
    (h : expectedWidth m.mechanisms ids = some width) : m.featureCount ids = width := by
  obtain ⟨domains, hdomains, rfl⟩ := Option.map_eq_some_iff.mp h
  exact congrArg _ (filterMap_eq_of_forall₂ (mapM_eq_some_iff.mp hdomains))

/-- The mechanisms of a well-formed model are readable if its categories have labels: a class
regression needs a category, and has as many classes as that has labels. -/
theorem Model.WellFormed.readable (h : m.WellFormed) {id : String} {n : NodeMechanism α}
    (hn : m.mechanism? id = some n) (hlabelled : n.domain ≠ .categorical []) : n.Readable := by
  refine ⟨h.supports id n hn, h.labels id n hn, fun bs ws hsoftmax hbs => ?_,
    m.featureCount n.parents, h.widths id n hn⟩
  have hsupports := h.supports id n hn
  have hlabels := h.labels id n hn
  rw [hsoftmax] at hsupports
  rw [Model.labelsMatch, hsoftmax, hbs] at hlabels
  cases hd : n.domain with
  | continuous => rw [hd] at hsupports; exact nomatch hsupports
  | boolean => rw [hd] at hsupports; exact nomatch hsupports
  | categorical labels =>
    rw [hd] at hlabels hlabelled
    have hnone : labels.length = 0 := (beq_iff_eq.mp (Bool.and_eq_true_iff.mp hlabels).1).symm
    exact hlabelled (congrArg Domain.categorical (List.length_eq_zero_iff.mp hnone))

/-- A well-formed model is recordable if its categories have labels and its time can be read. -/
theorem Model.WellFormed.recordable (h : m.WellFormed)
    (hlabelled : ∀ id n, m.mechanism? id = some n → n.domain ≠ .categorical [])
    (htime : Timestamp.read m.metadata.fittedAt.text = .ok m.metadata.fittedAt) :
    m.Recordable where
  graph := h.graph
  known id n hn := by
    rw [← h.complete, Dictionary.contains_iff, Dictionary.mem_keys]
    exact ⟨n, hn⟩
  parents id n hn := by
    rw [h.parents id n hn]
    exact ⟨rfl, fun p hp => hp⟩
  readable id n hn := h.readable hn (hlabelled id n hn)
  widths id n hn width hwidth w hw := by
    rw [h.widths id n hn w hw, featureCount_of_expectedWidth hwidth]
  fittedAt := htime

/-- **Every fitted model, refused for its score or not, is recordable.** -/
theorem recordable_of_fit {ρ : Type} [Noise ρ α] {settings : FitSettings α} {now : Instant}
    {g : CausalGraph α} (hg : g.WellFormed) {traces : Option (TraceTable α)} {staticOnly : Bool}
    (hm : acceptLowScore (fit ρ settings now g traces staticOnly) = .ok m) (hclock : now.OnClock)
    (hyear : 0 ≤ now.year ∧ now.year ≤ 9999) : m.Recordable := by
  obtain ⟨domains, nodes, traceCount, static, hnodes, rfl⟩ := exists_nodesSuit_of_fit hg hm
  have hmicros : now.toMicros.nanos % 1000 = 0 := Nat.mul_mod_left _ _
  have hread : Timestamp.read now.toMicros.text = .ok now.toMicros :=
    Timestamp.read_text hclock.toMicros hmicros hyear
  exact (hnodes.wellFormed hg).recordable (fun id n hn => hnodes.labelled hg hn) hread

end Recordable

/-! ## 4. Queries on a model that was read back -/

section Queries

open Simulation (Intervention Kept estimateImpact)

/-- **A fitted model is read back from its record, and answers every query as it did, whatever
baselines either has kept.** -/
theorem fitted_models_survive_records {α : Type} [Scalar α] {ρ : Type} [Noise ρ α]
    {nodes : List Element} {edges : List (Edge α)} {g : CausalGraph α}
    (hg : CausalGraph.ofParts nodes edges = .ok g) {settings : FitSettings α} {now : Instant}
    {traces : Option (TraceTable α)} {staticOnly : Bool} {m : Model α}
    (hm : acceptLowScore (fit ρ settings now g traces staticOnly) = .ok m) (hclock : now.OnClock)
    (hyear : 0 ≤ now.year ∧ now.year ≤ 9999) :
    ∃ loaded, (Record.ofModel m).toModel = .ok loaded ∧
      loaded.graph.nodes = m.graph.nodes ∧ loaded.graph.edges = m.graph.edges ∧
      loaded.mechanisms = m.mechanisms ∧ loaded.metadata = m.metadata ∧
      loaded.graph.topologicalOrder = m.graph.topologicalOrder ∧
      ∀ kept keptLoaded, Kept ρ m kept → Kept ρ loaded keptLoaded →
        ∀ (settings : SimulationSettings α) (i : Intervention α) (n : Nat),
          (estimateImpact ρ settings loaded i n false keptLoaded).1 =
            (estimateImpact ρ settings m i n false kept).1 := by
  have hgraph := CausalGraph.wellFormed_of_ofParts hg
  have hread := toModel_ofModel (recordable_of_fit hgraph hm hclock hyear)
  refine ⟨m, hread, rfl, rfl, rfl, rfl, rfl, fun kept keptLoaded hk hk' settings i n => ?_⟩
  exact Simulation.estimateImpact_eq_of_faithful (Model.grounded_of_fit hgraph hm) hk'.faithful
    hk.faithful

/-- A model fitted in a leap second, at a time that is finer than a microsecond, survives. -/
theorem fitted_models_survive_records_leap_second :
    ∃ loaded, (Record.ofModel (fitStatic {} ⟨1483228799, 1500000123⟩ CausalGraph.diamond)).toModel =
        .ok loaded ∧ loaded.metadata.fittedAt = ⟨1483228799, 1500000000⟩ := by
  have hclock : Instant.OnClock ⟨1483228799, 1500000123⟩ := ⟨by decide, fun _ => by decide⟩
  have hfit : acceptLowScore (fit Random.Generator {} ⟨1483228799, 1500000123⟩ CausalGraph.diamond
      none true) = .ok (fitStatic {} ⟨1483228799, 1500000123⟩ CausalGraph.diamond) := rfl
  obtain ⟨loaded, hread, -, -, -, hmetadata, -⟩ :=
    fitted_models_survive_records CausalGraph.ofParts_diamond hfit hclock (by decide +kernel)
  exact ⟨loaded, hread, by rw [hmetadata]; rfl⟩

end Queries

end CodeCausality
