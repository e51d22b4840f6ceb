import CodeCausality.Proofs.Model.Fitted

/-!
# Learning a model

A model is learned from traces column by column and node by node, and the first that fails ends it.

* `Lesson`, `Learned`, `learned_of_learnModel` -- **what each node with parents is learned from and
  scored on**: the design matrix of its parents' columns;
* `Learnable`, `exists_learnModel_iff` -- **when a model can be learned**.
-/

namespace CodeCausality

open Regression (Predictor crossValidate)

variable {α : Type} [Scalar α] {ρ : Type} [Noise ρ α] {settings : FitSettings α} {now : Instant}
  {g : CausalGraph α} {t : TraceTable α} {m : Model α}

/-! ## 1. Columns of the nodes -/

omit [Noise ρ α] in
/-- Each node of the graph finds its own column. -/
theorem exists_lookup_of_readColumns (hg : g.WellFormed) {columns : List (String × Column α)}
    (h : readColumns t g.topologicalOrder = .ok columns) {id : String} (hid : id ∈ g.ids) :
    ∃ c, columns.lookup id = some c ∧ t.column id = .ok c := by
  have hids := ids_of_readColumns h
  have hmem : id ∈ columns.map (·.1) := hids ▸ hg.mem_order.mpr hid
  obtain ⟨e, he, rfl⟩ := List.mem_map.mp hmem
  obtain ⟨k, -, hk, hcolumn⟩ := exists_of_mem_forall₂ (forall₂_readColumns h) he
  exact ⟨e.2, lookup_of_nodup (hids ▸ hg.order_nodup) he, hk ▸ hcolumn⟩

omit [Noise ρ α] in
/-- So do its parents. -/
theorem exists_lookup_of_parent (hg : g.WellFormed) {columns : List (String × Column α)}
    (h : readColumns t g.topologicalOrder = .ok columns) (id : String) :
    ∀ p ∈ g.parents id, ∃ c, columns.lookup p = some c ∧ t.column p = .ok c := fun _ hp =>
  exists_lookup_of_readColumns hg h ((CausalGraph.mem_parents.mp hp).source_mem hg.known)

omit [Noise ρ α] in
/-- The columns that are found for nodes are theirs. -/
theorem forall₂_filterMap_lookup {columns : List (String × Column α)} {ids : List String}
    (h : ∀ id ∈ ids, ∃ c, columns.lookup id = some c ∧ t.column id = .ok c) :
    List.Forall₂ (fun id c => t.column id = .ok c) ids
      (ids.filterMap fun id => columns.lookup id) := by
  induction ids with
  | nil => exact .nil
  | cons id ids ih =>
    obtain ⟨c, hlookup, hcolumn⟩ := h id List.mem_cons_self
    rw [List.filterMap_cons, hlookup]
    exact .cons hcolumn (ih fun k hk => h k (List.mem_cons_of_mem _ hk))

omit [Noise ρ α] in
/-- Columns are found for nodes in one way only. -/
theorem eq_of_forall₂_column {ids : List String} {cs ds : List (Column α)}
    (hc : List.Forall₂ (fun id c => t.column id = .ok c) ids cs)
    (hd : List.Forall₂ (fun id c => t.column id = .ok c) ids ds) : cs = ds := by
  induction hc generalizing ds with
  | nil => exact (List.forall₂_nil_left_iff.mp hd).symm
  | cons hc _ ih =>
    obtain ⟨d, ds, hcolumn, hrest, rfl⟩ := List.forall₂_cons_left_iff.mp hd
    rw [Except.ok.inj (hc.symm.trans hcolumn), ih hrest]

omit [Noise ρ α] in
/-- Each column stands at its node's place in the order. -/
theorem column_of_readColumns (hg : g.WellFormed) {columns : List (String × Column α)}
    (h : readColumns t g.topologicalOrder = .ok columns) {i : Nat} {id : String} {c : Column α}
    (hi : columns[i]? = some (id, c)) :
    id ∈ g.ids ∧ t.column id = .ok c ∧ g.topologicalOrder.idxOf id = i := by
  obtain ⟨hlt, hget⟩ := List.getElem?_eq_some_iff.mp hi
  have hread := forall₂_readColumns h
  have hlt' : i < g.topologicalOrder.length := hread.length_eq ▸ hlt
  have hmember := (List.forall₂_iff_get.mp hread).2 i hlt' hlt
  simp only [List.get_eq_getElem, hget] at hmember
  obtain ⟨rfl, hcolumn⟩ := hmember
  exact ⟨hg.mem_order.mp (List.getElem_mem hlt'), hcolumn, hg.order_nodup.idxOf_getElem i hlt'⟩

theorem graph_of_learnModel (h : learnModel ρ settings now g t = .ok m) : m.graph = g := by
  obtain ⟨-, columns, nodes, -, -, rfl⟩ := learnModel_eq_ok_iff.mp h
  rfl

/-! ## 2. One node -/

/-- What a node with parents is learned from, and what comes of it: its column and those of its
parents, the predictor that was fitted on them, and the score of the cross-validation. -/
structure Lesson (α : Type) where
  column : Column α
  causes : List (Column α)
  predictor : Predictor α
  score : α

/-- The table of features that the node is learned from. -/
def Lesson.features (l : Lesson α) (t : TraceTable α) : List (List α) :=
  designMatrix l.causes t.rows.length

/-- A node's mechanism was learned from the node's column and its parents'. -/
structure Learned (ρ : Type) [Noise ρ α] (settings : FitSettings α) (g : CausalGraph α)
    (t : TraceTable α) (id : String) (n : NodeMechanism α) (l : Lesson α) : Prop where
  column : t.column id = .ok l.column
  parents : List.Forall₂ (fun parent c => t.column parent = .ok c) (g.parents id) l.causes
  fitted : (estimatorFor settings l.column.domain).fit (l.features t) l.column.codes =
    some l.predictor
  scored : crossValidate ρ (estimatorFor settings l.column.domain) (l.features t) l.column.codes
    settings.foldCount (settings.seedValue + UInt64.ofNat (g.topologicalOrder.idxOf id)) =
      some l.score
  mechanism : n = ⟨g.parents id, l.column.domain,
    mechanismOf settings.noise (l.features t) l.column.codes l.predictor⟩

section Nodes

variable {columns : List (String × Column α)} {rows position : Nat} {id : String} {c : Column α}

/-- A root is always learned. -/
theorem learnNode_of_root (h : g.parents id = []) :
    learnNode ρ settings g columns rows position id c =
      .ok ⟨id, ⟨[], c.domain, fitMarginal settings.noise c⟩, none⟩ := by
  rw [learnNode, h]

/-- A node with parents is learned if it can be scored and fitted. -/
theorem learnNode_eq_ok_iff (h : g.parents id ≠ []) {n : FittedNode α} :
    learnNode ρ settings g columns rows position id c = .ok n ↔ ∃ score p,
      crossValidate ρ (estimatorFor settings c.domain)
        (designMatrix ((g.parents id).filterMap fun q => columns.lookup q) rows) c.codes
        settings.foldCount (settings.seedValue + UInt64.ofNat position) = some score ∧
      (estimatorFor settings c.domain).fit
        (designMatrix ((g.parents id).filterMap fun q => columns.lookup q) rows) c.codes =
          some p ∧
      ⟨id, ⟨g.parents id, c.domain, mechanismOf settings.noise
        (designMatrix ((g.parents id).filterMap fun q => columns.lookup q) rows) c.codes p⟩,
        some score⟩ = n := by
  rw [learnNode]
  split
  · rename_i hroot
    exact absurd hroot h
  · dsimp only
    split
    · rename_i score p hscore hfit
      rw [hscore, hfit]
      constructor
      · intro hn
        exact ⟨score, p, rfl, rfl, Except.ok.inj hn⟩
      · rintro ⟨score', p', hscore', hfit', rfl⟩
        cases hscore'
        cases hfit'
        rfl
    · rename_i hnone
      refine iff_of_false (fun hn => by cases hn) ?_
      rintro ⟨score, p, hscore, hfit, -⟩
      exact hnone score p hscore hfit

end Nodes

/-- **Each node with parents is learned from the design matrix of their columns**, and its score is
kept. -/
theorem learned_of_learnModel (hg : g.WellFormed) (h : learnModel ρ settings now g t = .ok m)
    {id : String} (hid : id ∈ g.ids) (hparents : g.parents id ≠ []) :
    ∃ n l, m.mechanism? id = some n ∧ Learned ρ settings g t id n l ∧
      m.metadata.nodeScores.get? id = some l.score := by
  obtain ⟨columns, nodes, hcolumns, hnodes, hsuit, rfl⟩ := nodesSuit_of_learnModel hg h
  have hcauses := exists_lookup_of_parent hg hcolumns id
  -- the node stands at a position of the order, and its column and what was learned stand there too
  obtain ⟨i, hi⟩ := List.mem_iff_getElem?.mp (hg.mem_order.mpr hid)
  obtain ⟨⟨k, c⟩, hc, rfl, hcolumn⟩ := exists_getElem?_of_forall₂ (forall₂_readColumns hcolumns) hi
  have hzip : (columns.zipIdx 0)[i]? = some ((k, c), i) := by
    rw [List.getElem?_zipIdx, hc, Option.map_some, Nat.zero_add]
  rw [learnNodes_eq_mapM] at hnodes
  obtain ⟨node, hnode, hlearn⟩ := getElem?_of_mapM hnodes hzip
  obtain ⟨score, p, hscore, hfit, rfl⟩ := (learnNode_eq_ok_iff hparents).mp hlearn
  have hmem := List.mem_of_getElem? hnode
  have hposition : g.topologicalOrder.idxOf k = i := by
    obtain ⟨hlt, rfl⟩ := List.getElem?_eq_some_iff.mp hi
    exact hg.order_nodup.idxOf_getElem i hlt
  refine ⟨_, ⟨c, _, p, score⟩, (hsuit.mechanism?_iff hg).mpr ⟨_, hmem, rfl, rfl⟩,
    ⟨hcolumn, forall₂_filterMap_lookup hcauses, hfit, ?_, rfl⟩, ?_⟩
  · rw [hposition]
    exact hscore
  · exact hsuit.get?_nodeScores hg hmem rfl rfl

/-! ## 3. When a model can be learned -/

/-- There are enough rows, every node has a column, and every node with parents can be scored and
fitted on the design matrix of their columns. -/
structure Learnable (ρ : Type) [Noise ρ α] (settings : FitSettings α) (g : CausalGraph α)
    (t : TraceTable α) : Prop where
  rows : leastRows ≤ t.rows.length
  columns : ∀ id ∈ g.ids, ∃ c, t.column id = .ok c
  nodes : ∀ id ∈ g.ids, g.parents id ≠ [] → ∃ n l, Learned ρ settings g t id n l

/-- What a node was learned from is found again among the columns, at the node's place. -/
theorem Learned.exists_learnNode (hg : g.WellFormed) {columns : List (String × Column α)}
    (hcolumns : readColumns t g.topologicalOrder = .ok columns) {id : String}
    (hparents : g.parents id ≠ []) {c : Column α} (hc : t.column id = .ok c)
    {n : NodeMechanism α} {l : Lesson α} (h : Learned ρ settings g t id n l) :
    ∃ node, learnNode ρ settings g columns t.rows.length (g.topologicalOrder.idxOf id) id c =
      .ok node := by
  have hcauses := exists_lookup_of_parent hg hcolumns id
  obtain rfl : l.column = c := Except.ok.inj (h.column.symm.trans hc)
  have hfound : (g.parents id).filterMap (fun q => columns.lookup q) = l.causes :=
    eq_of_forall₂_column (forall₂_filterMap_lookup hcauses) h.parents
  refine ⟨_, (learnNode_eq_ok_iff hparents).mpr ⟨l.score, l.predictor, ?_, ?_, rfl⟩⟩
  · rw [hfound]
    exact h.scored
  · rw [hfound]
    exact h.fitted

/-- **A model can be learned exactly if there are enough rows, every node has a column, and every
node with parents can be scored and fitted.** -/
theorem exists_learnModel_iff (hg : g.WellFormed) :
    (∃ m, learnModel ρ settings now g t = .ok m) ↔ Learnable ρ settings g t := by
  constructor
  · rintro ⟨m, h⟩
    obtain ⟨hrows, columns, nodes, hcolumns, -, -⟩ := learnModel_eq_ok_iff.mp h
    refine ⟨hrows, fun id hid => ?_, fun id hid hparents => ?_⟩
    · obtain ⟨c, -, hc⟩ := exists_lookup_of_readColumns hg hcolumns hid
      exact ⟨c, hc⟩
    · obtain ⟨n, l, -, hl, -⟩ := learned_of_learnModel hg h hid hparents
      exact ⟨n, l, hl⟩
  · intro h
    obtain ⟨columns, hcolumns⟩ : ∃ columns, readColumns t g.topologicalOrder = .ok columns := by
      rw [readColumns_eq_mapM]
      refine exists_mapM_of_forall fun id hid => ?_
      obtain ⟨c, hc⟩ := h.columns id (hg.mem_order.mp hid)
      exact ⟨(id, c), by rw [hc]; rfl⟩
    obtain ⟨nodes, hnodes⟩ : ∃ nodes,
        learnNodes ρ settings g columns t.rows.length 0 columns = .ok nodes := by
      rw [learnNodes_eq_mapM]
      refine exists_mapM_of_forall fun ⟨⟨id, c⟩, i⟩ he => ?_
      have hi : columns[i]? = some (id, c) := List.mem_zipIdx_iff_getElem?.mp he
      obtain ⟨hmem, hc, hposition⟩ := column_of_readColumns hg hcolumns hi
      by_cases hparents : g.parents id = []
      · exact ⟨_, learnNode_of_root hparents⟩
      · obtain ⟨n, l, hl⟩ := h.nodes id hmem hparents
        rw [← hposition]
        exact hl.exists_learnNode hg hcolumns hparents hc
    exact ⟨_, learnModel_eq_ok_iff.mpr ⟨h.rows, columns, nodes, hcolumns, hnodes, rfl⟩⟩

end CodeCausality
