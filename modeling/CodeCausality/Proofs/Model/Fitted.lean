import CodeCausality.Proofs.Model.Grounded
import CodeCausality.Proofs.Regression.Shape

/-!
# What a fit gives

A fit treats one node after another. What it gives a node depends on the graph and on the domains
of the nodes, so each node is measured against these:

* `FittedNode.Suits` -- the mechanism has the node's parents, a family for its place and domain, and
  coefficients for its parents' features;
* `suits_staticNode`, `suits_learnNode` -- **what either fit gives a node suits it**;
* `NodesSuit`, `exists_nodesSuit_of_fit` -- **the nodes of every fitted model suit its graph**, and
  there is one of each;
* `NodesSuit.wellFormed`, `NodesSuit.labelled` -- what follows for the model as a whole;
* `fitted_models_are_well_formed` -- **every fit gives a well-formed model of its graph**.
-/

namespace CodeCausality

open Regression (Estimator Predictor)

/-! ## 1. One node -/

section Node

variable {α : Type}

/-- What a node is given suits the graph, if the nodes take values of the given domains. -/
structure FittedNode.Suits (g : CausalGraph α) (domains : String → Domain) (n : FittedNode α) :
    Prop where
  parents : n.mechanism.parents = g.parents n.id
  domain : n.mechanism.domain = domains n.id
  labelled : n.mechanism.domain ≠ .categorical []
  marginal : n.mechanism.mechanism.family.isMarginal = true ↔ g.parents n.id = []
  supports : n.mechanism.mechanism.family.supports n.mechanism.domain = true
  widths : ∀ w ∈ n.mechanism.mechanism.coefficientWidths,
    w = Domain.totalWidth ((g.parents n.id).map domains)
  labels : Model.labelsMatch n.mechanism = true
  score : n.score.isSome = true ↔ g.parents n.id ≠ []

/-- Numbers have one feature each. -/
theorem totalWidth_continuous (ids : List String) :
    Domain.totalWidth (ids.map fun _ => Domain.continuous) = ids.length := by
  induction ids with
  | nil => rfl
  | cons id ids ih =>
    rw [List.map_cons, List.length_cons, ← ih, Domain.totalWidth, List.foldr_cons, Nat.add_comm]
    rfl

variable [Scalar α]

/-- **A static fit suits the node, with numbers everywhere.** -/
theorem suits_staticNode (target : α) (g : CausalGraph α) (variances : List (String × α))
    (id : String) :
    (staticNode target g variances id).1.Suits g fun _ => .continuous := by
  rw [staticNode]
  split
  · rename_i hroot
    exact {
      parents := hroot.symm
      domain := rfl
      labelled := Domain.noConfusion
      marginal := iff_of_true rfl hroot
      supports := rfl
      widths := fun w hw => absurd hw List.not_mem_nil
      labels := rfl
      score := iff_of_false Bool.false_ne_true fun h => h hroot }
  · rename_i hroot
    exact {
      parents := rfl
      domain := rfl
      labelled := Domain.noConfusion
      marginal := iff_of_false Bool.false_ne_true hroot
      supports := rfl
      widths := fun w hw => by
        rw [totalWidth_continuous]
        exact (List.mem_singleton.mp hw).trans (List.length_map _)
      labels := rfl
      score := iff_of_true rfl hroot }

/-- A marginal learned from a column suits the column's domain. -/
theorem fitMarginal_suits (noise : NoiseModel) (c : Column α) :
    (fitMarginal noise c).family.isMarginal = true ∧
      (fitMarginal noise c).family.supports c.domain = true ∧
      (fitMarginal noise c).coefficientWidths = [] ∧
      Model.labelsMatch ⟨[], c.domain, fitMarginal noise c⟩ = true := by
  unfold fitMarginal
  split
  · rename_i hdomain
    rw [hdomain]
    cases noise <;> exact ⟨rfl, rfl, rfl, rfl⟩
  · rename_i hdomain
    rw [hdomain]
    exact ⟨rfl, rfl, rfl, rfl⟩
  · rename_i labels hdomain
    rw [hdomain]
    refine ⟨rfl, rfl, rfl, beq_iff_eq.mpr ?_⟩
    rw [List.length_map, List.length_range]
    rfl

/-- A mechanism made of a predictor suits the domain that its estimator was chosen for. -/
theorem mechanismOf_suits {settings : FitSettings α} (parents : List String) {domain : Domain}
    {x : List (List α)} {y : List α} {p : Predictor α}
    (h : (estimatorFor settings domain).fit x y = some p) :
    (mechanismOf settings.noise x y p).family.isMarginal = false ∧
      (mechanismOf settings.noise x y p).family.supports domain = true ∧
      (∀ w ∈ (mechanismOf settings.noise x y p).coefficientWidths, w = Regression.width x) ∧
      Model.labelsMatch ⟨parents, domain, mechanismOf settings.noise x y p⟩ = true := by
  have hshape := Estimator.suits_of_fit h
  cases domain with
  | continuous =>
    cases p with
    | linear b cs =>
      cases hnoise : settings.noise <;>
        exact ⟨rfl, rfl, fun w hw => (List.mem_singleton.mp hw).trans hshape, rfl⟩
    | logistic b cs => exact hshape.elim
    | softmax bs ws => exact hshape.elim
  | boolean =>
    cases p with
    | linear b cs => exact hshape.elim
    | logistic b cs => exact ⟨rfl, rfl, fun w hw => (List.mem_singleton.mp hw).trans hshape, rfl⟩
    | softmax bs ws => exact hshape.elim
  | categorical labels =>
    cases p with
    | linear b cs => exact hshape.elim
    | logistic b cs => exact hshape.elim
    | softmax bs ws =>
      refine ⟨rfl, rfl, fun w hw => ?_, ?_⟩
      · obtain ⟨row, hrow, rfl⟩ := List.mem_map.mp hw
        exact hshape.rows row hrow
      · exact Bool.and_eq_true_iff.mpr
          ⟨beq_iff_eq.mpr hshape.intercepts, beq_iff_eq.mpr hshape.weights⟩

end Node

/-! ## 2. Columns -/

section Columns

variable {α : Type} [Scalar α]

omit [Scalar α] in
/-- A column of categories has a label at least. -/
theorem TraceTable.domainOf_labelled (vs : List (Value α)) :
    TraceTable.domainOf vs ≠ .categorical [] := by
  unfold TraceTable.domainOf
  split
  · exact Domain.noConfusion
  · rename_i c rest
    intro h
    have hc : c ∈ sortedIds (c :: rest.filterMap label?) := mem_sortedIds.mpr List.mem_cons_self
    rw [Domain.categorical.inj h] at hc
    exact absurd hc List.not_mem_nil
  · exact Domain.noConfusion

theorem TraceTable.column_labelled {t : TraceTable α} {node : String} {c : Column α}
    (h : t.column node = .ok c) : c.domain ≠ .categorical [] := by
  rw [TraceTable.column] at h
  split at h
  · obtain ⟨vs, -, rfl⟩ := map_eq_ok_iff.mp h
    exact domainOf_labelled vs
  · cases h

/-- **There is one column for each node of the order, and it was read for this node.** -/
theorem forall₂_readColumns {t : TraceTable α} {order : List String}
    {columns : List (String × Column α)} (h : readColumns t order = .ok columns) :
    List.Forall₂ (fun id e => e.1 = id ∧ t.column id = .ok e.2) order columns := by
  rw [readColumns_eq_mapM] at h
  refine (mapM_eq_ok_iff.mp h).imp fun id e he => ?_
  obtain ⟨c, hc, rfl⟩ := map_eq_ok_iff.mp he
  exact ⟨rfl, hc⟩

/-- The domain of a node's column; continuous if it has none. -/
def columnDomain (columns : List (String × Column α)) (id : String) : Domain :=
  match columns.lookup id with
  | some c => c.domain
  | none => .continuous

omit [Scalar α] in
theorem columnDomain_of_lookup {columns : List (String × Column α)} {id : String} {c : Column α}
    (h : columns.lookup id = some c) : columnDomain columns id = c.domain := by
  rw [columnDomain, h]

theorem length_featureRow (parents : List (Column α)) (i : Nat) :
    (featureRow parents i).length = Domain.totalWidth (parents.map (·.domain)) := by
  induction parents with
  | nil => rfl
  | cons c rest ih =>
    rw [featureRow, List.flatMap_cons, List.length_append, Domain.length_features, List.map_cons]
    exact congrArg (c.domain.featureWidth + ·) ih

/-- The width of a table with a row is the number of its columns' features. -/
theorem width_designMatrix (parents : List (Column α)) {rows : Nat} (h : 0 < rows) :
    Regression.width (designMatrix parents rows) =
      Domain.totalWidth (parents.map (·.domain)) := by
  obtain ⟨n, rfl⟩ := Nat.exists_eq_succ_of_ne_zero h.ne'
  rw [Regression.width, designMatrix, List.range_succ_eq_map]
  exact length_featureRow parents 0

omit [Scalar α] in
/-- The columns of nodes that all have one are of the nodes' domains. -/
theorem map_domain_filterMap_lookup {columns : List (String × Column α)} {ids : List String}
    (h : ∀ id ∈ ids, ∃ c, columns.lookup id = some c) :
    (ids.filterMap fun id => columns.lookup id).map (·.domain) =
      ids.map (columnDomain columns) := by
  have hdomain (id : String) (hid : id ∈ ids) :
      (columns.lookup id).map (·.domain) = some (columnDomain columns id) := by
    obtain ⟨c, hc⟩ := h id hid
    rw [hc, columnDomain_of_lookup hc, Option.map_some]
  rw [List.map_filterMap, List.filterMap_congr hdomain, List.filterMap_eq_map']

end Columns

/-! ## 3. Learned nodes -/

section Learned

variable {α : Type} [Scalar α] {ρ : Type} [Noise ρ α] {settings : FitSettings α}
  {g : CausalGraph α} {columns : List (String × Column α)} {rows : Nat}

/-- **What is learned for a node suits it, if all its parents have columns.** -/
theorem suits_learnNode {position : Nat} {id : String} {c : Column α} {n : FittedNode α}
    (h : learnNode ρ settings g columns rows position id c = .ok n) (hrows : 0 < rows)
    (hc : columns.lookup id = some c) (hlabelled : c.domain ≠ .categorical [])
    (hparents : ∀ p ∈ g.parents id, ∃ c, columns.lookup p = some c) :
    n.Suits g (columnDomain columns) := by
  rw [learnNode] at h
  split at h
  · rename_i hroot
    cases h
    obtain ⟨hmarginal, hsupports, hwidths, hlabels⟩ := fitMarginal_suits settings.noise c
    exact {
      parents := hroot.symm
      domain := (columnDomain_of_lookup hc).symm
      labelled := hlabelled
      marginal := iff_of_true hmarginal hroot
      supports := hsupports
      widths := fun w hw => by
        rw [hwidths] at hw
        exact absurd hw List.not_mem_nil
      labels := hlabels
      score := iff_of_false Bool.false_ne_true fun h => h hroot }
  · rename_i hroot
    dsimp only at h
    split at h
    · rename_i score predictor _ hfit
      cases h
      obtain ⟨hmarginal, hsupports, hwidths, hlabels⟩ :=
        mechanismOf_suits (g.parents id) hfit
      exact {
        parents := rfl
        domain := (columnDomain_of_lookup hc).symm
        labelled := hlabelled
        marginal := iff_of_false (by rw [hmarginal]; exact Bool.false_ne_true) hroot
        supports := hsupports
        widths := fun w hw => by
          rw [hwidths w hw, width_designMatrix _ hrows, map_domain_filterMap_lookup hparents]
        labels := hlabels
        score := iff_of_true rfl hroot }
    · cases h

/-- **Learning treats one column after another.** -/
theorem forall₂_learnNodes {position : Nat} {rest : List (String × Column α)}
    {nodes : List (FittedNode α)}
    (h : learnNodes ρ settings g columns rows position rest = .ok nodes) :
    List.Forall₂ (fun e n => ∃ position,
      learnNode ρ settings g columns rows position e.1 e.2 = .ok n) rest nodes := by
  rw [learnNodes_eq_mapM] at h
  rw [← List.zipIdx_map_fst position rest, List.forall₂_map_left_iff]
  exact (mapM_eq_ok_iff.mp h).imp fun e n he => ⟨e.2, he⟩

end Learned

/-! ## 4. Fitted models -/

section Fits

variable {α : Type}

/-- There is a node for each of the graph, in the graph's order, and what it was given suits it. -/
structure NodesSuit (g : CausalGraph α) (domains : String → Domain) (nodes : List (FittedNode α)) :
    Prop where
  ids : nodes.map (·.id) = g.topologicalOrder
  suits : ∀ n ∈ nodes, n.Suits g domains

variable [Scalar α] {ρ : Type} [Noise ρ α] {settings : FitSettings α} {g : CausalGraph α}

theorem nodesSuit_static (target : α) (g : CausalGraph α) :
    NodesSuit g (fun _ => .continuous) (staticNodes target g [] g.topologicalOrder) where
  ids := Model.staticNodes_ids target g [] g.topologicalOrder
  suits n hn := by
    obtain ⟨variances, id, rfl⟩ := Model.exists_staticNode_of_mem hn
    exact suits_staticNode target g variances id

omit [Noise ρ α] in
/-- The columns are those of the nodes, in the graph's order. -/
theorem ids_of_readColumns {t : TraceTable α} {order : List String}
    {columns : List (String × Column α)} (h : readColumns t order = .ok columns) :
    columns.map (·.1) = order := by
  rw [← List.map_id order]
  exact (map_eq_map_of_forall₂ ((forall₂_readColumns h).imp fun _ _ h => h.1.symm)).symm

theorem nodesSuit_learned (hg : g.WellFormed) {t : TraceTable α}
    {columns : List (String × Column α)} (hcolumns : readColumns t g.topologicalOrder = .ok columns)
    {rows : Nat} (hrows : 0 < rows) {nodes : List (FittedNode α)}
    (hnodes : learnNodes ρ settings g columns rows 0 columns = .ok nodes) :
    NodesSuit g (columnDomain columns) nodes := by
  have hread := forall₂_readColumns hcolumns
  have hlearned := forall₂_learnNodes hnodes
  have hids := ids_of_readColumns hcolumns
  have hnodup : (columns.map (·.1)).Nodup := hids ▸ hg.order_nodup
  have hlookup {e : String × Column α} (he : e ∈ columns) : columns.lookup e.1 = some e.2 :=
    lookup_of_nodup hnodup he
  refine ⟨?_, fun n hn => ?_⟩
  · rw [← hids]
    refine (map_eq_map_of_forall₂ (hlearned.imp fun e n h => ?_)).symm
    obtain ⟨position, h⟩ := h
    exact (Model.learnNode_parents h).1.symm
  · obtain ⟨e, he, position, hlearn⟩ := exists_of_mem_forall₂ hlearned hn
    obtain ⟨_, -, -, hcolumn⟩ := exists_of_mem_forall₂ hread he
    refine suits_learnNode hlearn hrows (hlookup he) (TraceTable.column_labelled hcolumn) ?_
    intro p hp
    have hmem : p ∈ columns.map (·.1) := by
      rw [hids]
      exact hg.mem_order.mpr ((CausalGraph.mem_parents.mp hp).source_mem hg.known)
    obtain ⟨d, hd, rfl⟩ := List.mem_map.mp hmem
    exact ⟨d.2, hlookup hd⟩

/-- **A learned model is made of nodes that suit its graph**, with their columns' domains. -/
theorem nodesSuit_of_learnModel (hg : g.WellFormed) {now : Instant} {t : TraceTable α}
    {m : Model α} (h : learnModel ρ settings now g t = .ok m) : ∃ columns nodes,
      readColumns t g.topologicalOrder = .ok columns ∧
      learnNodes ρ settings g columns t.rows.length 0 columns = .ok nodes ∧
      NodesSuit g (columnDomain columns) nodes ∧
      m = Model.ofNodes g nodes now t.rows.length false settings.seedValue := by
  obtain ⟨hrows, columns, nodes, hcolumns, hnodes, rfl⟩ := learnModel_eq_ok_iff.mp h
  have hpos : 0 < t.rows.length := Nat.lt_of_lt_of_le (by decide) hrows
  exact ⟨columns, nodes, hcolumns, hnodes, nodesSuit_learned hg hcolumns hpos hnodes, rfl⟩

/-- **Every fitted model, refused for its score or not, is made of nodes that suit its graph.** -/
theorem exists_nodesSuit_of_fit (hg : g.WellFormed) {now : Instant}
    {traces : Option (TraceTable α)} {staticOnly : Bool} {m : Model α}
    (h : acceptLowScore (fit ρ settings now g traces staticOnly) = .ok m) :
    ∃ domains nodes traceCount static, NodesSuit g domains nodes ∧
      m = Model.ofNodes g nodes now traceCount static settings.seedValue := by
  obtain rfl | ⟨t, -, hlearn⟩ := Model.static_or_learned_of_fit h
  · exact ⟨_, _, 0, true, nodesSuit_static settings.target g, rfl⟩
  · obtain ⟨columns, nodes, -, -, hsuit, rfl⟩ := nodesSuit_of_learnModel hg hlearn
    exact ⟨_, nodes, _, _, hsuit, rfl⟩

end Fits

/-! ## 5. Models of suitable nodes -/

section Suitable

variable {α : Type} [Scalar α] {g : CausalGraph α} {domains : String → Domain}
  {nodes : List (FittedNode α)} {now : Instant} {traceCount : Nat} {static : Bool} {seed : UInt64}

omit [Scalar α] in
/-- The scored nodes stand in the order of all. -/
theorem sublist_scored (nodes : List (FittedNode α)) :
    ((nodes.filterMap fun n => n.score.map fun s => (n.id, s)).map (·.1)).Sublist
      (nodes.map (·.id)) := by
  induction nodes with
  | nil => exact .slnil
  | cons n nodes ih =>
    rw [List.filterMap_cons, List.map_cons]
    cases n.score with
    | none => exact ih.cons _
    | some score => exact ih.cons_cons _

namespace NodesSuit

/-- The mechanisms of the model are those of its nodes. -/
theorem mechanism?_iff (h : NodesSuit g domains nodes) (hg : g.WellFormed) {id : String}
    {n : NodeMechanism α} :
    (Model.ofNodes g nodes now traceCount static seed).mechanism? id = some n ↔
      ∃ node ∈ nodes, node.id = id ∧ node.mechanism = n := by
  have hkeys : ((nodes.map fun n => (n.id, n.mechanism)).map (·.1)).Nodup := by
    rw [List.map_map]
    exact h.ids ▸ hg.order_nodup
  constructor
  · intro hn
    obtain ⟨node, hnode, heq⟩ := List.mem_map.mp (Dictionary.mem_of_get?_ofList hn)
    obtain ⟨hid, hmechanism⟩ := Prod.mk.inj heq
    exact ⟨node, hnode, hid, hmechanism⟩
  · rintro ⟨node, hnode, rfl, rfl⟩
    exact Dictionary.get?_ofList_of_nodup hkeys (List.mem_map_of_mem hnode)

theorem mem_ids (h : NodesSuit g domains nodes) (hg : g.WellFormed) {id : String} :
    id ∈ g.ids ↔ ∃ node ∈ nodes, node.id = id := by
  rw [← hg.mem_order, ← h.ids, List.mem_map]

/-- Each node of the graph takes values of its domain. -/
theorem domain_eq (h : NodesSuit g domains nodes) (hg : g.WellFormed) {id : String}
    (hid : id ∈ g.ids) :
    ((Model.ofNodes g nodes now traceCount static seed).mechanism? id).map (·.domain) =
      some (domains id) := by
  obtain ⟨node, hnode, rfl⟩ := (h.mem_ids hg).mp hid
  rw [(h.mechanism?_iff hg).mpr ⟨node, hnode, rfl, rfl⟩, Option.map_some,
    (h.suits node hnode).domain]

theorem featureCount_eq (h : NodesSuit g domains nodes) (hg : g.WellFormed) {ids : List String}
    (hids : ∀ id ∈ ids, id ∈ g.ids) :
    (Model.ofNodes g nodes now traceCount static seed).featureCount ids =
      Domain.totalWidth (ids.map domains) := by
  rw [Model.featureCount, List.filterMap_congr fun id hid => h.domain_eq hg (hids id hid),
    List.filterMap_eq_map']

/-- The scored nodes are those that are no roots. -/
theorem contains_nodeScores_iff (h : NodesSuit g domains nodes) (hg : g.WellFormed) {id : String} :
    (Model.ofNodes g nodes now traceCount static seed).metadata.nodeScores.contains id = true ↔
      id ∈ g.ids ∧ g.parents id ≠ [] := by
  rw [Dictionary.contains_iff, h.mem_ids hg]
  unfold Model.ofNodes
  dsimp only
  rw [Dictionary.mem_keys_ofList, List.mem_map]
  constructor
  · rintro ⟨e, he, rfl⟩
    obtain ⟨node, hnode, heq⟩ := List.mem_filterMap.mp he
    obtain ⟨score, hscore, rfl⟩ := Option.map_eq_some_iff.mp heq
    exact ⟨⟨node, hnode, rfl⟩, (h.suits node hnode).score.mp (hscore ▸ rfl)⟩
  · rintro ⟨⟨node, hnode, rfl⟩, hparents⟩
    obtain ⟨score, hscore⟩ := Option.isSome_iff_exists.mp ((h.suits node hnode).score.mpr hparents)
    exact ⟨(node.id, score), List.mem_filterMap.mpr ⟨node, hnode, by rw [hscore]; rfl⟩, rfl⟩

/-- The score of a node is kept. -/
theorem get?_nodeScores (h : NodesSuit g domains nodes) (hg : g.WellFormed) {id : String}
    {node : FittedNode α} (hnode : node ∈ nodes) (hid : node.id = id) {score : α}
    (hscore : node.score = some score) :
    (Model.ofNodes g nodes now traceCount static seed).metadata.nodeScores.get? id =
      some score := by
  refine Dictionary.get?_ofList_of_nodup ?_ (List.mem_filterMap.mpr ⟨node, hnode, ?_⟩)
  · exact (h.ids ▸ hg.order_nodup).sublist (sublist_scored nodes)
  · rw [hscore, hid, Option.map_some]

/-- **A model of suitable nodes is well formed.** -/
theorem wellFormed (h : NodesSuit g domains nodes) (hg : g.WellFormed) :
    (Model.ofNodes g nodes now traceCount static seed).WellFormed where
  graph := hg
  complete id := by
    rw [Dictionary.contains_iff, Dictionary.mem_keys]
    constructor
    · rintro ⟨n, hn⟩
      obtain ⟨node, hnode, hid, -⟩ := (h.mechanism?_iff hg).mp hn
      exact (h.mem_ids hg).mpr ⟨node, hnode, hid⟩
    · intro hid
      obtain ⟨node, hnode, hid⟩ := (h.mem_ids hg).mp hid
      exact ⟨_, (h.mechanism?_iff hg).mpr ⟨node, hnode, hid, rfl⟩⟩
  parents id n hn := by
    obtain ⟨node, hnode, rfl, rfl⟩ := (h.mechanism?_iff hg).mp hn
    exact (h.suits node hnode).parents
  marginal id n hn := by
    obtain ⟨node, hnode, rfl, rfl⟩ := (h.mechanism?_iff hg).mp hn
    rw [(h.suits node hnode).marginal]
    exact (CausalGraph.isRoot_iff ((h.mem_ids hg).mpr ⟨node, hnode, rfl⟩)).symm
  supports id n hn := by
    obtain ⟨node, hnode, rfl, rfl⟩ := (h.mechanism?_iff hg).mp hn
    exact (h.suits node hnode).supports
  widths id n hn w hw := by
    obtain ⟨node, hnode, rfl, rfl⟩ := (h.mechanism?_iff hg).mp hn
    have hsuits := h.suits node hnode
    rw [hsuits.widths w hw, hsuits.parents, h.featureCount_eq hg fun p hp =>
      (CausalGraph.mem_parents.mp hp).source_mem hg.known]
  labels id n hn := by
    obtain ⟨node, hnode, rfl, rfl⟩ := (h.mechanism?_iff hg).mp hn
    exact (h.suits node hnode).labels
  scores id := by
    rw [h.contains_nodeScores_iff hg]
    refine and_congr_right fun hid => ?_
    rw [← Bool.not_eq_true]
    exact not_congr (CausalGraph.isRoot_iff hid).symm
  families id := Dictionary.get?_map _ _ id

/-- No node of the model is of a category without labels. -/
theorem labelled (h : NodesSuit g domains nodes) (hg : g.WellFormed) {id : String}
    {n : NodeMechanism α}
    (hn : (Model.ofNodes g nodes now traceCount static seed).mechanism? id = some n) :
    n.domain ≠ .categorical [] := by
  obtain ⟨node, hnode, -, rfl⟩ := (h.mechanism?_iff hg).mp hn
  exact (h.suits node hnode).labelled

end NodesSuit

end Suitable

/-! ## 6. Every fit -/

section EveryFit

variable {α : Type} [Scalar α] {ρ : Type} [Noise ρ α]

omit [Scalar α] in
/-- A model is accepted, whatever its score, if it is a fit's result or comes with the refusal. -/
theorem acceptLowScore_eq_ok_iff {fitted : Except (FitError α) (Model α)} {m : Model α} :
    acceptLowScore fitted = .ok m ↔
      fitted = .ok m ∨ ∃ score threshold, fitted = .error (.lowScore score threshold m) := by
  constructor
  · intro h
    cases fitted with
    | ok n => exact .inl (congrArg _ (Except.ok.inj h))
    | error e =>
      cases e with
      | fault f => cases h
      | lowScore score threshold n =>
        obtain rfl : n = m := Except.ok.inj h
        exact .inr ⟨score, threshold, rfl⟩
  · rintro (rfl | ⟨score, threshold, rfl⟩) <;> rfl

omit [Scalar α] in
/-- A fit that gives a model only if the score does not matter was refused for the score. -/
theorem exists_lowScore {fitted : Except (FitError α) (Model α)} (hfitted : fitted.isOk = false)
    (haccepted : (acceptLowScore fitted).isOk = true) :
    ∃ (m : Model α) (score threshold : α), fitted = .error (.lowScore score threshold m) := by
  cases fitted with
  | ok m => cases hfitted
  | error e =>
    cases e with
    | fault f => cases haccepted
    | lowScore score threshold m => exact ⟨m, score, threshold, rfl⟩

namespace Model

theorem WellFormed.missingMechanisms {m : Model α} (h : m.WellFormed) :
    m.missingMechanisms = [] := by
  refine missingMechanisms_eq_nil_iff.mpr fun id hid hnone => ?_
  have hcontains := (h.complete id).mpr hid
  rw [Dictionary.contains_iff, Dictionary.mem_keys] at hcontains
  obtain ⟨n, hn⟩ := hcontains
  exact absurd (hn.symm.trans hnone) (Option.some_ne_none n)

end Model

/-- **Every model that a fit of an accepted graph gives, or refuses for its score, is well formed**:
a model of this graph with one mechanism a node, of the node's parents, place and domain, with
coefficients for the features of the parents and a score for each node that is no root. This does
not depend on what the arithmetic gives, nor on how rows are drawn for the folds. -/
theorem fitted_models_are_well_formed {nodes : List Element} {edges : List (Edge α)}
    {g : CausalGraph α} (hg : CausalGraph.ofParts nodes edges = .ok g) {settings : FitSettings α}
    {now : Instant} {traces : Option (TraceTable α)} {staticOnly : Bool} {m : Model α}
    (hm : fit ρ settings now g traces staticOnly = .ok m ∨
      ∃ score threshold,
        fit ρ settings now g traces staticOnly = .error (.lowScore score threshold m)) :
    m.graph = g ∧ m.WellFormed ∧ m.missingMechanisms = [] := by
  have hgraph := CausalGraph.wellFormed_of_ofParts hg
  obtain ⟨domains, fitted, traceCount, static, hsuit, rfl⟩ :=
    exists_nodesSuit_of_fit hgraph (acceptLowScore_eq_ok_iff.mpr hm)
  have hwell : (Model.ofNodes g fitted now traceCount static settings.seedValue).WellFormed :=
    hsuit.wellFormed hgraph
  exact ⟨rfl, hwell, hwell.missingMechanisms⟩

end EveryFit

/-- A switch and a number that is observed with it. -/
def CausalGraph.switched : CausalGraph Float :=
  .of [.of "k" .namedValue [], .of "y" .namedValue []] [⟨"k", "y", .dataFlow, none⟩]

/-- Four observations in which the number does not depend on the switch. -/
def TraceTable.indifferent : TraceTable Float where
  rows := [(true, 1), (false, 2), (true, 2), (false, 1)].map fun (k, y) =>
    Dictionary.ofList [("k", .boolean k), ("y", .number y)]

theorem CausalGraph.ofParts_switched :
    CausalGraph.ofParts CausalGraph.switched.nodes CausalGraph.switched.edges =
      .ok CausalGraph.switched := by cbv

/-- A fit from them is refused for its score. -/
theorem TraceTable.exists_lowScore_indifferent :
    ∃ (m : Model Float) (score threshold : Float),
      fit Random.Generator {} ⟨0, 0⟩ CausalGraph.switched (some TraceTable.indifferent) false =
        .error (.lowScore score threshold m) :=
  exists_lowScore (by decide +kernel) (by decide +kernel)

/-- The model of a number that does not depend on its cause is refused, and well formed. -/
theorem refused_model_is_well_formed : ∃ (m : Model Float) (score threshold : Float),
    fit Random.Generator {} ⟨0, 0⟩ CausalGraph.switched (some TraceTable.indifferent) false =
      .error (.lowScore score threshold m) ∧
    m.graph = CausalGraph.switched ∧ m.WellFormed ∧ m.missingMechanisms = [] := by
  obtain ⟨m, score, threshold, hfit⟩ := TraceTable.exists_lowScore_indifferent
  exact ⟨m, score, threshold, hfit,
    fitted_models_are_well_formed CausalGraph.ofParts_switched (.inr ⟨score, threshold, hfit⟩)⟩

end CodeCausality
