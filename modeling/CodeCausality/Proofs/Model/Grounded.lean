import CodeCausality.Model.Fit
import CodeCausality.Proofs.Graph.Construction
import CodeCausality.Proofs.Traversal
import CodeCausality.Record.Basic

/-!
# Models that a fit or a record gives

* `readColumns_eq_mapM`, `learnNodes_eq_mapM` -- the two passes of learning treat each member in its
  place; `learnModel_eq_ok_iff` -- what a model is learned from;
* `readEntry_eq_ok` -- what is checked of an entry of a record;
* `Produced` -- the models that come of a fit, refused for its score or not, and of a record;
* `Grounded` -- the graph is an accepted one and a mechanism's parents are causes of its node;
* `Produced.grounded` -- **every produced model is grounded.** A fit takes the parents from the
  graph; a record's are compared with it, entry by entry.
-/

namespace CodeCausality

/-! ## 1. Passes -/

section Passes

variable {α : Type} [Scalar α] {ρ : Type} [Noise ρ α] {settings : FitSettings α} {now : Instant}
  {g : CausalGraph α} {t : TraceTable α} {m : Model α}

theorem readColumns_eq_mapM (t : TraceTable α) (order : List String) :
    readColumns t order = order.mapM fun id => (t.column id).map fun c => (id, c) := by
  induction order with
  | nil => rfl
  | cons id rest ih =>
    rw [readColumns, List.mapM_cons, ih]
    cases t.column id with
    | error e => rfl
    | ok c => cases rest.mapM fun id => (t.column id).map fun c => (id, c) <;> rfl

theorem learnNodes_eq_mapM (columns : List (String × Column α)) (rows position : Nat)
    (rest : List (String × Column α)) :
    learnNodes ρ settings g columns rows position rest =
      (rest.zipIdx position).mapM fun e =>
        learnNode ρ settings g columns rows e.2 e.1.1 e.1.2 := by
  induction rest generalizing position with
  | nil => rfl
  | cons e rest ih =>
    rw [learnNodes, List.zipIdx_cons, List.mapM_cons, ih]
    cases learnNode ρ settings g columns rows position e.1 e.2 with
    | error f => rfl
    | ok node =>
      cases (rest.zipIdx (position + 1)).mapM fun e =>
        learnNode ρ settings g columns rows e.2 e.1.1 e.1.2 <;> rfl

/-- A model is learned from two rows at least, and from a column for each node. -/
theorem learnModel_eq_ok_iff :
    learnModel ρ settings now g t = .ok m ↔ leastRows ≤ t.rows.length ∧ ∃ columns nodes,
      readColumns t g.topologicalOrder = .ok columns ∧
      learnNodes ρ settings g columns t.rows.length 0 columns = .ok nodes ∧
      Model.ofNodes g nodes now t.rows.length false settings.seedValue = m := by
  rw [learnModel]
  split
  · rename_i hrows
    exact iff_of_false (fun h => by cases h) fun h => absurd h.1 (Nat.not_le_of_lt hrows)
  · rename_i hrows
    rw [and_iff_right (Nat.le_of_not_lt hrows)]
    split
    · rename_i e he
      refine iff_of_false (fun h => by cases h) ?_
      rintro ⟨columns, -, hcolumns, -⟩
      cases he.symm.trans hcolumns
    · rename_i columns hcolumns
      rw [map_eq_ok_iff]
      constructor
      · rintro ⟨nodes, hnodes, hm⟩
        exact ⟨columns, nodes, hcolumns, hnodes, hm⟩
      · rintro ⟨columns', nodes, hcolumns', hnodes, hm⟩
        obtain rfl := Except.ok.inj (hcolumns.symm.trans hcolumns')
        exact ⟨nodes, hnodes, hm⟩

end Passes

/-! ## 2. Entries of a record -/

section Entries

variable {α : Type}

theorem parentsMatch_iff {g : CausalGraph α} {id : String} {d : MechanismRecord α} :
    d.parentsMatch g id = true ↔
      d.parents.length = (g.parents id).length ∧ ∀ p ∈ d.parents, p ∈ g.parents id := by
  rw [MechanismRecord.parentsMatch, Bool.and_eq_true, List.all_eq_true, beq_iff_eq]
  exact and_congr_right fun _ => forall₂_congr fun p _ => List.contains_iff_mem

/-- An entry that is read matches the graph. -/
theorem readEntry_eq_ok {g : CausalGraph α} {e : String × MechanismRecord α}
    {f : String × NodeMechanism α} (h : MechanismRecord.readEntry g e = .ok f) :
    e.1 ∈ g.ids ∧ e.2.parentsMatch g e.1 = true ∧ f.1 = e.1 ∧ e.2.toMechanism e.1 = .ok f.2 := by
  obtain ⟨id, d⟩ := e
  rw [MechanismRecord.readEntry] at h
  split at h
  · cases h
  · rename_i hknown
    split at h
    · cases h
    · rename_i hmatch
      obtain ⟨n, hn, rfl⟩ := map_eq_ok_iff.mp h
      rw [Bool.not_eq_true, Bool.not_eq_false'] at hknown hmatch
      exact ⟨CausalGraph.contains_iff.mp hknown, hmatch, rfl, hn⟩

theorem toMechanism_parents {id : String} {d : MechanismRecord α} {n : NodeMechanism α}
    (h : d.toMechanism id = .ok n) : n.parents = d.parents := by
  rw [MechanismRecord.toMechanism] at h
  obtain ⟨domain, -, h⟩ := bind_eq_ok_iff.mp h
  obtain ⟨mechanism, -, h⟩ := bind_eq_ok_iff.mp h
  split at h
  · cases h
    rfl
  · cases h

end Entries

namespace Model

section Produced

variable {α : Type} [Scalar α]

/-- What every query may rely on. -/
structure Grounded (m : Model α) : Prop where
  graph : m.graph.WellFormed
  parents : ∀ id n, m.mechanism? id = some n → ∀ p ∈ n.parents, m.graph.HasEdge p id

/-- The models that a fit of an accepted graph gives, also those refused for their score, and the
models of accepted records. -/
inductive Produced (ρ : Type) [Noise ρ α] : Model α → Prop where
  | fitted {nodes : List Element} {edges : List (Edge α)} {g : CausalGraph α}
      {settings : FitSettings α} {now : Instant} {traces : Option (TraceTable α)}
      {staticOnly : Bool} {m : Model α} (hg : CausalGraph.ofParts nodes edges = .ok g)
      (hm : acceptLowScore (fit ρ settings now g traces staticOnly) = .ok m) : Produced ρ m
  | loaded {r : Record α} {m : Model α} (hr : r.toModel = .ok m) : Produced ρ m

/-! ## 3. Fits -/

theorem staticNode_parents (target : α) (g : CausalGraph α) (variances : List (String × α))
    (id : String) :
    (staticNode target g variances id).1.id = id ∧
      (staticNode target g variances id).1.mechanism.parents = g.parents id := by
  rw [staticNode]
  split
  · rename_i hnil
    exact ⟨rfl, hnil.symm⟩
  · exact ⟨rfl, rfl⟩

theorem staticNodes_cons (target : α) (g : CausalGraph α) (variances : List (String × α))
    (id : String) (rest : List String) :
    staticNodes target g variances (id :: rest) =
      (staticNode target g variances id).1 ::
        staticNodes target g ((id, (staticNode target g variances id).2) :: variances) rest := rfl

/-- A node is fitted statically from some variances: those of the nodes before it. -/
theorem exists_staticNode_of_mem {target : α} {g : CausalGraph α} {variances : List (String × α)}
    {order : List String} {n : FittedNode α} (hn : n ∈ staticNodes target g variances order) :
    ∃ before id, n = (staticNode target g before id).1 := by
  induction order generalizing variances with
  | nil => exact absurd hn List.not_mem_nil
  | cons id rest ih =>
    rw [staticNodes_cons] at hn
    rcases List.mem_cons.mp hn with rfl | hn
    · exact ⟨variances, id, rfl⟩
    · exact ih hn

theorem staticNodes_parents {target : α} {g : CausalGraph α} {variances : List (String × α)}
    {order : List String} {n : FittedNode α} (hn : n ∈ staticNodes target g variances order) :
    n.mechanism.parents = g.parents n.id := by
  obtain ⟨before, id, rfl⟩ := exists_staticNode_of_mem hn
  obtain ⟨hid, hparents⟩ := staticNode_parents target g before id
  rw [hparents, hid]

theorem staticNodes_ids (target : α) (g : CausalGraph α) (variances : List (String × α))
    (order : List String) : (staticNodes target g variances order).map (·.id) = order := by
  induction order generalizing variances with
  | nil => rfl
  | cons id rest ih =>
    have hid := (staticNode_parents target g variances id).1
    exact congrArg₂ List.cons hid (ih _)

theorem staticNode_domain (target : α) (g : CausalGraph α) (variances : List (String × α))
    (id : String) : (staticNode target g variances id).1.mechanism.domain = .continuous := by
  rw [staticNode]
  split <;> rfl

theorem staticNodes_domain {target : α} {g : CausalGraph α} {variances : List (String × α)}
    {order : List String} {n : FittedNode α} (hn : n ∈ staticNodes target g variances order) :
    n.mechanism.domain = .continuous := by
  obtain ⟨before, id, rfl⟩ := exists_staticNode_of_mem hn
  exact staticNode_domain target g before id

section Learned

variable {ρ : Type} [Noise ρ α] {settings : FitSettings α} {g : CausalGraph α}
  {columns : List (String × Column α)} {rows : Nat}

theorem learnNode_parents {position : Nat} {id : String} {c : Column α} {n : FittedNode α}
    (h : learnNode ρ settings g columns rows position id c = .ok n) :
    n.id = id ∧ n.mechanism.parents = g.parents id := by
  rw [learnNode] at h
  split at h
  · rename_i hnil
    cases h
    exact ⟨rfl, hnil.symm⟩
  · dsimp only at h
    split at h
    · cases h
      exact ⟨rfl, rfl⟩
    · exact nomatch h

theorem learnNodes_parents {position : Nat} {rest : List (String × Column α)}
    {nodes : List (FittedNode α)}
    (h : learnNodes ρ settings g columns rows position rest = .ok nodes) {n : FittedNode α}
    (hn : n ∈ nodes) : n.mechanism.parents = g.parents n.id := by
  rw [learnNodes_eq_mapM] at h
  obtain ⟨e, -, he⟩ := exists_of_mem_mapM h hn
  obtain ⟨hid, hparents⟩ := learnNode_parents he
  rw [hparents, hid]

end Learned

/-- A model of nodes that took their parents from the graph is grounded. -/
theorem grounded_ofNodes {g : CausalGraph α} (hg : g.WellFormed) {nodes : List (FittedNode α)}
    (h : ∀ n ∈ nodes, n.mechanism.parents = g.parents n.id) (now : Instant) (traceCount : Nat)
    (staticOnly : Bool) (seed : UInt64) :
    (Model.ofNodes g nodes now traceCount staticOnly seed).Grounded where
  graph := hg
  parents id n hn p hp := by
    obtain ⟨node, hnode, heq⟩ := List.mem_map.mp (Dictionary.mem_of_get?_ofList hn)
    obtain ⟨rfl, rfl⟩ := Prod.mk.inj heq
    rw [h node hnode] at hp
    exact CausalGraph.mem_parents.mp hp

theorem grounded_of_learnModel {ρ : Type} [Noise ρ α] {settings : FitSettings α} {now : Instant}
    {g : CausalGraph α} (hg : g.WellFormed) {t : TraceTable α} {m : Model α}
    (h : learnModel ρ settings now g t = .ok m) : m.Grounded := by
  obtain ⟨-, columns, nodes, -, hnodes, rfl⟩ := learnModel_eq_ok_iff.mp h
  exact grounded_ofNodes hg (fun n hn => learnNodes_parents hnodes hn) now _ false _

theorem grounded_fitStatic {settings : FitSettings α} {now : Instant} {g : CausalGraph α}
    (hg : g.WellFormed) : (fitStatic settings now g).Grounded :=
  grounded_ofNodes hg (fun _ hn => staticNodes_parents hn) now 0 true _

theorem acceptLowScore_fitDynamic {ρ : Type} [Noise ρ α] {settings : FitSettings α} {now : Instant}
    {g : CausalGraph α} {t : TraceTable α} :
    acceptLowScore (fitDynamic ρ settings now g t) = learnModel ρ settings now g t := by
  rw [fitDynamic]
  split
  · rename_i f hf
    rw [hf, acceptLowScore]
  · rename_i m hm
    rw [hm]
    split <;> rw [acceptLowScore]

/-- **The model of a fit is the static one, or was learned from the traces.** -/
theorem static_or_learned_of_fit {ρ : Type} [Noise ρ α] {settings : FitSettings α} {now : Instant}
    {g : CausalGraph α} {traces : Option (TraceTable α)} {staticOnly : Bool} {m : Model α}
    (h : acceptLowScore (fit ρ settings now g traces staticOnly) = .ok m) :
    m = fitStatic settings now g ∨
      ∃ t, traces = some t ∧ learnModel ρ settings now g t = .ok m := by
  cases traces with
  | none => exact .inl (Except.ok.inj h).symm
  | some t =>
    cases staticOnly with
    | true => exact .inl (Except.ok.inj h).symm
    | false => exact .inr ⟨t, rfl, acceptLowScore_fitDynamic.symm.trans h⟩

theorem grounded_of_fit {ρ : Type} [Noise ρ α] {settings : FitSettings α} {now : Instant}
    {g : CausalGraph α} (hg : g.WellFormed) {traces : Option (TraceTable α)} {staticOnly : Bool}
    {m : Model α} (h : acceptLowScore (fit ρ settings now g traces staticOnly) = .ok m) :
    m.Grounded := by
  obtain rfl | ⟨t, -, hlearn⟩ := static_or_learned_of_fit h
  · exact grounded_fitStatic hg
  · exact grounded_of_learnModel hg hlearn

/-! ## 4. Records -/

/-- What is read of an accepted record. -/
theorem toModel_eq_ok {r : Record α} {m : Model α} (h : r.toModel = .ok m) :
    CausalGraph.ofParts r.nodes r.edges = .ok m.graph ∧
      ∃ entries, r.mechanisms.entries.mapM (MechanismRecord.readEntry m.graph) = .ok entries ∧
        m.mechanisms = Dictionary.ofList entries := by
  rw [Record.toModel] at h
  split at h
  · rename_i g hg
    obtain ⟨_, hgraph, h⟩ := bind_eq_ok_iff.mp h
    cases hgraph
    obtain ⟨entries, hentries, h⟩ := bind_eq_ok_iff.mp h
    obtain ⟨_, -, h⟩ := bind_eq_ok_iff.mp h
    split at h
    · obtain ⟨fittedAt, -, h⟩ := bind_eq_ok_iff.mp h
      cases h
      exact ⟨hg, entries, hentries, rfl⟩
    · obtain ⟨_, hfault, -⟩ := bind_eq_ok_iff.mp h
      exact nomatch hfault
  · obtain ⟨_, hfault, -⟩ := bind_eq_ok_iff.mp h
    exact nomatch hfault

omit [Scalar α] in
theorem readEntry_parents {g : CausalGraph α} {d : String × MechanismRecord α}
    {e : String × NodeMechanism α} (h : MechanismRecord.readEntry g d = .ok e) :
    ∀ p ∈ e.2.parents, p ∈ g.parents e.1 := by
  obtain ⟨-, hmatch, hid, hmechanism⟩ := readEntry_eq_ok h
  rw [toMechanism_parents hmechanism, hid]
  exact (parentsMatch_iff.mp hmatch).2

theorem grounded_of_toModel {r : Record α} {m : Model α} (h : r.toModel = .ok m) : m.Grounded := by
  obtain ⟨hg, entries, hentries, hmechanisms⟩ := toModel_eq_ok h
  refine ⟨CausalGraph.wellFormed_of_ofParts hg, fun id n hn p hp => ?_⟩
  rw [mechanism?, hmechanisms] at hn
  obtain ⟨d, -, hd⟩ := exists_of_mem_mapM hentries (Dictionary.mem_of_get?_ofList hn)
  exact CausalGraph.mem_parents.mp (readEntry_parents hd p hp)

/-- **The graph of every produced model is well formed, and its mechanisms read causes only.** -/
theorem Produced.grounded {ρ : Type} [Noise ρ α] {m : Model α} (h : Produced ρ m) :
    m.Grounded := by
  cases h with
  | fitted hg hm => exact grounded_of_fit (CausalGraph.wellFormed_of_ofParts hg) hm
  | loaded hr => exact grounded_of_toModel hr

end Produced

/-! ## 5. Missing mechanisms -/

section Missing

variable {α : Type}

theorem mem_missingMechanisms {m : Model α} {id : String} :
    id ∈ m.missingMechanisms ↔ id ∈ m.graph.ids ∧ m.mechanism? id = none := by
  rw [missingMechanisms, mem_sortedIds, List.mem_filter, Bool.not_eq_true', Dictionary.contains,
    Option.isSome_eq_false_iff, Option.isNone_iff_eq_none]
  rfl

theorem missingMechanisms_eq_nil_iff {m : Model α} :
    m.missingMechanisms = [] ↔ ∀ k ∈ m.graph.ids, m.mechanism? k ≠ none := by
  rw [List.eq_nil_iff_forall_not_mem]
  refine forall_congr' fun k => ?_
  rw [mem_missingMechanisms, not_and]

/-- A model without missing mechanisms has one for every node. -/
theorem exists_mechanism {m : Model α} (h : m.missingMechanisms = []) {id : String}
    (hid : id ∈ m.graph.ids) : ∃ n, m.mechanism? id = some n := by
  cases hn : m.mechanism? id with
  | some n => exact ⟨n, rfl⟩
  | none => exact absurd (mem_missingMechanisms.mpr ⟨hid, hn⟩) (h ▸ List.not_mem_nil)

variable [Scalar α] {g : CausalGraph α} {settings : FitSettings α} {now : Instant}

/-- **A static fit leaves no node without a mechanism.** -/
theorem missingMechanisms_fitStatic (hg : g.WellFormed) :
    (fitStatic settings now g).missingMechanisms = [] := by
  rw [List.eq_nil_iff_forall_not_mem]
  intro id hid
  obtain ⟨hmem, hnone⟩ := mem_missingMechanisms.mp hid
  have hkey : id ∈ (fitStatic settings now g).mechanisms.keys := by
    rw [fitStatic, Model.ofNodes]
    dsimp only
    have hids : (staticNodes settings.target g [] g.topologicalOrder).map
        (Prod.fst ∘ fun n => (n.id, n.mechanism)) = g.topologicalOrder := staticNodes_ids _ _ _ _
    rw [Dictionary.mem_keys_ofList, List.map_map, hids]
    exact hg.mem_order.mpr hmem
  obtain ⟨n, hn⟩ := (Dictionary.mem_keys _).mp hkey
  rw [mechanism?, hn] at hnone
  exact nomatch hnone

/-- Statically fitted nodes take numbers. -/
theorem domain_fitStatic {id : String} {n : NodeMechanism α}
    (h : (fitStatic settings now g).mechanism? id = some n) : n.domain = .continuous := by
  obtain ⟨node, hnode, heq⟩ := List.mem_map.mp (Dictionary.mem_of_get?_ofList h)
  obtain ⟨rfl, rfl⟩ := Prod.mk.inj heq
  exact staticNodes_domain hnode

end Missing

end Model

end CodeCausality
