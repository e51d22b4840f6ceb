import CodeCausality.Proofs.Graph.Construction

/-!
# Which parts are refused for their cycles

Whether parts make a graph is decided by how far the topological order gets; what is reported is
read off reachability. Here both are compared with the kept edges alone:

* `KeptStep` -- a kept edge from one node to another; `IsComponent` -- a strongly connected
  component of these steps; `HoldsCycle` -- more than one node, or one with a step to itself;
* `mem_components`, `components_disjoint` -- the components that are found are those of the nodes, and
  no node is in two; `loops_iff` -- which of them hold a cycle;
* `mem_cyclicComponents_iff` -- the reported lists are the components that hold a cycle;
* `ofParts_accepts_iff` -- **parts are accepted exactly if they pass the checks and have no cycle**;
* `ofParts_reports_iff` -- **what is reported otherwise is each cyclic component once, sorted.**
-/

namespace CodeCausality

namespace CausalGraph

variable {α : Type}

/-! ## 1. Components -/

section Component

variable {nodes : List Element} {edges : List (Edge α)}

/-- A kept edge leads from one node to the other. -/
def KeptStep (edges : List (Edge α)) (u v : String) : Prop :=
  ∃ e, Edge.IsKept edges e ∧ e.source = u ∧ e.target = v

/-- The nodes that one of them reaches and that reach it, in no steps or in some. -/
def IsComponent (nodes : List Element) (edges : List (Edge α)) (c : List String) : Prop :=
  ∃ u ∈ nodes.map (·.id), ∀ v, v ∈ c ↔ v ∈ nodes.map (·.id) ∧
    Relation.ReflTransGen (KeptStep edges) u v ∧ Relation.ReflTransGen (KeptStep edges) v u

/-- A component holds a cycle: it has several nodes, or one with a step to itself. -/
def HoldsCycle (edges : List (Edge α)) (c : List String) : Prop :=
  1 < c.length ∨ ∃ u, c = [u] ∧ KeptStep edges u u

/-- The parts make a graph. -/
structure Acceptable [Scalar α] (nodes : List Element) (edges : List (Edge α)) : Prop
    extends Checked nodes edges where
  acyclic : ∀ v, ¬ Relation.TransGen (KeptStep edges) v v

theorem hasEdge_assembled : (assembled nodes edges).HasEdge = KeptStep edges := by
  funext u v
  refine propext ⟨?_, ?_⟩
  · rintro ⟨e, he, h⟩
    exact ⟨e, Edge.mem_canonical.mp he, h⟩
  · rintro ⟨e, he, h⟩
    exact ⟨e, Edge.mem_canonical.mpr he, h⟩

theorem reaches_assembled {u v : String} :
    (assembled nodes edges).Reaches u v ↔ Relation.TransGen (KeptStep edges) u v := by
  rw [reaches_iff_transGen, hasEdge_assembled]

end Component

/-! ## 2. Lists of ids -/

theorem idsLE_iff {as bs : List String} : idsLE as bs = true ↔ as ≤ bs := by
  rw [← not_lt]
  induction as generalizing bs with
  | nil => exact iff_of_true rfl (List.not_lt_nil bs)
  | cons a as ih =>
    cases bs with
    | nil => exact iff_of_false Bool.false_ne_true fun h => h (List.nil_lt_cons a as)
    | cons b bs =>
      rw [idsLE, Bool.or_eq_true, Bool.and_eq_true, decide_eq_true_eq, beq_iff_eq, ih,
        List.cons_lt_cons_iff]
      rcases lt_trichotomy a b with h | h | h
      · refine iff_of_true (.inl h) ?_
        rintro (hba | ⟨hba, -⟩)
        · exact lt_asymm h hba
        · exact h.ne' hba
      · subst h
        simp only [lt_irrefl, false_or, true_and]
      · refine iff_of_false ?_ fun k => k (.inl h)
        rintro (hab | ⟨hab, -⟩)
        · exact lt_asymm h hab
        · exact h.ne' hab

theorem mergeSort_idsLE_sorted (cs : List (List String)) :
    (cs.mergeSort idsLE).Pairwise (· ≤ ·) := by
  have htrans : ∀ a b c : List String, idsLE a b = true → idsLE b c = true → idsLE a c = true :=
    fun a b c hab hbc => idsLE_iff.mpr ((idsLE_iff.mp hab).trans (idsLE_iff.mp hbc))
  have htotal : ∀ a b : List String, (idsLE a b || idsLE b a) = true := fun a b => by
    rw [Bool.or_eq_true, idsLE_iff, idsLE_iff]
    exact le_total a b
  exact (List.pairwise_mergeSort htrans htotal cs).imp idsLE_iff.mp

/-! ## 3. Components and cycles -/

section Components

variable {g : CausalGraph α}

theorem loops_iff {c : List String} :
    g.loops c = true ↔ 1 < c.length ∨ ∃ u, c = [u] ∧ g.HasEdge u u := by
  rw [loops, Bool.or_eq_true, decide_eq_true_eq]
  match c with
  | [] => simp
  | [u] => simp
  | u :: v :: rest => simp

section Known

variable (hk : g.KnownEnds)

include hk

theorem mem_componentOf {u v : String} :
    v ∈ g.componentOf u ↔ v ∈ g.ids ∧
      Relation.ReflTransGen g.HasEdge u v ∧ Relation.ReflTransGen g.HasEdge v u := by
  rw [componentOf, List.mem_filter, Bool.or_eq_true, beq_iff_eq, Bool.and_eq_true,
    List.contains_iff_mem, List.contains_iff_mem, mem_reached_children hk, mem_reached_children hk,
    reaches_iff_transGen, reaches_iff_transGen]
  refine and_congr_right fun _ => ⟨?_, ?_⟩
  · rintro (rfl | ⟨huv, hvu⟩)
    · exact ⟨.refl, .refl⟩
    · exact ⟨huv.to_reflTransGen, hvu.to_reflTransGen⟩
  · rintro ⟨huv, hvu⟩
    rcases Relation.reflTransGen_iff_eq_or_transGen.mp huv with rfl | huv
    · exact .inl rfl
    · rcases Relation.reflTransGen_iff_eq_or_transGen.mp hvu with rfl | hvu
      · exact .inl rfl
      · exact .inr ⟨huv, hvu⟩

theorem self_mem_componentOf {u : String} (hu : u ∈ g.ids) : u ∈ g.componentOf u :=
  (mem_componentOf hk).mpr ⟨hu, .refl, .refl⟩

/-- Every node of a component has the same one. -/
theorem componentOf_eq_of_mem {u v : String} (hv : v ∈ g.componentOf u) :
    g.componentOf v = g.componentOf u := by
  obtain ⟨-, huv, hvu⟩ := (mem_componentOf hk).mp hv
  have hiff {w : String} : w ∈ g.componentOf v ↔ w ∈ g.componentOf u := by
    rw [mem_componentOf hk, mem_componentOf hk]
    exact and_congr_right fun _ => ⟨fun h => ⟨huv.trans h.1, h.2.trans hvu⟩,
      fun h => ⟨hvu.trans h.1, h.2.trans huv⟩⟩
  refine List.filter_congr fun w hw => Bool.eq_iff_iff.mpr ?_
  simpa only [componentOf, List.mem_filter, and_iff_right hw] using hiff (w := w)

theorem mem_components {c : List String} :
    c ∈ g.components ↔ ∃ u ∈ g.ids, g.componentOf u = c := by
  simp only [components, List.mem_map, List.mem_filter, beq_iff_eq]
  constructor
  · rintro ⟨u, ⟨hu, -⟩, rfl⟩
    exact ⟨u, hu, rfl⟩
  · rintro ⟨u, hu, rfl⟩
    -- the component stands at its first node
    obtain ⟨v, rest, hv⟩ := List.exists_cons_of_ne_nil
      (List.ne_nil_of_mem (self_mem_componentOf hk hu))
    have hmem : v ∈ g.componentOf u := hv ▸ List.mem_cons_self
    have heq := componentOf_eq_of_mem hk hmem
    exact ⟨v, ⟨((mem_componentOf hk).mp hmem).1, by rw [heq, hv, List.head?_cons]⟩, heq⟩

/-- No node is in two components. -/
theorem components_disjoint (hd : g.ids.Nodup) : g.components.Pairwise List.Disjoint := by
  refine List.pairwise_map.mpr ((hd.filter _).imp_of_mem fun {u v} hu hv hne w hwu hwv => hne ?_)
  have heq := (componentOf_eq_of_mem hk hwu).symm.trans (componentOf_eq_of_mem hk hwv)
  have hfirst := beq_iff_eq.mp (List.mem_filter.mp hu).2
  rw [heq, beq_iff_eq.mp (List.mem_filter.mp hv).2] at hfirst
  exact (Option.some.inj hfirst).symm

theorem mem_cyclicComponents {c : List String} :
    c ∈ g.cyclicComponents ↔
      ∃ u ∈ g.ids, g.loops (g.componentOf u) = true ∧ sortIds (g.componentOf u) = c := by
  simp only [cyclicComponents, List.mem_mergeSort, List.mem_map, List.mem_filter,
    mem_components hk]
  constructor
  · rintro ⟨-, ⟨⟨u, hu, rfl⟩, hloops⟩, rfl⟩
    exact ⟨u, hu, hloops, rfl⟩
  · rintro ⟨u, hu, hloops, rfl⟩
    exact ⟨_, ⟨⟨u, hu, rfl⟩, hloops⟩, rfl⟩

theorem cyclicComponents_increasing (hd : g.ids.Nodup) :
    g.cyclicComponents.Pairwise (· < ·) := by
  have hdistinct : ((g.components.filter g.loops).map sortIds).Nodup := by
    refine List.pairwise_map.mpr (((components_disjoint hk hd).filter _).imp_of_mem
      fun {c d} hc _ hcd heq => ?_)
    obtain ⟨u, hu, rfl⟩ := (mem_components hk).mp (List.mem_filter.mp hc).1
    have hmem := self_mem_componentOf hk hu
    exact hcd hmem (mem_sortIds.mp (heq ▸ mem_sortIds.mpr hmem))
  have hnodup : g.cyclicComponents.Nodup := (List.mergeSort_perm _ _).nodup_iff.mpr hdistinct
  exact ((mergeSort_idsLE_sorted _).and hnodup).imp fun h => lt_of_le_of_ne h.1 h.2

end Known

theorem sortIds_componentOf_increasing (hd : g.ids.Nodup) (u : String) :
    (sortIds (g.componentOf u)).Pairwise (· < ·) := by
  have hnodup : (sortIds (g.componentOf u)).Nodup :=
    (List.mergeSort_perm _ _).nodup_iff.mpr (hd.filter _)
  exact ((sortIds_increasing _).and hnodup).imp fun h => lt_of_le_of_ne h.1 h.2

end Components

/-! ## 4. Cyclic components -/

section Main

variable {nodes : List Element} {edges : List (Edge α)}

theorem holdsCycle_sortIds {c : List String} :
    HoldsCycle edges (sortIds c) ↔ (assembled nodes edges).loops c = true := by
  have hperm : (sortIds c).Perm c := List.mergeSort_perm _ _
  have hsingle (u : String) : sortIds c = [u] ↔ c = [u] :=
    ⟨fun h => List.perm_singleton.mp (h ▸ hperm).symm,
      fun h => List.perm_singleton.mp (h ▸ hperm)⟩
  rw [loops_iff, hasEdge_assembled, HoldsCycle, hperm.length_eq]
  simp only [hsingle]

/-- The nodes of a component that holds a cycle lie on one. -/
theorem transGen_of_holdsCycle {c : List String} (hinc : c.Pairwise (· < ·))
    (hc : IsComponent nodes edges c) (hcycle : HoldsCycle edges c) {v : String} (hv : v ∈ c) :
    Relation.TransGen (KeptStep edges) v v := by
  obtain ⟨u, -, hmem⟩ := hc
  obtain ⟨-, huv, hvu⟩ := (hmem v).mp hv
  rcases hcycle with hlen | ⟨w, rfl, hw⟩
  · -- another member is reached from `v` and reaches `v`
    obtain ⟨w, hw, hne⟩ : ∃ w ∈ c, w ≠ v := by
      refine Classical.byContradiction fun hn => ?_
      push Not at hn
      have hnd : c.Nodup := hinc.imp ne_of_lt
      have hsub : c.Subperm [v] := hnd.subperm fun w hw => List.mem_singleton.mpr (hn w hw)
      have := hsub.length_le
      rw [List.length_singleton] at this
      omega
    obtain ⟨-, huw, hwu⟩ := (hmem w).mp hw
    rcases Relation.reflTransGen_iff_eq_or_transGen.mp (hvu.trans huw) with h | h
    · exact absurd h hne
    · exact h.trans_left (hwu.trans huv)
  · obtain rfl := List.mem_singleton.mp hv
    exact .single hw

section Known

variable (hk : (assembled nodes edges).KnownEnds)

include hk

theorem isComponent_sortIds {u : String} (hu : u ∈ (assembled nodes edges).ids) :
    IsComponent nodes edges (sortIds ((assembled nodes edges).componentOf u)) :=
  ⟨u, hu, fun v => by rw [mem_sortIds, mem_componentOf hk, hasEdge_assembled]; rfl⟩

/-- The component of a node on a cycle holds one. -/
theorem loops_componentOf {u : String} (hu : (assembled nodes edges).Reaches u u) :
    (assembled nodes edges).loops ((assembled nodes edges).componentOf u) = true := by
  have hself := self_mem_componentOf hk (hu.source_mem hk)
  rw [loops_iff]
  cases hc : (assembled nodes edges).componentOf u with
  | nil => exact absurd hself (hc ▸ List.not_mem_nil)
  | cons a rest =>
    cases rest with
    | cons b rest => exact .inl (by simp)
    | nil =>
      rw [hc, List.mem_singleton] at hself
      subst hself
      -- the first step of the walk from `u` to `u` stays in the component
      obtain ⟨v, huv, hvu⟩ := Relation.TransGen.head'_iff.mp (reaches_iff_transGen.mp hu)
      have hv : v ∈ (assembled nodes edges).componentOf u :=
        (mem_componentOf hk).mpr ⟨huv.target_mem hk, .single huv, hvu⟩
      rw [hc, List.mem_singleton] at hv
      exact .inr ⟨u, rfl, hv ▸ huv⟩

/-- **The reported lists are the sorted components that hold a cycle.** -/
theorem mem_cyclicComponents_iff (hd : (assembled nodes edges).ids.Nodup) {c : List String} :
    c ∈ (assembled nodes edges).cyclicComponents ↔
      c.Pairwise (· < ·) ∧ IsComponent nodes edges c ∧ HoldsCycle edges c := by
  rw [mem_cyclicComponents hk]
  constructor
  · rintro ⟨u, hu, hloops, rfl⟩
    exact ⟨sortIds_componentOf_increasing hd u, isComponent_sortIds hk hu,
      holdsCycle_sortIds.mpr hloops⟩
  · rintro ⟨hinc, ⟨u, hu, hmem⟩, hcycle⟩
    have heq : sortIds ((assembled nodes edges).componentOf u) = c :=
      eq_of_increasing (sortIds_componentOf_increasing hd u) hinc fun v => by
        rw [mem_sortIds, mem_componentOf hk, hasEdge_assembled, hmem]
        rfl
    exact ⟨u, hu, holdsCycle_sortIds.mp (heq ▸ hcycle), heq⟩

end Known

/-- The components that hold a cycle, each once and sorted, and nothing else. -/
structure CycleReport (nodes : List Element) (edges : List (Edge α)) (cycles : List (List String)) :
    Prop where
  nonempty : cycles ≠ []
  increasing : cycles.Pairwise (· < ·)
  mem_iff : ∀ c, c ∈ cycles ↔
    c.Pairwise (· < ·) ∧ IsComponent nodes edges c ∧ HoldsCycle edges c
  onCycle : ∀ c ∈ cycles, ∀ v ∈ c, Relation.TransGen (KeptStep edges) v v

theorem cycleReport_cyclicComponents (hk : (assembled nodes edges).KnownEnds)
    (hd : (assembled nodes edges).ids.Nodup) {u : String}
    (hu : (assembled nodes edges).Reaches u u) :
    CycleReport nodes edges (assembled nodes edges).cyclicComponents where
  nonempty := List.ne_nil_of_mem
    ((mem_cyclicComponents hk).mpr ⟨u, hu.source_mem hk, loops_componentOf hk hu, rfl⟩)
  increasing := cyclicComponents_increasing hk hd
  mem_iff _ := mem_cyclicComponents_iff hk hd
  onCycle _ hc _ hv := by
    obtain ⟨hinc, hcomponent, hcycle⟩ := (mem_cyclicComponents_iff hk hd).mp hc
    exact transGen_of_holdsCycle hinc hcomponent hcycle hv

/-- There is one report at most. -/
theorem CycleReport.unique {cs ds : List (List String)} (hc : CycleReport nodes edges cs)
    (hd : CycleReport nodes edges ds) : cs = ds :=
  eq_of_increasing hc.increasing hd.increasing fun c => by rw [hc.mem_iff, hd.mem_iff]

section Verdict

variable [Scalar α]

theorem ofParts_accepts_iff :
    (∃ g, ofParts nodes edges = .ok g) ↔ Acceptable nodes edges := by
  constructor
  · rintro ⟨g, hg⟩
    obtain ⟨-, h, hac⟩ := ofParts_eq_ok_iff.mp hg
    exact { toChecked := h, acyclic := fun v hv => hac v (reaches_assembled.mpr hv) }
  · intro h
    exact ⟨_, ofParts_eq_ok_iff.mpr ⟨rfl, h.toChecked, fun v hv =>
      h.acyclic v (reaches_assembled.mp hv)⟩⟩

theorem ofParts_reports_iff {cycles : List (List String)} :
    ofParts nodes edges = .error (.cycleDetected cycles) ↔
      Checked nodes edges ∧ CycleReport nodes edges cycles := by
  by_cases h : Checked nodes edges
  · have hcycles := length_topologicalOrder_iff (g := assembled nodes edges) h.distinct h.knownEnds
    rw [ofParts_of_checked h]
    constructor
    · intro he
      split at he
      · exact nomatch he
      · rename_i hfull
        obtain ⟨u, hu⟩ : ∃ u, (assembled nodes edges).Reaches u u :=
          Classical.byContradiction fun hn => hfull (hcycles.mpr fun v hv => hn ⟨v, hv⟩)
        cases he
        exact ⟨h, cycleReport_cyclicComponents h.knownEnds h.distinct hu⟩
    · rintro ⟨-, hreport⟩
      obtain ⟨c, hc⟩ := List.exists_mem_of_ne_nil _ hreport.nonempty
      obtain ⟨-, ⟨v, hv, hmem⟩, -⟩ := (hreport.mem_iff c).mp hc
      have hloop : (assembled nodes edges).Reaches v v :=
        reaches_assembled.mpr (hreport.onCycle c hc v ((hmem v).mpr ⟨hv, .refl, .refl⟩))
      have hfull : ¬ (assembled nodes edges).topologicalOrder.length = nodes.length :=
        fun hlen => hcycles.mp hlen v hloop
      rw [if_neg hfull, hreport.unique (cycleReport_cyclicComponents h.knownEnds h.distinct hloop)]
  · obtain ⟨e, he, hne⟩ := ofParts_of_not_checked h
    rw [he]
    exact ⟨fun hof => absurd (Except.error.inj hof) (hne cycles), fun hr => absurd hr.1 h⟩

/-- **Parts are accepted exactly if they pass the checks and their kept edges have no cycle; they
are refused for cycles exactly if they pass the checks and have one, and what is reported is each
component that holds a cycle.** -/
theorem ofParts_accepts_or_reports_cycles (nodes : List Element) (edges : List (Edge α)) :
    ((∃ g, ofParts nodes edges = .ok g) ↔ Acceptable nodes edges) ∧
      ∀ cycles, ofParts nodes edges = .error (.cycleDetected cycles) ↔
        Checked nodes edges ∧ CycleReport nodes edges cycles :=
  ⟨ofParts_accepts_iff, fun _ => ofParts_reports_iff⟩

/-- Two cyclic components; nothing on the way between them or behind them is reported. -/
example :
    ofParts (["e", "d", "c", "b", "a"].map fun id => Element.of id .function [])
      ([("a", "b"), ("c", "d"), ("d", "d"), ("b", "c"), ("b", "a"), ("d", "e")].map fun p =>
        (⟨p.1, p.2, .dataFlow, none⟩ : Edge Float)) =
      .error (.cycleDetected [["a", "b"], ["d"]]) := by cbv

end Verdict

end Main

end CausalGraph

end CodeCausality
