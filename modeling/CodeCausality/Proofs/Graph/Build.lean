import Mathlib.Data.Set.Card
import CodeCausality.Proofs.Graph.Cycles
import CodeCausality.Proofs.Graph.Prune
import CodeCausality.Proofs.Traversal

/-!
# The graph of a program

Building merges what is given, prunes it and hands the rest to `CausalGraph.ofParts`. Here is what
comes out, said by what was given:

* `ProgramStructure.Given` -- an edge that a relation or a control dependency gives;
  `WellGiven` -- distinct elements, known ends, finite weights;
* `build_eq_ok_iff` -- **a graph is built exactly if the parts are well given and what survives is
  accepted**; `build_eq_error_iff`: the three ways in which well-given parts are refused;
* `BuiltFrom` -- nodes, edges and report of a graph that was built, `builtFrom_of_build`;
* `build_of_reordered` -- in another order the same is built, up to which of two equal weights
  stands (the two zeros);
* `builds_what_is_given` -- **all of this together.**
-/

namespace CodeCausality

/-! ## 1. Graphs of the same pairs -/

section Pairs

variable {α : Type}

theorem CausalGraph.hasEdge_iff_pair {g : CausalGraph α} {u v : String} :
    g.HasEdge u v ↔ (u, v) ∈ g.edges.map Edge.pair := by
  rw [HasEdge, List.mem_map]
  exact exists_congr fun e => and_congr_right fun _ => Prod.mk.injEq .. ▸ Iff.rfl

namespace Edge

theorem mem_pairs_canonical {es : List (Edge α)} {q : String × String} :
    q ∈ (canonical es).map pair ↔ q ∈ es.map pair := by
  rw [List.mem_map, List.mem_map]
  constructor
  · rintro ⟨e, he, rfl⟩
    exact ⟨e, (mem_canonical.mp he).mem, rfl⟩
  · rintro ⟨e, he, rfl⟩
    obtain ⟨d, hd, hde⟩ := exists_isKept he
    exact ⟨d, mem_canonical.mpr hd, samePair_iff_pair_eq.mp hde⟩

/-- Sorted, the same pairs stand in the same order. -/
theorem pairs_canonical_congr {es es' : List (Edge α)}
    (h : ∀ q, q ∈ es.map pair ↔ q ∈ es'.map pair) :
    (canonical es).map pair = (canonical es').map pair := by
  let below (q r : String × String) : Prop := q.1 < r.1 ∨ (q.1 = r.1 ∧ q.2 < r.2)
  have hasymm : Std.Asymm below := ⟨fun q r hqr hrq => by
    rcases hqr with h | ⟨h, h'⟩
    · exact hrq.elim (fun k => h.asymm k) fun k => h.ne' k.1
    · exact hrq.elim (fun k => k.ne' h) fun k => h'.asymm k.2⟩
  have hsorted (es : List (Edge α)) : ((canonical es).map pair).Pairwise below :=
    List.pairwise_map.mpr (canonical_increasing es)
  exact List.Pairwise.eq_of_mem_iff (hsorted es) (hsorted es') fun {q} => by
    rw [mem_pairs_canonical, mem_pairs_canonical, h]

end Edge

theorem CausalGraph.reaches_congr {g g' : CausalGraph α}
    (h : g.edges.map Edge.pair = g'.edges.map Edge.pair) {u v : String} :
    g.Reaches u v ↔ g'.Reaches u v := by
  have hedge : g.HasEdge = g'.HasEdge := by
    funext u v
    rw [hasEdge_iff_pair, hasEdge_iff_pair, h]
  rw [reaches_iff_transGen, reaches_iff_transGen, hedge]

end Pairs

/-! ## 2. What is given -/

theorem RelationKind.edgeKind?_eq_some_iff {r : RelationKind} {k : EdgeKind} :
    r.edgeKind? = some k ↔ r = .causal k := by
  cases r with
  | causal j => exact ⟨fun h => congrArg _ (Option.some.inj h), fun h => by
      rw [RelationKind.causal.inj h]; rfl⟩
  | importing => exact iff_of_false (fun h => (nomatch h)) fun h => (nomatch h)
  | declaration => exact iff_of_false (fun h => (nomatch h)) fun h => (nomatch h)

theorem Relation.edge?_eq_some_iff {α : Type} {r : Relation α} {e : Edge α} :
    r.edge? = some e ↔ r.kind = .causal e.kind ∧ r.source = e.source ∧ r.target = e.target ∧
      r.weight = e.weight := by
  rw [Relation.edge?, Option.map_eq_some_iff]
  constructor
  · rintro ⟨k, hk, rfl⟩
    exact ⟨RelationKind.edgeKind?_eq_some_iff.mp hk, rfl, rfl, rfl⟩
  · rintro ⟨hk, hs, ht, hw⟩
    exact ⟨e.kind, RelationKind.edgeKind?_eq_some_iff.mpr hk, by rw [hs, ht, hw]⟩

/-- An import or a declaration. -/
def Relation.IsStructural {α : Type} (r : Relation α) : Prop :=
  r.kind = .importing ∨ r.kind = .declaration

instance {α : Type} : DecidablePred (Relation.IsStructural (α := α)) := fun _ =>
  inferInstanceAs (Decidable (_ ∨ _))

theorem Relation.edge?_eq_none_iff {α : Type} {r : Relation α} :
    r.edge? = none ↔ r.IsStructural := by
  rw [Relation.edge?, Option.map_eq_none_iff, IsStructural]
  cases r.kind with
  | causal k => exact iff_of_false (fun h => (nomatch h)) fun h => (nomatch h)
  | importing => exact iff_of_true rfl (.inl rfl)
  | declaration => exact iff_of_true rfl (.inr rfl)

/-- Imports and declarations are counted, and nothing else is counted with them. -/
theorem Folding.nonCausal_ofRelations {α : Type} [Scalar α] (rs : List (Relation α)) :
    (ofRelations rs).nonCausal = rs.countP fun r => decide r.IsStructural := by
  induction rs using List.reverseRecOn with
  | nil => rfl
  | append_singleton rs r ih =>
    rw [ofRelations_concat, List.countP_append, List.countP_singleton, ← ih, add]
    cases he : r.edge? with
    | none => rw [if_pos (decide_eq_true (Relation.edge?_eq_none_iff.mp he))]
    | some e =>
      have hcausal : ¬ r.IsStructural := fun h =>
        Option.some_ne_none e (he.symm.trans (Relation.edge?_eq_none_iff.mpr h))
      rw [if_neg fun h => hcausal (of_decide_eq_true h)]
      rfl

namespace ProgramStructure

variable {α : Type}

/-- All relations; a control dependency is one of them. -/
def supplied (p : ProgramStructure α) : List (Relation α) :=
  p.relations ++ p.controls.map Relation.ofControl

/-- The edges that relations and control dependencies give. Imports and declarations give none. -/
inductive Given (p : ProgramStructure α) : Edge α → Prop
  | relation {r : Relation α} {k : EdgeKind} (h : r ∈ p.relations) (hk : r.kind = .causal k) :
      Given p ⟨r.source, r.target, k, r.weight⟩
  | control {c : ControlDependency} (h : c ∈ p.controls) :
      Given p ⟨c.condition, c.dependent, .controlFlow, none⟩

/-- The causal relations as edges, in the order given. -/
def causalEdges (p : ProgramStructure α) : List (Edge α) := p.supplied.filterMap Relation.edge?

theorem mem_causalEdges {p : ProgramStructure α} {e : Edge α} : e ∈ p.causalEdges ↔ p.Given e := by
  rw [causalEdges, List.mem_filterMap]
  constructor
  · rintro ⟨r, hr, he⟩
    obtain ⟨hk, hs, ht, hw⟩ := Relation.edge?_eq_some_iff.mp he
    rcases List.mem_append.mp hr with hr | hr
    · have hgiven := Given.relation hr hk
      rwa [hs, ht, hw] at hgiven
    · obtain ⟨c, hc, rfl⟩ := List.mem_map.mp hr
      have heq : e = ⟨c.condition, c.dependent, .controlFlow, none⟩ := by
        obtain ⟨s, t, k, w⟩ := e
        obtain rfl := RelationKind.causal.inj hk
        obtain rfl : c.condition = s := hs
        obtain rfl : c.dependent = t := ht
        obtain rfl : none = w := hw
        rfl
      rw [heq]
      exact .control hc
  · intro h
    cases h with
    | relation hr hk =>
      exact ⟨_, List.mem_append_left _ hr, Relation.edge?_eq_some_iff.mpr ⟨hk, rfl, rfl, rfl⟩⟩
    | control hc => exact ⟨_, List.mem_append_right _ (List.mem_map_of_mem hc), rfl⟩

/-- Distinct elements, known ends of all relations, finite weights. -/
structure WellGiven [Scalar α] (p : ProgramStructure α) : Prop where
  distinct : (p.elements.map (·.id)).Nodup
  known : ∀ r ∈ p.supplied,
    r.source ∈ p.elements.map (·.id) ∧ r.target ∈ p.elements.map (·.id)
  finite : ∀ r ∈ p.supplied, ∀ w, r.weight = some w → Scalar.isFinite w = true

theorem exists_supplied_of_given {p : ProgramStructure α} {e : Edge α} (h : p.Given e) :
    ∃ r ∈ p.supplied, r.source = e.source ∧ r.target = e.target ∧ r.weight = e.weight := by
  obtain ⟨r, hr, he⟩ := List.mem_filterMap.mp (mem_causalEdges.mpr h)
  exact ⟨r, hr, (Relation.edge?_eq_some_iff.mp he).2⟩

section WellGiven

variable [Scalar α] {p : ProgramStructure α} (h : p.WellGiven)

include h

theorem WellGiven.known_of_given {e : Edge α} (he : p.Given e) :
    e.source ∈ p.elements.map (·.id) ∧ e.target ∈ p.elements.map (·.id) := by
  obtain ⟨r, hr, hs, ht, -⟩ := exists_supplied_of_given he
  exact hs ▸ ht ▸ h.known r hr

theorem WellGiven.finiteWeights : Edge.FiniteWeights p.Given := by
  intro e he w hw
  obtain ⟨r, hr, -, -, hrw⟩ := exists_supplied_of_given he
  exact h.finite r hr w (hrw.trans hw)

end WellGiven

/-! ## 3. What is left of it -/

section Parts

variable [Scalar α] (isPure : Element → Bool) (p : ProgramStructure α)

/-- The relations folded into edges. -/
def folding : Folding α := Folding.ofRelations p.supplied

/-- One edge a pair. -/
def merged : List (Edge α) := p.folding.edges

/-- The pruned elements. -/
def removed : List String := prune isPure p.elements p.merged

/-- The elements that are not pruned. -/
def survivors : List Element := p.elements.filter fun n => !(p.removed isPure).contains n.id

/-- The edges to survivors. -/
def remaining : List (Edge α) := p.merged.filter fun e => !(p.removed isPure).contains e.target

def report : BuildReport where
  merged := p.folding.merged
  nonCausal := p.folding.nonCausal
  pruned := sortIds (p.removed isPure)

variable {isPure p}

theorem merged_eq_mergeAll : p.merged = Edge.mergeAll p.causalEdges := Folding.edges_ofRelations _

theorem mem_pairs_merged {q : String × String} :
    q ∈ p.merged.map Edge.pair ↔ ∃ e, p.Given e ∧ e.pair = q := by
  rw [merged_eq_mergeAll, (Edge.pairs_mergeAll _).2, List.mem_map]
  exact exists_congr fun e => and_congr_left fun _ => mem_causalEdges

theorem sumsUp_of_mem_merged [Scalar.Ordered α] (h : p.WellGiven) {d : Edge α}
    (hd : d ∈ p.merged) : d.SumsUp p.Given := by
  have hfin : Edge.FiniteWeights (· ∈ p.causalEdges) := fun e he =>
    h.finiteWeights e (mem_causalEdges.mp he)
  rw [merged_eq_mergeAll] at hd
  exact (Edge.sumsUp_of_mem_mergeAll hfin hd).congr fun _ => mem_causalEdges

/-- An edge of what is built sums up what was given for its pair. -/
theorem sumsUp_of_mem_canonical [Scalar.Ordered α] (h : p.WellGiven) {d : Edge α}
    (hd : d ∈ Edge.canonical (p.remaining isPure)) : d.SumsUp p.Given := by
  have hkept : d ∈ p.remaining isPure := (Edge.mem_canonical.mp hd).mem
  exact sumsUp_of_mem_merged h (List.mem_filter.mp hkept).1

theorem mem_survivors_ids {id : String} :
    id ∈ (p.survivors isPure).map (·.id) ↔
      id ∈ p.elements.map (·.id) ∧ id ∉ p.removed isPure := by
  simp only [survivors, List.mem_map, List.mem_filter, Bool.not_eq_true', ← Bool.not_eq_true,
    List.contains_iff_mem]
  constructor
  · rintro ⟨n, ⟨hn, hnot⟩, rfl⟩
    exact ⟨⟨n, hn, rfl⟩, hnot⟩
  · rintro ⟨⟨n, hn, rfl⟩, hnot⟩
    exact ⟨n, ⟨hn, hnot⟩, rfl⟩

theorem mem_remaining {e : Edge α} :
    e ∈ p.remaining isPure ↔ e ∈ p.merged ∧ e.target ∉ p.removed isPure := by
  rw [remaining, List.mem_filter, Bool.not_eq_true', ← Bool.not_eq_true, List.contains_iff_mem]

/-- **An edge to a survivor comes from a survivor**: else its target would be removed too. -/
theorem ends_of_mem_remaining (h : p.WellGiven) {e : Edge α} (he : e ∈ p.remaining isPure) :
    e.source ∈ (p.survivors isPure).map (·.id) ∧
      e.target ∈ (p.survivors isPure).map (·.id) := by
  obtain ⟨hmem, htarget⟩ := mem_remaining.mp he
  have hsource : e.source ∉ p.removed isPure := fun hs =>
    htarget (effectsRemoved_prune e hmem hs)
  obtain ⟨d, hd, hde⟩ := mem_pairs_merged.mp (List.mem_map_of_mem hmem)
  obtain ⟨hs, ht⟩ := Edge.pair_eq_iff.mp hde
  obtain ⟨hks, hkt⟩ := h.known_of_given hd
  exact ⟨mem_survivors_ids.mpr ⟨hs ▸ hks, hsource⟩, mem_survivors_ids.mpr ⟨ht ▸ hkt, htarget⟩⟩

/-- The pairs that remain are those given between survivors. -/
theorem mem_pairs_remaining (h : p.WellGiven) {s t : String} :
    (s, t) ∈ (p.remaining isPure).map Edge.pair ↔
      (s ∈ (p.survivors isPure).map (·.id) ∧ t ∈ (p.survivors isPure).map (·.id)) ∧
        ∃ e, p.Given e ∧ e.pair = (s, t) := by
  rw [← mem_pairs_merged]
  constructor
  · intro hst
    obtain ⟨e, he, hst⟩ := List.mem_map.mp hst
    obtain ⟨rfl, rfl⟩ := Prod.mk.inj hst
    exact ⟨ends_of_mem_remaining h he, List.mem_map_of_mem (mem_remaining.mp he).1⟩
  · intro hst
    obtain ⟨⟨-, ht⟩, hpair⟩ := hst
    obtain ⟨e, he, hst⟩ := List.mem_map.mp hpair
    obtain ⟨rfl, rfl⟩ := Prod.mk.inj hst
    exact List.mem_map_of_mem (mem_remaining.mpr ⟨he, (mem_survivors_ids.mp ht).2⟩)

theorem survivors_eq_nil_iff :
    p.survivors isPure = [] ↔ ∀ n ∈ p.elements, n.id ∈ p.removed isPure := by
  rw [survivors, List.filter_eq_nil_iff]
  refine forall₂_congr fun n _ => ?_
  rw [Bool.not_eq_true', Bool.not_eq_false, List.contains_iff_mem]

theorem elements_ne_nil (h : p.survivors isPure ≠ []) : p.elements ≠ [] := by
  intro hnil
  refine h (survivors_eq_nil_iff.mpr fun n hn => ?_)
  rw [hnil] at hn
  exact absurd hn List.not_mem_nil

/-- **What survives passes the checks.** -/
theorem checked_of_wellGiven [Scalar.Ordered α] (h : p.WellGiven)
    (hne : p.survivors isPure ≠ []) :
    CausalGraph.Checked (p.survivors isPure) (p.remaining isPure) where
  nonempty := hne
  distinct := h.distinct.sublist (List.filter_sublist.map _)
  known _ he := ends_of_mem_remaining h he.mem
  finite _ he _ := (sumsUp_of_mem_merged h (mem_remaining.mp he.mem).1).isFinite h.finiteWeights

end Parts

/-! ## 4. What is built -/

section Build

variable [Scalar α] {isPure : Element → Bool} {p : ProgramStructure α}

theorem wellGiven_iff : p.WellGiven ↔
    firstRepeated? [] (p.elements.map (·.id)) = none ∧
      checkAll (fun r => Edge.check (fun id => p.elements.any fun n => n.id == id) r.source r.target
        r.weight) p.supplied = .ok () := by
  have hknown {id : String} :
      (p.elements.any fun n => n.id == id) = true ↔ id ∈ p.elements.map (·.id) := by
    rw [List.any_eq_true, List.mem_map]
    exact exists_congr fun n => and_congr_right fun _ => beq_iff_eq
  rw [firstRepeated?_eq_none_iff, checkAll_eq_ok_iff]
  constructor
  · intro h
    refine ⟨⟨h.distinct, fun _ _ => List.not_mem_nil⟩, fun r hr => Edge.check_eq_ok_iff.mpr ?_⟩
    exact ⟨⟨hknown.mpr (h.known r hr).1, hknown.mpr (h.known r hr).2⟩, h.finite r hr⟩
  · rintro ⟨⟨hdistinct, -⟩, hchecks⟩
    have hr (r : Relation α) (hr : r ∈ p.supplied) := Edge.check_eq_ok_iff.mp (hchecks r hr)
    exact {
      distinct := hdistinct
      known := fun r hmem => ⟨hknown.mp (hr r hmem).1.1, hknown.mp (hr r hmem).1.2⟩
      finite := fun r hmem => (hr r hmem).2 }

/-- **Well-given parts are merged, pruned and handed on.** -/
theorem build_of_wellGiven (h : p.WellGiven) (hne : p.elements ≠ []) :
    build isPure p.elements p.relations p.controls =
      if (p.survivors isPure).isEmpty then .error .emptyAfterPruning
      else (CausalGraph.ofParts (p.survivors isPure) (p.remaining isPure)).map
        fun g => (g, p.report isPure) := by
  obtain ⟨hdistinct, hchecks⟩ := wellGiven_iff.mp h
  rw [build, if_neg fun he => hne (List.isEmpty_iff.mp he), hdistinct]
  simp only [supplied] at hchecks ⊢
  rw [hchecks]
  rfl

/-- What is built comes of well-given parts. -/
theorem wellGiven_of_build {x : CausalGraph α × BuildReport}
    (hx : build isPure p.elements p.relations p.controls = .ok x) :
    p.elements ≠ [] ∧ p.WellGiven := by
  unfold build at hx
  split at hx
  · cases hx
  · rename_i hne
    refine ⟨fun he => hne (List.isEmpty_iff.mpr he), ?_⟩
    split at hx
    · cases hx
    · rename_i hdistinct
      dsimp only at hx
      split at hx
      · cases hx
      · rename_i hchecks
        exact wellGiven_iff.mpr ⟨hdistinct, hchecks⟩

/-- **A graph is built exactly if the parts are well given and what survives is accepted.** -/
theorem build_eq_ok_iff {g : CausalGraph α} {r : BuildReport} :
    build isPure p.elements p.relations p.controls = .ok (g, r) ↔
      p.WellGiven ∧ CausalGraph.ofParts (p.survivors isPure) (p.remaining isPure) = .ok g ∧
        r = p.report isPure := by
  constructor
  · intro hg
    obtain ⟨hne, h⟩ := wellGiven_of_build hg
    rw [build_of_wellGiven h hne] at hg
    split at hg
    · cases hg
    · obtain ⟨g', hg', heq⟩ := map_eq_ok_iff.mp hg
      obtain ⟨rfl, rfl⟩ := Prod.mk.inj heq
      exact ⟨h, hg', rfl⟩
  · rintro ⟨h, hg, rfl⟩
    have hsurvive : p.survivors isPure ≠ [] := (CausalGraph.ofParts_eq_ok_iff.mp hg).2.1.nonempty
    rw [build_of_wellGiven h (elements_ne_nil hsurvive),
      if_neg fun he => hsurvive (List.isEmpty_iff.mp he), hg]
    rfl

/-- Why well-given parts make no graph: there are no elements, all of them are pruned, or those
that survive have a cycle. -/
inductive Refused (isPure : Element → Bool) (p : ProgramStructure α) : GraphError α → Prop
  | emptyInput (h : p.elements = []) : Refused isPure p .emptyInput
  | emptyAfterPruning (hne : p.elements ≠ []) (h : ∀ n ∈ p.elements, n.id ∈ p.removed isPure) :
      Refused isPure p .emptyAfterPruning
  | cycleDetected {cycles : List (List String)} (hne : p.survivors isPure ≠ [])
      (h : CausalGraph.CycleReport (p.survivors isPure) (p.remaining isPure) cycles) :
      Refused isPure p (.cycleDetected cycles)

theorem build_of_refused [Scalar.Ordered α] (h : p.WellGiven) {e : GraphError α}
    (he : Refused isPure p e) :
    build isPure p.elements p.relations p.controls = .error e := by
  cases he with
  | emptyInput hnil => rw [build, if_pos (List.isEmpty_iff.mpr hnil)]
  | emptyAfterPruning hne hall =>
    have hnone : p.survivors isPure = [] := survivors_eq_nil_iff.mpr hall
    rw [build_of_wellGiven h hne, if_pos (List.isEmpty_iff.mpr hnone)]
  | cycleDetected hsurvive hreport =>
    rw [build_of_wellGiven h (elements_ne_nil hsurvive),
      if_neg fun he => hsurvive (List.isEmpty_iff.mp he), map_eq_error_iff]
    exact CausalGraph.ofParts_reports_iff.mpr ⟨checked_of_wellGiven h hsurvive, hreport⟩

theorem refused_of_build [Scalar.Ordered α] (h : p.WellGiven) {e : GraphError α}
    (he : build isPure p.elements p.relations p.controls = .error e) : Refused isPure p e := by
  by_cases hne : p.elements = []
  · rw [build, if_pos (List.isEmpty_iff.mpr hne)] at he
    cases he
    exact .emptyInput hne
  · rw [build_of_wellGiven h hne] at he
    split at he
    · rename_i hnone
      cases he
      exact .emptyAfterPruning hne (survivors_eq_nil_iff.mp (List.isEmpty_iff.mp hnone))
    · rename_i hsome
      have hsurvive : p.survivors isPure ≠ [] := fun hnil => hsome (List.isEmpty_iff.mpr hnil)
      have hparts := map_eq_error_iff.mp he
      -- parts that pass the checks can only be refused for their cycles
      have hcycles : ∃ cycles, e = .cycleDetected cycles := by
        rw [CausalGraph.ofParts_of_checked (checked_of_wellGiven h hsurvive)] at hparts
        split at hparts
        · cases hparts
        · exact ⟨_, (Except.error.inj hparts).symm⟩
      obtain ⟨cycles, rfl⟩ := hcycles
      exact .cycleDetected hsurvive (CausalGraph.ofParts_reports_iff.mp hparts).2

/-- **Well-given parts are refused for these reasons only, and whenever one of them holds.** -/
theorem build_eq_error_iff [Scalar.Ordered α] (h : p.WellGiven) {e : GraphError α} :
    build isPure p.elements p.relations p.controls = .error e ↔ Refused isPure p e :=
  ⟨refused_of_build h, build_of_refused h⟩

end Build

/-! ## 5. What a graph that was built holds -/

/-- Nodes, edges and report of a graph that was built. -/
structure BuiltFrom [Scalar α] (p : ProgramStructure α) (g : CausalGraph α) (r : BuildReport) :
    Prop where
  nodes : g.nodes = p.elements.filter fun n => !r.pruned.contains n.id
  oneAPair : (g.edges.map Edge.pair).Nodup
  hasEdge_iff : ∀ s t, g.HasEdge s t ↔
    (s ∈ g.ids ∧ t ∈ g.ids) ∧ ∃ e, p.Given e ∧ e.source = s ∧ e.target = t
  sumsUp : ∀ d ∈ g.edges, d.SumsUp p.Given
  nonCausal : r.nonCausal = p.relations.countP fun r => decide r.IsStructural
  counted : p.relations.length + p.controls.length =
    r.nonCausal + r.merged + {q | ∃ e, p.Given e ∧ e.pair = q}.ncard

section BuiltFrom

variable [Scalar α] {isPure : Element → Bool} {p : ProgramStructure α}

omit [Scalar α] in
theorem countP_supplied : p.supplied.countP (fun r => decide r.IsStructural) =
    p.relations.countP fun r => decide r.IsStructural := by
  have hcontrols : (p.controls.map (Relation.ofControl (α := α))).countP
      (fun r => decide r.IsStructural) = 0 := by
    refine List.countP_eq_zero.mpr fun r hr => ?_
    obtain ⟨c, -, rfl⟩ := List.mem_map.mp hr
    exact fun h => (of_decide_eq_true h).elim (fun h => (nomatch h)) fun h => (nomatch h)
  rw [supplied, List.countP_append, hcontrols, Nat.add_zero]

/-- As many edges are merged as there are causal pairs. -/
theorem length_merged : p.merged.length = {q | ∃ e, p.Given e ∧ e.pair = q}.ncard := by
  have hset : {q | ∃ e, p.Given e ∧ e.pair = q} = (↑(p.merged.map Edge.pair).toFinset : Set _) := by
    ext q
    rw [Finset.mem_coe, List.mem_toFinset, mem_pairs_merged]
    rfl
  have hnd : (p.merged.map Edge.pair).Nodup :=
    merged_eq_mergeAll (p := p) ▸ (Edge.pairs_mergeAll _).1
  rw [hset, Set.ncard_coe_finset, List.toFinset_card_of_nodup hnd, List.length_map]

theorem report_counted : (p.report isPure).nonCausal =
      p.relations.countP (fun r => decide r.IsStructural) ∧
    p.relations.length + p.controls.length = (p.report isPure).nonCausal +
      (p.report isPure).merged + {q | ∃ e, p.Given e ∧ e.pair = q}.ncard := by
  have hall : p.supplied.length = p.relations.length + p.controls.length := by
    rw [supplied, List.length_append, List.length_map]
  refine ⟨?_, ?_⟩
  · rw [← countP_supplied]
    exact Folding.nonCausal_ofRelations _
  · rw [← length_merged, ← hall]
    exact (Folding.counted _).symm

/-- **What a graph that was built holds.** -/
theorem builtFrom_of_build [Scalar.Ordered α] {g : CausalGraph α} {r : BuildReport}
    (hg : build isPure p.elements p.relations p.controls = .ok (g, r)) : p.BuiltFrom g r := by
  obtain ⟨h, hparts, rfl⟩ := build_eq_ok_iff.mp hg
  have hids : g.ids = (p.survivors isPure).map (·.id) := CausalGraph.ids_of_ofParts hparts
  obtain ⟨rfl, -, -⟩ := CausalGraph.ofParts_eq_ok_iff.mp hparts
  refine ⟨?_, ?_, ?_, ?_, report_counted.1, report_counted.2⟩
  · refine List.filter_congr fun n _ => ?_
    rw [Bool.not_inj_iff, Bool.eq_iff_iff, List.contains_iff_mem, List.contains_iff_mem]
    exact mem_sortIds.symm
  · refine List.pairwise_map.mpr ((Edge.canonical_increasing _).imp fun hlt heq => ?_)
    exact hlt.not_samePair (Edge.samePair_iff_pair_eq.mpr heq)
  · intro s t
    rw [CausalGraph.hasEdge_of_ofParts hparts, hids]
    have hpairs : (s, t) ∈ (p.remaining isPure).map Edge.pair ↔ _ := mem_pairs_remaining h
    simp only [List.mem_map, Edge.pair, Prod.mk.injEq] at hpairs ⊢
    exact hpairs
  · exact fun d hd => sumsUp_of_mem_canonical h hd

end BuiltFrom

/-! ## 6. The order of what is given -/

section Order

variable [Scalar α] {isPure : Element → Bool} {p q : ProgramStructure α}

/-- The same elements, and the same relations in any order. -/
structure Reordered (p q : ProgramStructure α) : Prop where
  elements : p.elements = q.elements
  supplied : p.supplied.Perm q.supplied

section Reordered

variable (h : p.Reordered q)

include h

omit [Scalar α] in
theorem Reordered.causalEdges : p.causalEdges.Perm q.causalEdges :=
  h.supplied.filterMap _

omit [Scalar α] in
theorem Reordered.given_iff (e : Edge α) : p.Given e ↔ q.Given e := by
  rw [← mem_causalEdges, ← mem_causalEdges]
  exact h.causalEdges.mem_iff

theorem Reordered.wellGiven (hp : p.WellGiven) : q.WellGiven where
  distinct := h.elements ▸ hp.distinct
  known r hr := h.elements ▸ hp.known r (h.supplied.mem_iff.mpr hr)
  finite r hr := hp.finite r (h.supplied.mem_iff.mpr hr)

theorem Reordered.pairs_merged (x : String × String) :
    x ∈ p.merged.map Edge.pair ↔ x ∈ q.merged.map Edge.pair := by
  rw [mem_pairs_merged, mem_pairs_merged]
  exact exists_congr fun e => and_congr_left fun _ => h.given_iff e

theorem Reordered.removed : p.removed isPure = q.removed isPure := by
  rw [ProgramStructure.removed, ProgramStructure.removed, h.elements]
  exact prune_congr h.pairs_merged

theorem Reordered.survivors : p.survivors isPure = q.survivors isPure := by
  rw [ProgramStructure.survivors, ProgramStructure.survivors, h.elements, h.removed]

theorem Reordered.report : p.report isPure = q.report isPure := by
  have hedges : p.merged.length = q.merged.length := by
    rw [length_merged, length_merged]
    simp only [h.given_iff]
  have hnonCausal : p.folding.nonCausal = q.folding.nonCausal :=
    (Folding.nonCausal_ofRelations _).trans
      ((h.supplied.countP_eq _).trans (Folding.nonCausal_ofRelations _).symm)
  have hmerged : p.folding.merged = q.folding.merged := by
    have hp : p.folding.nonCausal + p.folding.merged + p.merged.length = p.supplied.length :=
      Folding.counted _
    have hq : q.folding.nonCausal + q.folding.merged + q.merged.length = q.supplied.length :=
      Folding.counted _
    have hlength := h.supplied.length_eq
    omega
  rw [ProgramStructure.report, ProgramStructure.report, hmerged, hnonCausal, h.removed]

theorem Reordered.pairs_remaining (hp : p.WellGiven) (x : String × String) :
    x ∈ (p.remaining isPure).map Edge.pair ↔ x ∈ (q.remaining isPure).map Edge.pair := by
  obtain ⟨s, t⟩ := x
  rw [mem_pairs_remaining hp, mem_pairs_remaining (h.wellGiven hp), h.survivors]
  simp only [h.given_iff]

/-- **In another order the same is built**: the same nodes, the same report, and edges that agree
one by one. -/
theorem build_of_reordered [Scalar.Ordered α] {g : CausalGraph α} {r : BuildReport}
    (hg : build isPure p.elements p.relations p.controls = .ok (g, r)) :
    ∃ g', build isPure q.elements q.relations q.controls = .ok (g', r) ∧ g.nodes = g'.nodes ∧
      List.Forall₂ Edge.Agrees g.edges g'.edges := by
  obtain ⟨hp, hparts, rfl⟩ := build_eq_ok_iff.mp hg
  obtain ⟨rfl, hchecked, hac⟩ := CausalGraph.ofParts_eq_ok_iff.mp hparts
  have hq : q.WellGiven := h.wellGiven hp
  have hpairs : (Edge.canonical (p.remaining isPure)).map Edge.pair =
      (Edge.canonical (q.remaining isPure)).map Edge.pair :=
    Edge.pairs_canonical_congr (h.pairs_remaining hp)
  have hqparts : CausalGraph.ofParts (q.survivors isPure) (q.remaining isPure) =
      .ok (CausalGraph.assembled (q.survivors isPure) (q.remaining isPure)) := by
    refine CausalGraph.ofParts_eq_ok_iff.mpr ⟨rfl, ?_, fun v hv => ?_⟩
    · exact checked_of_wellGiven hq (h.survivors ▸ hchecked.nonempty)
    · exact hac v ((CausalGraph.reaches_congr hpairs).mpr hv)
  refine ⟨_, build_eq_ok_iff.mpr ⟨hq, hqparts, h.report⟩, h.survivors, ?_⟩
  refine forall₂_of_map_eq_map hpairs fun d hd e he hde => ?_
  have he : e.SumsUp p.Given :=
    (sumsUp_of_mem_canonical hq he).congr fun x => (h.given_iff x).symm
  exact (sumsUp_of_mem_canonical hp hd).agrees hp.finiteWeights he hde

end Reordered

end Order

/-! ## 7. Two programs -/

/-- The side effects that are pruned by default. -/
def pureByDefault : Element → Bool := SideEffect.isPure SideEffect.defaultPatterns

/-- A pair given by three relations and a control dependency, an import, and a message. -/
def greeting : ProgramStructure Float where
  elements := [.of "main" .function [], .of "println!@3" .effect [],
    .of "name" .namedValue [("file", "main.rs")]]
  relations := [⟨"name", "main", .causal .dataFlow, some 2⟩, ⟨"main", "name", .importing, none⟩,
    ⟨"name", "main", .causal .call, none⟩, ⟨"main", "println!@3", .causal .call, none⟩,
    ⟨"name", "main", .causal .controlFlow, some 3⟩]
  controls := [⟨"name", "main"⟩]

/-- The relations in reverse order. -/
def greetingReversed : ProgramStructure Float :=
  { greeting with relations := greeting.relations.reverse }

def greetingGraph : CausalGraph Float :=
  .of [.of "main" .function [], .of "name" .namedValue [("file", "main.rs")]]
    [⟨"name", "main", .call, some 3⟩]

/-- Three relations of the pair are folded into the first, the import is no edge, and the message is
pruned. -/
theorem build_greeting : build pureByDefault greeting.elements greeting.relations
    greeting.controls = .ok (greetingGraph, ⟨3, 1, ["println!@3"]⟩) := by
  have hgiven : greeting.WellGiven := wellGiven_iff.mpr ⟨by decide, by rfl⟩
  have hremaining : greeting.remaining pureByDefault = greetingGraph.edges := by rfl
  have hcanonical : Edge.canonical greetingGraph.edges = greetingGraph.edges :=
    Edge.canonical_of_increasing (List.pairwise_singleton _ _)
  have hgraph : CausalGraph.assembled (greeting.survivors pureByDefault)
      (greeting.remaining pureByDefault) = greetingGraph := by
    rw [CausalGraph.assembled, hremaining, hcanonical]
    exact CausalGraph.ext (by rfl) (by rfl)
  have hsurvive : greeting.survivors pureByDefault ≠ [] := by decide
  have hparts := CausalGraph.ofParts_of_checked (checked_of_wellGiven hgiven hsurvive)
  rw [hgraph, if_pos (by rfl)] at hparts
  have hreport : greeting.report pureByDefault = ⟨3, 1, sortIds ["println!@3"]⟩ := by rfl
  rw [sortIds, List.mergeSort_singleton] at hreport
  exact build_eq_ok_iff.mpr ⟨hgiven, hparts, hreport.symm⟩

/-- A function that calls itself. -/
def recursion : ProgramStructure Float where
  elements := [.of "main" .function []]
  relations := [⟨"main", "main", .causal .call, none⟩]
  controls := []

/-! ## 8. Building -/

/-- **What is built is what was given, in any order of the relations**; and well-given parts are
refused only where there is nothing, where all of it is pruned, or where what survives has a
cycle. -/
theorem builds_what_is_given [Scalar α] [Scalar.Ordered α] (isPure : Element → Bool)
    (p : ProgramStructure α) :
    (∀ g r, build isPure p.elements p.relations p.controls = .ok (g, r) →
      p.BuiltFrom g r ∧ ∀ q, p.Reordered q →
        ∃ g', build isPure q.elements q.relations q.controls = .ok (g', r) ∧
          g.nodes = g'.nodes ∧ List.Forall₂ Edge.Agrees g.edges g'.edges) ∧
      (p.WellGiven → ∀ e, build isPure p.elements p.relations p.controls = .error e ↔
        Refused isPure p e) :=
  ⟨fun _ _ hg => ⟨builtFrom_of_build hg, fun _ h => build_of_reordered h hg⟩,
    fun h _ => build_eq_error_iff h⟩

theorem builds_what_is_given_greeting :
    (greeting.BuiltFrom greetingGraph ⟨3, 1, ["println!@3"]⟩ ∧
      ∃ g', build pureByDefault greetingReversed.elements greetingReversed.relations
          greetingReversed.controls = .ok (g', ⟨3, 1, ["println!@3"]⟩) ∧
        greetingGraph.nodes = g'.nodes ∧
        List.Forall₂ Edge.Agrees greetingGraph.edges g'.edges) ∧
      Refused (fun _ => false) recursion (.cycleDetected [["main"]]) := by
  have hreversed : greeting.Reordered greetingReversed :=
    ⟨rfl, (List.reverse_perm _).symm.append_right _⟩
  have hgiven : recursion.WellGiven := wellGiven_iff.mpr ⟨by decide, by rfl⟩
  have herror : build (fun _ => false) recursion.elements recursion.relations
      recursion.controls = .error (.cycleDetected [["main"]]) := by cbv
  obtain ⟨hbuilt, horder⟩ := (builds_what_is_given _ greeting).1 _ _ build_greeting
  exact ⟨⟨hbuilt, horder _ hreversed⟩, ((builds_what_is_given _ recursion).2 hgiven _).mp herror⟩

end ProgramStructure

end CodeCausality
