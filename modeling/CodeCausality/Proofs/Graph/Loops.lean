import CodeCausality.Proofs.Graph.Build
import CodeCausality.Proofs.Graph.Sinks

/-!
# Cycles of what is given

Pruning takes no cycle apart, so what a program is refused for can be said by the relations that
were given, whatever side effects count as pure:

* `ProgramStructure.Leads` -- edges that are given lead from one id to another;
* `mem_survivors_of_loop` -- what leads to itself is not pruned;
* `mem_cycle_iff` -- **a cycle that is reported is all that one of its elements leads to and that
  leads back to it**;
* `cycleDetected_iff` -- **a program is refused for cycles exactly if something leads to itself.**
-/

namespace CodeCausality

namespace ProgramStructure

variable {α : Type}

/-- A relation or a control dependency gives an edge from one id to the other. -/
def Gives (p : ProgramStructure α) (u v : String) : Prop := ∃ e, p.Given e ∧ e.pair = (u, v)

theorem gives_iff {p : ProgramStructure α} {u v : String} :
    p.Gives u v ↔ (u, v) ∈ p.causalEdges.map Edge.pair := by
  unfold Gives
  simp only [List.mem_map, mem_causalEdges]

instance (p : ProgramStructure α) (u v : String) : Decidable (p.Gives u v) :=
  decidable_of_iff _ gives_iff.symm

/-- One id leads to the other, along one edge that is given or several. -/
def Leads (p : ProgramStructure α) : String → String → Prop := Relation.TransGen p.Gives

/-! ## 1. What survives -/

section Survivors

variable [Scalar α] {isPure : Element → Bool} {p : ProgramStructure α} (h : p.WellGiven)
  {u v : String}

omit h in
theorem reaches_merged_iff :
    (CausalGraph.of p.elements p.merged).Reaches u v ↔ p.Leads u v := by
  have hedge : (CausalGraph.of p.elements p.merged).HasEdge = p.Gives := by
    funext u v
    rw [CausalGraph.hasEdge_iff_pair, CausalGraph.edges_of, mem_pairs_merged, Gives]
  rw [CausalGraph.reaches_iff_transGen, hedge, Leads]

include h

/-- **What leads to itself is not pruned.** -/
theorem mem_survivors_of_loop (hu : p.Leads u u) : u ∈ (p.survivors isPure).map (·.id) := by
  have hknown : u ∈ p.elements.map (·.id) := by
    obtain ⟨v, ⟨e, he, hpair⟩, -⟩ := Relation.TransGen.head'_iff.mp hu
    obtain ⟨rfl, -⟩ := Prod.mk.inj hpair
    exact (h.known_of_given he).1
  refine mem_survivors_ids.mpr ⟨hknown, fun hremoved => ?_⟩
  have honly : OnlySideEffects isPure (.of p.elements p.merged) u := mem_prune_iff.mp hremoved
  exact (honly u (.inl rfl)).2 (reaches_merged_iff.mpr hu)

theorem keptStep_remaining_iff : CausalGraph.KeptStep (p.remaining isPure) u v ↔
    (u ∈ (p.survivors isPure).map (·.id) ∧ v ∈ (p.survivors isPure).map (·.id)) ∧
      p.Gives u v := by
  have hedge : (CausalGraph.assembled (p.survivors isPure) (p.remaining isPure)).HasEdge =
      CausalGraph.KeptStep (p.remaining isPure) := CausalGraph.hasEdge_assembled
  rw [← hedge, CausalGraph.hasEdge_iff_pair]
  exact Edge.mem_pairs_canonical.trans (mem_pairs_remaining h)

theorem leads_of_kept (huv : Relation.TransGen (CausalGraph.KeptStep (p.remaining isPure)) u v) :
    p.Leads u v :=
  Relation.TransGen.mono (fun _ _ hstep => ((keptStep_remaining_iff h).mp hstep).2) _ _ huv

/-- What leads there and back does so by edges that remain. -/
theorem kept_of_leads (huv : p.Leads u v) (hvu : p.Leads v u) :
    Relation.TransGen (CausalGraph.KeptStep (p.remaining isPure)) u v := by
  have hkept {a b : String} (hab : p.Gives a b) (hba : Relation.ReflTransGen p.Gives b a) :
      CausalGraph.KeptStep (p.remaining isPure) a b := by
    have ha : p.Leads a a := .head' hab hba
    have hb : p.Leads b b := .tail' hba hab
    exact (keptStep_remaining_iff h).mpr
      ⟨⟨mem_survivors_of_loop h ha, mem_survivors_of_loop h hb⟩, hab⟩
  induction huv using Relation.TransGen.head_induction_on with
  | single hstep => exact .single (hkept hstep hvu.to_reflTransGen)
  | head hstep hrest ih =>
    exact .head (hkept hstep (hrest.trans hvu).to_reflTransGen) (ih (hvu.tail hstep))

end Survivors

/-! ## 2. What is reported -/

section Reported

variable [Scalar α] [Scalar.Ordered α] {isPure : Element → Bool} {p : ProgramStructure α}
  (h : p.WellGiven)

include h

/-- **A cycle that is reported is what one of its elements leads to and back from.** -/
theorem mem_cycle_iff {cycles : List (List String)} {c : List String}
    (hbuild : build isPure p.elements p.relations p.controls = .error (.cycleDetected cycles))
    (hc : c ∈ cycles) :
    c ≠ [] ∧ ∀ u ∈ c, ∀ v, v ∈ c ↔ p.Leads u v ∧ p.Leads v u := by
  cases refused_of_build h hbuild with
  | cycleDetected _ hreport =>
    obtain ⟨-, ⟨start, hstart, hmem⟩, -⟩ := (hreport.mem_iff c).mp hc
    refine ⟨List.ne_nil_of_mem ((hmem start).mpr ⟨hstart, .refl, .refl⟩), fun u hu v => ?_⟩
    obtain ⟨-, hto, hfrom⟩ := (hmem u).mp hu
    constructor
    · intro hv
      obtain ⟨-, hto', hfrom'⟩ := (hmem v).mp hv
      have huv := (hreport.onCycle c hc u hu).trans_left (hfrom.trans hto')
      have hvu := (hreport.onCycle c hc v hv).trans_left (hfrom'.trans hto)
      exact ⟨leads_of_kept h huv, leads_of_kept h hvu⟩
    · rintro ⟨huv, hvu⟩
      exact (hmem v).mpr ⟨mem_survivors_of_loop h (hvu.trans huv),
        hto.trans (kept_of_leads h huv hvu).to_reflTransGen,
        (kept_of_leads h hvu huv).to_reflTransGen.trans hfrom⟩

/-- **A program is refused for cycles exactly if something leads to itself.** -/
theorem cycleDetected_iff :
    (∃ cycles, build isPure p.elements p.relations p.controls = .error (.cycleDetected cycles)) ↔
      ∃ u, p.Leads u u := by
  constructor
  · rintro ⟨cycles, hbuild⟩
    cases refused_of_build h hbuild with
    | cycleDetected _ hreport =>
      obtain ⟨c, hc⟩ := List.exists_mem_of_ne_nil _ hreport.nonempty
      obtain ⟨hne, hmem⟩ := mem_cycle_iff h hbuild hc
      obtain ⟨u, hu⟩ := List.exists_mem_of_ne_nil _ hne
      exact ⟨u, ((hmem u hu u).mp hu).1⟩
  · rintro ⟨u, hu⟩
    have hsurvive : p.survivors isPure ≠ [] := by
      have hmem : u ∈ (p.survivors isPure).map (·.id) := mem_survivors_of_loop h hu
      obtain ⟨n, hn, -⟩ := List.mem_map.mp hmem
      exact List.ne_nil_of_mem hn
    have hchecked := checked_of_wellGiven h hsurvive
    have hloop : (CausalGraph.assembled (p.survivors isPure) (p.remaining isPure)).Reaches u u :=
      CausalGraph.reaches_assembled.mpr (kept_of_leads h hu hu)
    exact ⟨_, build_of_refused h
      (.cycleDetected hsurvive (CausalGraph.cycleReport_cyclicComponents hchecked.knownEnds
        hchecked.distinct hloop))⟩

end Reported

end ProgramStructure

end CodeCausality
