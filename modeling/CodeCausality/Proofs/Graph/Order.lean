import Mathlib.Data.Set.Finite.List
import Mathlib.Order.WellFounded
import CodeCausality.Proofs.Graph.Reach

/-!
# The topological order

What taking ready nodes leaves, and in which order it takes them:

* `Taken` -- the state of the nodes after taking: those taken and those left are the pending ones,
  no node is taken before a pending cause of it, and each node left has a cause that is left too;
* `takeReady_taken` -- enough steps end in such a state;
* `length_topologicalOrder_iff` -- **the order is complete exactly if no node reaches itself**: what
  is left would contain a cycle, and along a complete order walks only go forward;
* `idxOf_lt_of_reaches` -- in a graph without cycles causes stand before their effects.
-/

namespace CodeCausality

/-- Going on and on within a finite set runs in a cycle. -/
theorem exists_cycle_of_successors {R : String → String → Prop} {S : Set String} (hfin : S.Finite)
    (hne : S.Nonempty) (h : ∀ u ∈ S, ∃ v ∈ S, R u v) : ∃ v ∈ S, Relation.TransGen R v v := by
  refine Classical.byContradiction fun hac => ?_
  let below (a b : S) : Prop := Relation.TransGen R b.1 a.1
  have htrans : IsTrans _ below := ⟨fun _ _ _ hab hbc => hbc.trans hab⟩
  have hirrefl : Std.Irrefl below := ⟨fun a ha => hac ⟨a.1, a.2, ha⟩⟩
  have hfinite : Finite S := hfin.to_subtype
  have hwf : WellFounded below := Finite.wellFounded_of_trans_of_irrefl below
  obtain ⟨a, ha⟩ := hne
  -- a least member has a successor in the set, which is less
  obtain ⟨m, -, hmin⟩ := hwf.has_min Set.univ ⟨⟨a, ha⟩, trivial⟩
  obtain ⟨v, hv, hmv⟩ := h m.1 m.2
  exact hmin ⟨v, hv⟩ trivial (.single hmv)

namespace CausalGraph

variable {α : Type} {g : CausalGraph α}

/-! ## 1. Taking ready nodes -/

theorem isReady_iff {pending : List String} {id : String} :
    g.isReady pending id = true ↔ ∀ s ∈ pending, ¬ g.HasEdge s id := by
  rw [isReady, Bool.not_eq_true', List.any_eq_false]
  constructor
  · rintro h s hs ⟨e, he, rfl, rfl⟩
    refine h e he ?_
    rw [beq_self_eq_true, Bool.true_and]
    exact List.contains_iff_mem.mpr hs
  · intro h e he ht
    rw [Bool.and_eq_true, beq_iff_eq, List.contains_iff_mem] at ht
    exact h _ ht.2 ⟨e, he, rfl, ht.1⟩

/-- The nodes taken in order, and the nodes that are left. -/
structure Taken (g : CausalGraph α) (pending order rest : List String) : Prop where
  perm : (order ++ rest).Perm pending
  before : ∀ pre t post, order = pre ++ t :: post → ∀ s ∈ pending, g.HasEdge s t → s ∈ pre
  stuck : ∀ t ∈ rest, ∃ s ∈ rest, g.HasEdge s t

/-- One step: a ready node comes first, then what is taken of the others. -/
theorem Taken.cons {pending order rest : List String} {id : String} (hid : id ∈ pending)
    (hready : g.isReady pending id = true) (h : Taken g (pending.erase id) order rest) :
    Taken g pending (id :: order) rest where
  perm := (h.perm.cons id).trans (List.perm_cons_erase hid).symm
  before := by
    intro pre t post heq s hs hst
    cases pre with
    | nil =>
      obtain ⟨rfl, -⟩ := List.cons.inj heq
      exact absurd hst (isReady_iff.mp hready s hs)
    | cons a pre =>
      obtain ⟨rfl, hpre⟩ := List.cons.inj heq
      by_cases hsa : s = id
      · exact hsa ▸ List.mem_cons_self
      · have hs' : s ∈ pending.erase id := (List.mem_erase_of_ne hsa).mpr hs
        exact List.mem_cons_of_mem _ (h.before pre t post hpre s hs' hst)
  stuck := h.stuck

/-- **As many steps as there are pending nodes take all that can be taken.** -/
theorem takeReady_taken {steps : Nat} {pending : List String} (hnd : pending.Nodup)
    (hlen : pending.length ≤ steps) : ∃ rest, Taken g pending (g.takeReady steps pending) rest := by
  induction steps generalizing pending with
  | zero =>
    rw [List.length_eq_zero_iff.mp (Nat.le_zero.mp hlen)]
    exact ⟨[], List.Perm.refl _, fun pre t post h => by simp [takeReady] at h, by simp⟩
  | succ n ih =>
    rw [takeReady]
    cases hf : pending.find? (g.isReady pending) with
    | none =>
      refine ⟨pending, List.Perm.refl _, fun pre t post h => by simp at h, fun t ht => ?_⟩
      have hnot := List.find?_eq_none.mp hf t ht
      rw [isReady_iff] at hnot
      push Not at hnot
      exact hnot
    | some id =>
      have hid : id ∈ pending := List.mem_of_find?_eq_some hf
      have hshort : (pending.erase id).length ≤ n := by
        rw [List.length_erase_of_mem hid]
        omega
      obtain ⟨rest, hrest⟩ := ih (hnd.erase id) hshort
      exact ⟨rest, hrest.cons hid (List.find?_some hf)⟩

theorem topologicalOrder_taken (hnd : g.ids.Nodup) :
    ∃ rest, Taken g g.ids g.topologicalOrder rest :=
  takeReady_taken hnd g.length_ids.le

/-! ## 2. What is left contains a cycle -/

/-- Finitely many nodes, each with a cause among them, contain a cycle. -/
theorem exists_cycle_of_stuck {rest : List String} (hne : rest ≠ [])
    (h : ∀ t ∈ rest, ∃ s ∈ rest, g.HasEdge s t) : ∃ v, g.Reaches v v := by
  obtain ⟨v, -, hv⟩ := exists_cycle_of_successors (R := Function.swap g.HasEdge)
    (List.finite_toSet rest) (List.exists_mem_of_ne_nil rest hne) h
  rw [Relation.transGen_swap] at hv
  exact ⟨v, reaches_iff_transGen.mpr hv⟩

/-! ## 3. Complete orders -/

section Complete

variable (hnd : g.ids.Nodup) (hfull : g.topologicalOrder.length = g.nodes.length)

include hnd hfull

theorem topologicalOrder_perm_of_full : g.topologicalOrder.Perm g.ids := by
  obtain ⟨rest, h⟩ := topologicalOrder_taken hnd
  have hrest : rest = [] := by
    have hlen := h.perm.length_eq
    rw [List.length_append, hfull, g.length_ids] at hlen
    exact List.length_eq_zero_iff.mp (by omega)
  have hperm := h.perm
  rwa [hrest, List.append_nil] at hperm

theorem idxOf_lt_of_hasEdge {u v : String} (hk : g.KnownEnds) (huv : g.HasEdge u v) :
    g.topologicalOrder.idxOf u < g.topologicalOrder.idxOf v := by
  obtain ⟨rest, h⟩ := topologicalOrder_taken hnd
  have hv : v ∈ g.topologicalOrder :=
    (topologicalOrder_perm_of_full hnd hfull).mem_iff.mpr (huv.target_mem hk)
  obtain ⟨pre, post, heq, hpre⟩ := List.eq_append_cons_of_mem hv
  have hu : u ∈ pre := h.before pre v post heq u (huv.source_mem hk) huv
  rw [heq, List.idxOf_append_of_mem hu, List.idxOf_append_of_notMem hpre]
  have := List.idxOf_lt_length_of_mem hu
  omega

theorem idxOf_lt_of_reaches_of_full {u v : String} (hk : g.KnownEnds) (huv : g.Reaches u v) :
    g.topologicalOrder.idxOf u < g.topologicalOrder.idxOf v := by
  induction huv with
  | edge h => exact idxOf_lt_of_hasEdge hnd hfull hk ⟨_, h, rfl, rfl⟩
  | step h _ ih => exact (idxOf_lt_of_hasEdge hnd hfull hk ⟨_, h, rfl, rfl⟩).trans ih

end Complete

/-- **The order is complete exactly if no node reaches itself.** -/
theorem length_topologicalOrder_iff (hnd : g.ids.Nodup) (hk : g.KnownEnds) :
    g.topologicalOrder.length = g.nodes.length ↔ ∀ v, ¬ g.Reaches v v := by
  constructor
  · exact fun hfull v hv => Nat.lt_irrefl _ (idxOf_lt_of_reaches_of_full hnd hfull hk hv)
  · intro hac
    obtain ⟨rest, h⟩ := topologicalOrder_taken hnd
    have hrest : rest = [] := Classical.byContradiction fun hne => by
      obtain ⟨v, hv⟩ := exists_cycle_of_stuck hne h.stuck
      exact hac v hv
    have hlen := h.perm.length_eq
    rw [hrest, List.append_nil, g.length_ids] at hlen
    exact hlen

/-! ## 4. The order of an accepted graph -/

section Accepted

variable [Scalar α] (h : g.WellFormed)

include h

theorem WellFormed.known : g.KnownEnds := h.knownEnds

theorem WellFormed.full : g.topologicalOrder.length = g.nodes.length :=
  (length_topologicalOrder_iff h.distinctNodes h.known).mpr h.acyclic

theorem WellFormed.order_perm : g.topologicalOrder.Perm g.ids :=
  topologicalOrder_perm_of_full h.distinctNodes h.full

theorem WellFormed.order_nodup : g.topologicalOrder.Nodup :=
  h.order_perm.nodup_iff.mpr h.distinctNodes

theorem WellFormed.mem_order {id : String} : id ∈ g.topologicalOrder ↔ id ∈ g.ids :=
  h.order_perm.mem_iff

/-- **Causes stand before their effects.** -/
theorem WellFormed.idxOf_lt_of_reaches {u v : String} (huv : g.Reaches u v) :
    g.topologicalOrder.idxOf u < g.topologicalOrder.idxOf v :=
  idxOf_lt_of_reaches_of_full h.distinctNodes h.full h.known huv

end Accepted

end CausalGraph

end CodeCausality
