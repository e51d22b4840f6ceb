import CodeCausality.Proofs.Graph.Construction

/-!
# The least topological order

Of all orders with causes before effects, the graph's takes the node that was given first wherever
there is a choice.

* `IsOrder` -- the nodes in some order, causes before effects;
* `takeReady_least` -- **taking the first ready node each time gives the least order** of the pending
  nodes, by their positions;
* `takeReady_congr` -- which nodes are taken depends on the pairs that have an edge;
* `mem_topologicalOrder_iff` -- **what is taken is what no cycle reaches**.
-/

namespace CodeCausality

namespace CausalGraph

variable {α : Type} {g : CausalGraph α}

/-- The nodes in an order with causes before effects. -/
structure IsOrder (g : CausalGraph α) (order : List String) : Prop where
  perm : order.Perm g.ids
  forward : ∀ u v, g.HasEdge u v → order.idxOf u < order.idxOf v

/-! ## 1. Positions -/

/-- Where no member stands twice, earlier ones have lesser positions. -/
theorem pairwise_idxOf {ids : List String} (h : ids.Nodup) :
    ids.Pairwise fun a b => ids.idxOf a < ids.idxOf b := by
  rw [List.pairwise_iff_getElem]
  intro i j hi hj hij
  rwa [h.idxOf_getElem i hi, h.idxOf_getElem j hj]

/-- The first of the pending nodes with a property has the least position among those. -/
theorem position_le_of_find? {position : String → Nat} {pending : List String}
    (hpending : pending.Pairwise fun a b => position a < position b) {p : String → Bool}
    {a b : String} (ha : pending.find? p = some a) (hb : b ∈ pending) (hpb : p b = true) :
    position a < position b ∨ a = b := by
  obtain ⟨-, before, after, rfl, hbefore⟩ := List.find?_eq_some_iff_append.mp ha
  rcases List.mem_append.mp hb with hb | hb
  · exact absurd hpb (by simpa using hbefore b hb)
  · rcases List.mem_cons.mp hb with rfl | hb
    · exact .inr rfl
    · have hrest := (List.pairwise_append.mp hpending).2.1
      exact .inl ((List.pairwise_cons.mp hrest).1 b hb)

/-! ## 2. The least order -/

/-- **Taking the first ready node each time gives the least order of the pending nodes**, if they
have an order at all: its first node is ready, and the first ready one stands no later. -/
theorem takeReady_least {position : String → Nat} {steps : Nat} {pending order : List String}
    (hpending : pending.Pairwise fun a b => position a < position b)
    (hperm : order.Perm pending)
    (hforward : order.Pairwise fun a b => ¬ g.HasEdge b a) (hloop : ∀ a ∈ order, ¬ g.HasEdge a a)
    (hlen : pending.length ≤ steps) :
    g.takeReady steps pending = order ∨
      List.Lex (fun a b => position a < position b) (g.takeReady steps pending) order := by
  induction steps generalizing pending order with
  | zero =>
    obtain rfl := List.length_eq_zero_iff.mp (Nat.le_zero.mp hlen)
    exact .inl (List.perm_nil.mp hperm).symm
  | succ steps ih =>
    cases order with
    | nil =>
      rw [List.nil_perm.mp hperm]
      exact .inl rfl
    | cons a rest =>
      obtain ⟨hfirst, hrest⟩ := List.pairwise_cons.mp hforward
      have ha : a ∈ pending := hperm.subset List.mem_cons_self
      have hready : g.isReady pending a = true := isReady_iff.mpr fun s hs => by
        rcases List.mem_cons.mp (hperm.symm.subset hs) with rfl | hs
        · exact hloop s List.mem_cons_self
        · exact hfirst s hs
      rw [takeReady]
      cases hfind : pending.find? (g.isReady pending) with
      | none => exact absurd hready (List.find?_eq_none.mp hfind a ha)
      | some id =>
        dsimp only
        rcases position_le_of_find? hpending hfind ha hready with hlt | rfl
        · exact .inr (.rel hlt)
        · have hshort : (pending.erase id).length ≤ steps := by
            rw [List.length_erase_of_mem ha]
            omega
          have hrestPerm : rest.Perm (pending.erase id) :=
            (List.cons_perm_iff_perm_erase.mp hperm).2
          rcases ih (hpending.sublist List.erase_sublist) hrestPerm hrest
            (fun b hb => hloop b (List.mem_cons_of_mem _ hb)) hshort with heq | hlex
          · exact .inl (congrArg _ heq)
          · exact .inr (.cons hlex)

theorem IsOrder.pairwise (hnd : g.ids.Nodup) {order : List String} (h : g.IsOrder order) :
    order.Pairwise (fun a b => ¬ g.HasEdge b a) ∧ ∀ a ∈ order, ¬ g.HasEdge a a := by
  have horder : order.Nodup := h.perm.nodup_iff.mpr hnd
  refine ⟨?_, fun a _ ha => Nat.lt_irrefl _ (h.forward a a ha)⟩
  exact (pairwise_idxOf horder).imp fun hab hba => absurd (h.forward _ _ hba) (Nat.not_lt.mpr hab.le)

/-- **No order with causes before effects is less than the graph's.** -/
theorem topologicalOrder_least (hnd : g.ids.Nodup) {order : List String} (h : g.IsOrder order) :
    g.topologicalOrder = order ∨ List.Lex (fun a b => g.ids.idxOf a < g.ids.idxOf b)
      g.topologicalOrder order :=
  takeReady_least (pairwise_idxOf hnd) h.perm (h.pairwise hnd).1 (h.pairwise hnd).2 g.length_ids.le

/-! ## 3. What it depends on -/

theorem isReady_congr {h : CausalGraph α} (hedges : ∀ u v, g.HasEdge u v ↔ h.HasEdge u v)
    (pending : List String) : g.isReady pending = h.isReady pending := by
  funext id
  rw [Bool.eq_iff_iff, isReady_iff, isReady_iff]
  exact forall₂_congr fun s _ => not_congr (hedges s id)

theorem takeReady_congr {h : CausalGraph α} (hedges : ∀ u v, g.HasEdge u v ↔ h.HasEdge u v)
    (steps : Nat) (pending : List String) : g.takeReady steps pending = h.takeReady steps pending := by
  induction steps generalizing pending with
  | zero => rfl
  | succ steps ih =>
    rw [takeReady, takeReady, isReady_congr hedges]
    cases pending.find? (h.isReady pending) with
    | none => rfl
    | some id =>
      dsimp only
      rw [ih]

/-- **The order depends on the ids of the nodes and the pairs that have an edge.** -/
theorem topologicalOrder_congr {h : CausalGraph α} (hids : g.ids = h.ids)
    (hedges : ∀ u v, g.HasEdge u v ↔ h.HasEdge u v) : g.topologicalOrder = h.topologicalOrder := by
  rw [topologicalOrder, topologicalOrder, takeReady_congr hedges, hids, ← g.length_ids, hids,
    h.length_ids]

/-! ## 4. Cycles -/

section Cycles

variable {order rest : List String} (hk : g.KnownEnds) (h : Taken g g.ids order rest)

include hk h

/-- A cause of a node that is taken is taken before it. -/
theorem Taken.idxOf_lt_of_hasEdge {u v : String} (huv : g.HasEdge u v) (hv : v ∈ order) :
    u ∈ order ∧ order.idxOf u < order.idxOf v := by
  obtain ⟨pre, post, rfl, hpre⟩ := List.eq_append_cons_of_mem hv
  have hu : u ∈ pre := h.before pre v post rfl u (huv.source_mem hk) huv
  refine ⟨List.mem_append_left _ hu, ?_⟩
  rw [List.idxOf_append_of_mem hu, List.idxOf_append_of_notMem hpre]
  have := List.idxOf_lt_length_of_mem hu
  omega

/-- What reaches a node that is taken is taken before it. -/
theorem Taken.idxOf_lt_of_reaches {u v : String} (huv : g.Reaches u v) (hv : v ∈ order) :
    u ∈ order ∧ order.idxOf u < order.idxOf v := by
  induction huv with
  | edge he => exact h.idxOf_lt_of_hasEdge hk ⟨_, he, rfl, rfl⟩ hv
  | step he _ ih =>
    obtain ⟨hmem, hlt⟩ := ih hv
    obtain ⟨hu, hfirst⟩ := h.idxOf_lt_of_hasEdge hk ⟨_, he, rfl, rfl⟩ hmem
    exact ⟨hu, hfirst.trans hlt⟩

omit hk in
/-- A node that is left is reached by a cycle: going back from it among those left ends in one. -/
theorem Taken.exists_cycle {id : String} (hid : id ∈ rest) :
    ∃ v, g.Reaches v v ∧ g.Reaches v id := by
  obtain ⟨v, ⟨-, hv⟩, hcycle⟩ := exists_cycle_of_successors (R := Function.swap g.HasEdge)
    (S := {s | s ∈ rest ∧ (s = id ∨ g.Reaches s id)})
    ((List.finite_toSet rest).subset fun s hs => hs.1) ⟨id, hid, .inl rfl⟩ fun t ht => by
      obtain ⟨s, hs, hst⟩ := h.stuck t ht.1
      refine ⟨s, ⟨hs, .inr ?_⟩, hst⟩
      rcases ht.2 with rfl | hreach
      · exact hst.reaches
      · exact hst.reaches.trans hreach
  rw [Relation.transGen_swap, ← reaches_iff_transGen] at hcycle
  refine ⟨v, hcycle, ?_⟩
  rcases hv with rfl | hv
  · exact hcycle
  · exact hv

end Cycles

/-- **A node is taken exactly if no cycle reaches it.** -/
theorem mem_topologicalOrder_iff (hnd : g.ids.Nodup) (hk : g.KnownEnds) {id : String} :
    id ∈ g.topologicalOrder ↔ id ∈ g.ids ∧ ∀ v, g.Reaches v v → ¬ g.Reaches v id := by
  obtain ⟨rest, h⟩ := topologicalOrder_taken hnd
  constructor
  · intro hid
    refine ⟨h.perm.subset (List.mem_append_left _ hid), fun v hv hreach => ?_⟩
    have hmem := (h.idxOf_lt_of_reaches hk hreach hid).1
    exact Nat.lt_irrefl _ (h.idxOf_lt_of_reaches hk hv hmem).2
  · rintro ⟨hid, hcycles⟩
    rcases List.mem_append.mp (h.perm.symm.subset hid) with hid | hid
    · exact hid
    · obtain ⟨v, hv, hreach⟩ := h.exists_cycle hid
      exact absurd hreach (hcycles v hv)

theorem nodup_topologicalOrder (hnd : g.ids.Nodup) : g.topologicalOrder.Nodup := by
  obtain ⟨rest, h⟩ := topologicalOrder_taken hnd
  exact (List.nodup_append.mp (h.perm.nodup_iff.mpr hnd)).1

end CausalGraph

end CodeCausality
