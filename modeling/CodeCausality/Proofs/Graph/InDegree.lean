import CodeCausality.Graph.InDegree
import CodeCausality.Proofs.Graph.Least
import CodeCausality.Proofs.Graph.OutDegree

/-!
# The order by counting

Counting takes the nodes that searching for pending causes takes, and nothing is ever taken away
from a counter that is zero:

* `Countdown.exists_lowerAll` -- what lowering counters makes ready;
* `Counting` -- **the invariant: a counter is the number of edges from pending nodes, and the
  ready positions are those of the pending nodes without a pending cause**; `counting_countdown` at
  the start, `Counting.exists_lowerAll` for a round;
* `Counting.min?_eq` -- the least ready position is that of the first ready node;
* `countedTake_eq` -- rounds that keep the invariant end, with what `takeReady` takes;
* `topological_order_is_least` -- **what the order is, and what it depends on.**
-/

namespace CodeCausality

/-! ## 1. Lowering -/

namespace Countdown

variable (position : String → Nat) {c : Countdown}

/-- A counter above zero is lowered by one, and its node is ready if nothing is left. -/
theorem exists_lower {id : String} (h : 0 < degree c.counters id) (hready : c.ready.Nodup)
    (hnew : position id ∉ c.ready) :
    ∃ d, c.lower position id = .ok d ∧
      (∀ j, degree d.counters j + (if id = j then 1 else 0) = degree c.counters j) ∧
      d.ready.Nodup ∧
      ∀ i, i ∈ d.ready ↔ i ∈ c.ready ∨ position id = i ∧ degree d.counters id = 0 := by
  obtain ⟨counters, hlower, hdegree⟩ := CodeCausality.exists_lower h
  refine ⟨⟨counters, if degree counters id = 0 then position id :: c.ready else c.ready⟩, ?_,
    hdegree, ?_, fun i => ?_⟩
  · rw [lower, hlower]
  · dsimp only
    split
    · exact List.nodup_cons.mpr ⟨hnew, hready⟩
    · exact hready
  · dsimp only
    split
    · rename_i hzero
      rw [List.mem_cons, or_comm, and_iff_left hzero, eq_comm]
    · rename_i hpos
      exact (or_iff_left fun h => hpos h.2).symm

/-- **Counters that are large enough can be lowered**, each as often as its node is listed, and the
nodes whose counters become zero are ready, once each. -/
theorem exists_lowerAll {targets : List String}
    (hcount : ∀ t, targets.count t ≤ degree c.counters t)
    (hposition : ∀ a ∈ targets, ∀ b ∈ targets, position a = position b → a = b)
    (hready : c.ready.Nodup) (hnew : ∀ t ∈ targets, position t ∉ c.ready) :
    ∃ d, c.lowerAll position targets = .ok d ∧
      (∀ t, degree d.counters t + targets.count t = degree c.counters t) ∧ d.ready.Nodup ∧
      ∀ i, i ∈ d.ready ↔ i ∈ c.ready ∨
        ∃ t ∈ targets, position t = i ∧ degree d.counters t = 0 := by
  induction targets generalizing c with
  | nil => exact ⟨c, rfl, fun t => by simp, hready, fun i => by simp⟩
  | cons a rest ih =>
    have hpos : 0 < degree c.counters a := by
      have ha := hcount a
      rw [List.count_cons_self] at ha
      omega
    obtain ⟨once, honce, hdegree, honceNodup, honceReady⟩ :=
      exists_lower position hpos hready (hnew a List.mem_cons_self)
    have hrest := count_le_of_lowered hcount hdegree
    have honceNew : ∀ t ∈ rest, position t ∉ once.ready := by
      intro t ht hmem
      rcases (honceReady _).mp hmem with hmem | ⟨heq, hzero⟩
      · exact hnew t (List.mem_cons_of_mem _ ht) hmem
      · -- once the counter of the node is zero, the node is not listed again
        obtain rfl := hposition a List.mem_cons_self t (List.mem_cons_of_mem _ ht) heq
        exact List.count_eq_zero.mp (Nat.le_zero.mp (hzero ▸ hrest a)) ht
    obtain ⟨d, hd, hall, hnodup, hmem⟩ := ih hrest
      (fun x hx y hy => hposition x (List.mem_cons_of_mem _ hx) y (List.mem_cons_of_mem _ hy))
      honceNodup honceNew
    refine ⟨d, ?_, add_count_cons hdegree hall, hnodup, fun i => ?_⟩
    · rw [lowerAll, honce]
      exact hd
    · rw [hmem, honceReady]
      constructor
      · rintro ((hi | ⟨rfl, hzero⟩) | ⟨t, ht, rfl, hzero⟩)
        · exact .inl hi
        · have ha := hall a
          exact .inr ⟨a, List.mem_cons_self, rfl, by omega⟩
        · exact .inr ⟨t, List.mem_cons_of_mem _ ht, rfl, hzero⟩
      · rintro (hi | ⟨t, ht, rfl, hzero⟩)
        · exact .inl (.inl hi)
        · by_cases hagain : t ∈ rest
          · exact .inr ⟨t, hagain, rfl, hzero⟩
          · obtain rfl := (List.mem_cons.mp ht).resolve_right hagain
            have halla := hall t
            rw [List.count_eq_zero.mpr hagain] at halla
            exact .inl (.inr ⟨rfl, by omega⟩)

end Countdown

/-! ## 2. The invariant -/

namespace CausalGraph

variable {α : Type} {g : CausalGraph α} {pending : List String} {c : Countdown}

/-- A counter is the number of edges from pending nodes, and the positions of the pending nodes
without a pending cause are ready. The effects of pending nodes are pending. -/
structure Counting (g : CausalGraph α) (pending : List String) (c : Countdown) : Prop where
  effects : ∀ u ∈ pending, ∀ v, g.HasEdge u v → v ∈ pending
  counts : ∀ id, degree c.counters id =
    g.edges.countP fun e => e.target == id && pending.contains e.source
  nodup : c.ready.Nodup
  ready : ∀ i, i ∈ c.ready ↔
    ∃ id ∈ pending, g.ids.idxOf id = i ∧ g.isReady pending id = true

theorem isReady_iff_countP {id : String} : g.isReady pending id = true ↔
    (g.edges.countP fun e => e.target == id && pending.contains e.source) = 0 := by
  rw [isReady, Bool.not_eq_true', List.any_eq_false, List.countP_eq_zero]

/-- At first a counter is the number of the edges that lead to the node. -/
theorem degree_inDegrees (hnd : g.ids.Nodup) (hk : g.KnownEnds) (id : String) :
    degree g.inDegrees id = g.edges.countP fun e => e.target == id && g.ids.contains e.source := by
  have hcount : (g.edges.countP fun e => e.target == id && g.ids.contains e.source) =
      (g.index.sourcesAt id).length := by
    rw [g.index_eq, GraphIndex.sourcesAt_ofParts, List.length_reverse, List.length_map,
      ← List.countP_eq_length_filter]
    refine List.countP_congr fun e he => ?_
    rw [List.contains_iff_mem.mpr (hk e he).1, Bool.and_true]
  rw [hcount, degree, inDegrees]
  by_cases hid : id ∈ g.ids
  · have hkeys : ((g.ids.map fun id => (id, (g.index.sourcesAt id).length)).map (·.1)).Nodup := by
      rw [List.map_map]
      exact (List.map_id g.ids).symm ▸ hnd
    rw [Dictionary.get?_ofList_of_nodup hkeys (List.mem_map.mpr ⟨id, hid, rfl⟩)]
    rfl
  · have hsources : g.index.sourcesAt id = [] := by
      refine List.eq_nil_iff_forall_not_mem.mpr fun s hs => hid ?_
      rw [g.index_eq, GraphIndex.mem_sourcesAt] at hs
      obtain ⟨e, he, -, rfl⟩ := hs
      exact (hk e he).2
    rw [hsources]
    cases hget : (Dictionary.ofList (g.ids.map fun id =>
        (id, (g.index.sourcesAt id).length))).get? id with
    | none => rfl
    | some n =>
      obtain ⟨k, hk, heq⟩ := List.mem_map.mp (Dictionary.mem_of_get?_ofList hget)
      exact absurd ((Prod.mk.inj heq).1 ▸ hk) hid

/-- The id at the position of a node is the node's. -/
theorem getD_idxOf {id : String} (hid : id ∈ g.ids) : g.ids.getD (g.ids.idxOf id) "" = id := by
  rw [List.getD_eq_getElem?_getD, List.getElem?_idxOf hid, Option.getD_some]

/-- **Nothing is taken at first.** -/
theorem counting_countdown (hnd : g.ids.Nodup) (hk : g.KnownEnds) :
    Counting g g.ids g.countdown where
  effects _ _ _ huv := huv.target_mem hk
  counts := degree_inDegrees hnd hk
  nodup := List.nodup_range.filter _
  ready i := by
    unfold countdown
    rw [List.mem_filter, List.mem_range, beq_iff_eq, degree_inDegrees hnd hk,
      ← isReady_iff_countP, ← g.length_ids]
    constructor
    · rintro ⟨hi, hready⟩
      have hposition := hnd.idxOf_getElem i hi
      refine ⟨g.ids[i], List.getElem_mem hi, hposition, ?_⟩
      rwa [← getD_idxOf (List.getElem_mem hi), hposition]
    · rintro ⟨id, hid, rfl, hready⟩
      refine ⟨List.idxOf_lt_length_of_mem hid, ?_⟩
      rwa [getD_idxOf hid]

/-! ## 3. A round -/

/-- **The least ready position is that of the first pending node without a pending cause.** -/
theorem Counting.min?_eq (h : Counting g pending c)
    (hpending : pending.Pairwise fun a b => g.ids.idxOf a < g.ids.idxOf b) :
    c.ready.min? = (pending.find? (g.isReady pending)).map g.ids.idxOf := by
  cases hfind : pending.find? (g.isReady pending) with
  | none =>
    have hempty : c.ready = [] := List.eq_nil_iff_forall_not_mem.mpr fun i hi => by
      obtain ⟨id, hid, -, hready⟩ := (h.ready i).mp hi
      exact List.find?_eq_none.mp hfind id hid hready
    rw [hempty]
    rfl
  | some a =>
    rw [Option.map_some, List.min?_eq_some_iff]
    refine ⟨(h.ready _).mpr ⟨a, List.mem_of_find?_eq_some hfind, rfl, List.find?_some hfind⟩, ?_⟩
    intro i hi
    obtain ⟨b, hb, rfl, hready⟩ := (h.ready i).mp hi
    rcases position_le_of_find? hpending hfind hb hready with hlt | rfl
    · exact hlt.le
    · exact le_rfl

/-- The edges from a pending node are as many less as are taken away. -/
theorem countP_erase (hpending : pending.Nodup) {a : String} (ha : a ∈ pending) (id : String) :
    (g.edges.countP fun e => e.target == id && pending.contains e.source) =
      (g.edges.countP fun e => e.target == id && (pending.erase a).contains e.source) +
        (g.index.targetsAt a).count id := by
  have hcount : (g.index.targetsAt a).count id =
      g.edges.countP fun e => e.target == id && e.source == a := by
    rw [g.index_eq, GraphIndex.targetsAt_ofParts, List.count_reverse, List.count_eq_countP,
      List.countP_map, List.countP_filter]
    rfl
  rw [hcount]
  clear hcount
  induction g.edges with
  | nil => rfl
  | cons e edges ih =>
    rw [List.countP_cons, List.countP_cons, List.countP_cons, ih]
    have hmem : e.source ∈ pending.erase a ↔ e.source ≠ a ∧ e.source ∈ pending :=
      hpending.mem_erase_iff
    by_cases hs : e.source = a
    · have hnot : a ∉ pending.erase a := fun h => (hpending.mem_erase_iff.mp h).1 rfl
      by_cases hid : e.target = id
      · simp [hs, hid, ha, hnot]
        omega
      · simp [hid]
    · simp [hmem, hs]
      omega

/-- Taking a node does not change whether others are ready that are no effects of it. -/
theorem isReady_erase {a u : String} (hau : ¬ g.HasEdge a u) :
    g.isReady (pending.erase a) u = true ↔ g.isReady pending u = true := by
  rw [isReady_iff, isReady_iff]
  constructor
  · intro h s hs hsu
    have hsa : s ≠ a := fun hsa => hau (hsa ▸ hsu)
    exact h s ((List.mem_erase_of_ne hsa).mpr hs) hsu
  · exact fun h s hs => h s (List.mem_of_mem_erase hs)

/-- **A round lowers no counter below zero**, and keeps the invariant. -/
theorem Counting.exists_lowerAll (h : Counting g pending c) (hk : g.KnownEnds)
    (hnd : g.ids.Nodup) (hpending : pending.Sublist g.ids) {a : String} (ha : a ∈ pending)
    (hready : g.isReady pending a = true) :
    ∃ d, (Countdown.mk c.counters (c.ready.erase (g.ids.idxOf a))).lowerAll g.ids.idxOf
        (g.index.targetsAt a) = .ok d ∧ Counting g (pending.erase a) d := by
  have hnodup : pending.Nodup := hnd.sublist hpending
  have hsplit (id : String) := (h.counts id).trans (countP_erase hnodup ha id)
  have htargets (t : String) : t ∈ g.index.targetsAt a ↔ g.HasEdge a t := by
    rw [g.index_eq, GraphIndex.mem_targetsAt]
    exact Iff.rfl
  -- the effects of a pending node are not ready before it is taken
  have hnew : ∀ t ∈ g.index.targetsAt a, g.ids.idxOf t ∉ c.ready.erase (g.ids.idxOf a) := by
    intro t ht hmem
    obtain ⟨u, hu, hposition, huready⟩ := (h.ready _).mp (List.mem_of_mem_erase hmem)
    obtain rfl := (List.idxOf_inj (hpending.subset hu)).mp hposition
    exact isReady_iff.mp huready a ha ((htargets u).mp ht)
  have hcount (t : String) : (g.index.targetsAt a).count t ≤ degree c.counters t := by
    rw [hsplit t]
    exact Nat.le_add_left _ _
  obtain ⟨d, hd, hall, hdnodup, hdready⟩ := Countdown.exists_lowerAll g.ids.idxOf
    (c := ⟨c.counters, c.ready.erase (g.ids.idxOf a)⟩) hcount
    (fun x hx y _ hxy => (List.idxOf_inj (((htargets x).mp hx).target_mem hk)).mp hxy)
    (h.nodup.erase _) hnew
  have hcounts (id : String) : degree d.counters id =
      g.edges.countP fun e => e.target == id && (pending.erase a).contains e.source := by
    have hid : degree d.counters id + (g.index.targetsAt a).count id = degree c.counters id :=
      hall id
    rw [hsplit id] at hid
    omega
  have heffects : ∀ u ∈ pending, ∀ v, g.HasEdge u v → v ∈ pending.erase a := by
    intro u hu v huv
    have hva : v ≠ a := fun hva => isReady_iff.mp hready u hu (hva ▸ huv)
    exact (List.mem_erase_of_ne hva).mpr (h.effects u hu v huv)
  refine ⟨d, hd, fun u hu => heffects u (List.mem_of_mem_erase hu), hcounts, hdnodup, fun i => ?_⟩
  rw [hdready, h.nodup.mem_erase_iff]
  constructor
  · rintro (⟨hne, hi⟩ | ⟨t, ht, rfl, hzero⟩)
    · obtain ⟨u, hu, rfl, huready⟩ := (h.ready i).mp hi
      have hua : u ≠ a := fun hua => hne (hua ▸ rfl)
      have hau : ¬ g.HasEdge a u := isReady_iff.mp huready a ha
      exact ⟨u, (List.mem_erase_of_ne hua).mpr hu, rfl, (isReady_erase hau).mpr huready⟩
    · exact ⟨t, heffects a ha t ((htargets t).mp ht), rfl,
        isReady_iff_countP.mpr ((hcounts t).symm.trans hzero)⟩
  · rintro ⟨u, hu, rfl, huready⟩
    obtain ⟨hua, hmem⟩ := hnodup.mem_erase_iff.mp hu
    by_cases ht : u ∈ g.index.targetsAt a
    · exact .inr ⟨u, ht, rfl, (hcounts u).trans (isReady_iff_countP.mp huready)⟩
    · have hau : ¬ g.HasEdge a u := fun hau => ht ((htargets u).mpr hau)
      have hposition : g.ids.idxOf u ≠ g.ids.idxOf a := fun hposition =>
        hua ((List.idxOf_inj (hpending.subset hmem)).mp hposition)
      exact .inl ⟨hposition, (h.ready _).mpr ⟨u, hmem, rfl, (isReady_erase hau).mp huready⟩⟩

/-! ## 4. All rounds -/

/-- **Enough rounds end, whatever their number, with what is taken by searching.** -/
theorem countedTake_eq {rounds steps : Nat} (h : Counting g pending c) (hk : g.KnownEnds)
    (hnd : g.ids.Nodup) (hpending : pending.Sublist g.ids) (hrounds : pending.length < rounds)
    (hsteps : pending.length ≤ steps) :
    g.countedTake rounds c = .ok (g.takeReady steps pending) := by
  induction rounds generalizing steps pending c with
  | zero => omega
  | succ rounds ih =>
    have hmin := h.min?_eq ((pairwise_idxOf hnd).sublist hpending)
    rw [countedTake, hmin]
    cases steps with
    | zero =>
      obtain rfl := List.length_eq_zero_iff.mp (Nat.le_zero.mp hsteps)
      rfl
    | succ steps =>
      rw [takeReady]
      cases hfind : pending.find? (g.isReady pending) with
      | none => rfl
      | some a =>
        have ha := List.mem_of_find?_eq_some hfind
        obtain ⟨d, hd, hcounting⟩ := h.exists_lowerAll hk hnd hpending ha (List.find?_some hfind)
        have hshort := List.length_erase_of_mem ha
        have hpos := List.length_pos_of_mem ha
        dsimp only [Option.map_some]
        rw [getD_idxOf (hpending.subset ha), hd]
        dsimp only
        have hrest : g.countedTake rounds d = .ok (g.takeReady steps (pending.erase a)) :=
          ih hcounting (List.erase_sublist.trans hpending) (by omega) (by omega)
        rw [hrest]
        rfl

/-- **Counting takes what searching takes.** -/
theorem countedOrder_eq (hnd : g.ids.Nodup) (hk : g.KnownEnds) {rounds : Nat}
    (h : g.nodes.length < rounds) : g.countedOrder rounds = .ok g.topologicalOrder :=
  countedTake_eq (counting_countdown hnd hk) hk hnd (List.Sublist.refl _) (g.length_ids ▸ h)
    g.length_ids.le

/-! ## 5. The order of a graph -/

theorem WellFormed.isOrder [Scalar α] (h : g.WellFormed) : g.IsOrder g.topologicalOrder where
  perm := h.order_perm
  forward _ _ huv := h.idxOf_lt_of_reaches huv.reaches

/-- **The order of a graph is the least one with causes before effects**, by the positions of the
nodes. Counting finds it in any number of rounds above that of the nodes, and never takes away from
a counter that is zero. It depends on the ids of the nodes and the pairs that have an edge, not on
how the edges were given. Where there are cycles, the nodes that no cycle reaches are in it, once
each. -/
theorem topological_order_is_least [Scalar α] {nodes : List Element} {edges : List (Edge α)}
    (h : Checked nodes edges) :
    (∀ rounds, nodes.length < rounds → (assembled nodes edges).countedOrder rounds =
        .ok (assembled nodes edges).topologicalOrder) ∧
      (∀ g, ofParts nodes edges = .ok g → g = assembled nodes edges ∧
        g.IsOrder g.topologicalOrder ∧ ∀ order, g.IsOrder order → g.topologicalOrder = order ∨
          List.Lex (fun a b => g.ids.idxOf a < g.ids.idxOf b) g.topologicalOrder order) ∧
      (∀ nodes' (edges' : List (Edge α)), nodes'.map (·.id) = nodes.map (·.id) →
        (∀ u v, (∃ e ∈ edges', e.source = u ∧ e.target = v) ↔
          ∃ e ∈ edges, e.source = u ∧ e.target = v) →
        (assembled nodes' edges').topologicalOrder = (assembled nodes edges).topologicalOrder) ∧
      (assembled nodes edges).topologicalOrder.Nodup ∧
      ∀ id, id ∈ (assembled nodes edges).topologicalOrder ↔ id ∈ nodes.map (·.id) ∧
        ∀ v, (assembled nodes edges).Reaches v v → ¬ (assembled nodes edges).Reaches v id := by
  have hnd : (assembled nodes edges).ids.Nodup := h.distinct
  refine ⟨fun rounds hrounds => countedOrder_eq hnd h.knownEnds hrounds, fun g hg => ?_,
    fun nodes' edges' hids hpairs => ?_, nodup_topologicalOrder hnd,
    fun id => mem_topologicalOrder_iff hnd h.knownEnds⟩
  · have hwf := wellFormed_of_ofParts hg
    exact ⟨(ofParts_eq_ok_iff.mp hg).1, hwf.isOrder,
      fun order horder => topologicalOrder_least hwf.distinctNodes horder⟩
  · refine topologicalOrder_congr hids fun u v => ?_
    rw [hasEdge_assembled_iff, hasEdge_assembled_iff]
    exact hpairs u v

/-- The first of the four nodes comes last. Two others may come in either order, and come in that in
which they were given. -/
theorem topological_order_is_least_diamond :
    diamond.countedOrder 5 = .ok ["a", "b", "c", "d"] ∧
      diamond.IsOrder ["a", "c", "b", "d"] ∧
      List.Lex (fun a b => diamond.ids.idxOf a < diamond.ids.idxOf b) ["a", "b", "c", "d"]
        ["a", "c", "b", "d"] := by
  have horder : diamond.topologicalOrder = ["a", "b", "c", "d"] := by cbv
  have hother : diamond.IsOrder ["a", "c", "b", "d"] := by
    refine ⟨by decide +kernel, fun u v huv => ?_⟩
    obtain ⟨e, he, rfl, rfl⟩ := (hasEdge_of_ofParts ofParts_diamond).mp huv
    have hforward : ∀ e ∈ diamondEdges,
        ["a", "c", "b", "d"].idxOf e.source < ["a", "c", "b", "d"].idxOf e.target := by
      decide
    exact hforward e he
  obtain ⟨hcounted, haccepted, -⟩ :=
    topological_order_is_least (ofParts_eq_ok_iff.mp ofParts_diamond).2.1
  have hleast := (haccepted diamond ofParts_diamond).2.2 _ hother
  rw [horder] at hleast
  exact ⟨(hcounted 5 (by decide)).trans (congrArg _ horder), hother,
    hleast.resolve_left (by decide)⟩

end CausalGraph

end CodeCausality
