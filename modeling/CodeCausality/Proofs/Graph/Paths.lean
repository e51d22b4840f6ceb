import Mathlib
import CodeCausality.Graph.Paths
import CodeCausality.Proofs.Graph.Construction
import CodeCausality.Proofs.Text.ByteOrder

/-!
# The search finds the first paths

The search tries one length after another, leaves out what the distances exclude, and stops at the
limit. It is compared with the list of all walks, which does none of this:

* `walks` -- all walks of a number of edges to the target, in the order of their ids;
* `exists_distance_of_walk` -- the distances exclude no walk, so `extend_eq_take` and
  `lengths_eq_take` hold: **the search gives the first walks of the full list**;
* `PathBefore` -- fewer edges first, then the order of the ids, byte by byte;
* `IsWalk.nodup`, `mem_allPaths` -- the walks of an accepted graph are its paths;
* `paths_eq_take_allPaths` -- **`paths` gives the first of all paths**;
* `allPaths_eq_of_perm` -- which do not depend on the order that the parts came in.
-/

namespace CodeCausality

namespace PathSearch

variable {s : PathSearch}

/-! ## 1. All walks -/

/-- All walks of the given number of edges from `v` to the target. -/
def walks (s : PathSearch) : Nat → String → List (List String)
  | 0, v => if v = s.target then [[v]] else []
  | n + 1, v => (s.children v).flatMap fun c => (s.walks n c).map (v :: ·)

theorem mem_walks_zero {v : String} {p : List String} :
    p ∈ s.walks 0 v ↔ v = s.target ∧ p = [v] := by
  rw [walks]
  split
  · rename_i h
    simp [h]
  · rename_i h
    exact iff_of_false List.not_mem_nil fun k => h k.1

theorem mem_walks_succ {n : Nat} {v : String} {p : List String} :
    p ∈ s.walks (n + 1) v ↔ ∃ c ∈ s.children v, ∃ q ∈ s.walks n c, v :: q = p := by
  simp only [walks, List.mem_flatMap, List.mem_map]

theorem head_of_mem_walks {n : Nat} {v : String} {p : List String} (h : p ∈ s.walks n v) :
    ∃ t, p = v :: t := by
  cases n with
  | zero => exact ⟨[], (mem_walks_zero.mp h).2⟩
  | succ n =>
    obtain ⟨c, -, q, -, rfl⟩ := mem_walks_succ.mp h
    exact ⟨q, rfl⟩

theorem length_of_mem_walks {n : Nat} {v : String} {p : List String} (h : p ∈ s.walks n v) :
    p.length = n + 1 := by
  induction n generalizing v p with
  | zero =>
    rw [(mem_walks_zero.mp h).2]
    rfl
  | succ n ih =>
    obtain ⟨c, -, q, hq, rfl⟩ := mem_walks_succ.mp h
    rw [List.length_cons, ih hq]

/-- Walks of one length stand in the order of their ids. -/
theorem walks_increasing (hs : ∀ v, (s.children v).Pairwise (· < ·)) (n : Nat) (v : String) :
    (s.walks n v).Pairwise (· < ·) := by
  induction n generalizing v with
  | zero =>
    rw [walks]
    split
    · exact List.pairwise_singleton _ _
    · exact List.Pairwise.nil
  | succ n ih =>
    rw [walks, List.pairwise_flatMap]
    constructor
    · intro c _
      rw [List.pairwise_map]
      exact (ih c).imp fun h => List.cons_lt_cons_iff.mpr (.inr ⟨rfl, h⟩)
    · refine (hs v).imp ?_
      intro c d hcd _ hp _ hq
      obtain ⟨p, hp', rfl⟩ := List.mem_map.mp hp
      obtain ⟨q, hq', rfl⟩ := List.mem_map.mp hq
      obtain ⟨t, rfl⟩ := head_of_mem_walks hp'
      obtain ⟨u, rfl⟩ := head_of_mem_walks hq'
      exact List.cons_lt_cons_iff.mpr (.inr ⟨rfl, List.cons_lt_cons_iff.mpr (.inl hcd)⟩)

/-! ## 2. The search against all walks -/

/-- The distances leave no walk out. -/
def Admits (s : PathSearch) : Prop := ∀ v n, s.walks n v ≠ [] → s.fits v n = true

/-- What one level of the search collects is the first of the walks over the nodes tried so far. -/
theorem foldl_extend_eq_take {n limit : Nat} {v : String} (hs : s.Admits)
    (hext : ∀ m c, s.extend n m c = (s.walks n c).take m) (cs : List String)
    (found : List (List String)) :
    cs.foldl (fun found c =>
        if found.length < limit ∧ s.fits c n then
          found ++ (s.extend n (limit - found.length) c).map (v :: ·)
        else found) (found.take limit) =
      (found ++ cs.flatMap fun c => (s.walks n c).map (v :: ·)).take limit := by
  induction cs generalizing found with
  | nil => rw [List.foldl_nil, List.flatMap_nil, List.append_nil]
  | cons c cs ih =>
    rw [List.foldl_cons, List.flatMap_cons, ← List.append_assoc, ← ih]
    congr 1
    rw [List.take_append, List.length_take]
    split
    · rename_i h
      have hlen : min limit found.length = found.length := by omega
      rw [hext, hlen, List.map_take]
    · rename_i h
      by_cases hlen : limit ≤ found.length
      · rw [Nat.sub_eq_zero_of_le hlen, List.take_zero, List.append_nil]
      · -- the limit is not reached, so the distances exclude the node
        have hfits : ¬ s.fits c n = true := fun hf => h ⟨by omega, hf⟩
        have hnil : s.walks n c = [] := Classical.byContradiction fun hne => hfits (hs c n hne)
        rw [hnil, List.map_nil, List.take_nil, List.append_nil]

/-- **A search of one length gives the first walks of that length.** -/
theorem extend_eq_take (hs : s.Admits) (n limit : Nat) (v : String) :
    s.extend n limit v = (s.walks n v).take limit := by
  induction n generalizing limit v with
  | zero =>
    rw [extend, walks]
    by_cases hv : v = s.target
    · rw [if_pos hv]
      split
      · rename_i h
        rw [List.take_of_length_le (by rw [List.length_singleton]; omega)]
      · rename_i h
        have hzero : limit = 0 := by
          have : ¬ 0 < limit := fun hl => h ⟨hv, hl⟩
          omega
        rw [hzero, List.take_zero]
    · rw [if_neg hv, if_neg fun h => hv h.1, List.take_nil]
  | succ n ih =>
    rw [extend, walks, ← List.nil_append (List.flatMap _ _), ← foldl_extend_eq_take hs ih,
      List.take_nil]

/-- **The search of one length after another gives the first of all walks.** -/
theorem lengths_eq_take (hs : s.Admits) (v : String) (limit : Nat) (ns : List Nat) :
    s.lengths v limit ns = (ns.flatMap fun n => s.walks n v).take limit := by
  induction ns generalizing limit with
  | nil => rw [lengths, List.flatMap_nil, List.take_nil]
  | cons n ns ih =>
    rw [lengths, List.flatMap_cons, List.take_append, extend_eq_take hs]
    rw [List.length_take]
    split
    · rename_i h
      rw [Nat.sub_eq_zero_of_le (by omega), List.take_zero, List.append_nil]
    · rename_i h
      have hlen : min limit (s.walks n v).length = (s.walks n v).length := by omega
      rw [hlen, ih]

end PathSearch

/-! ## 3. Distances -/

theorem Distance.foldl_join_le (ds : List Distance) (d : Distance) :
    (ds.foldl Distance.join d).shortest ≤ d.shortest ∧
      d.longest ≤ (ds.foldl Distance.join d).longest := by
  induction ds generalizing d with
  | nil => exact ⟨le_refl _, le_refl _⟩
  | cons e ds ih =>
    have := ih (d.join e)
    rw [List.foldl_cons]
    simp only [Distance.join] at this ⊢
    omega

theorem Distance.foldl_join_mem {ds : List Distance} {d e : Distance} (he : e ∈ d :: ds) :
    (ds.foldl Distance.join d).shortest ≤ e.shortest ∧
      e.longest ≤ (ds.foldl Distance.join d).longest := by
  induction ds generalizing d with
  | nil =>
    rw [List.mem_singleton.mp he]
    exact ⟨le_refl _, le_refl _⟩
  | cons c ds ih =>
    rw [List.foldl_cons]
    have hjoin := Distance.foldl_join_le ds (d.join c)
    rcases List.mem_cons.mp he with rfl | he
    · simp only [Distance.join] at hjoin ⊢
      omega
    · rcases List.mem_cons.mp he with rfl | he
      · simp only [Distance.join] at hjoin ⊢
        omega
      · exact ih (List.mem_cons_of_mem _ he)

/-- The distance over the next nodes covers each of them. -/
theorem Distance.over_covers {known : List (String × Distance)} {next : List String} {c : String}
    {e : Distance} (hc : c ∈ next) (he : known.lookup c = some e) :
    ∃ d, Distance.over known next = some d ∧ d.shortest ≤ e.shortest + 1 ∧
      e.longest + 1 ≤ d.longest := by
  have hmem : e ∈ next.filterMap fun c => known.lookup c := List.mem_filterMap.mpr ⟨c, hc, he⟩
  rw [Distance.over]
  split
  · rename_i hnil
    rw [hnil] at hmem
    exact absurd hmem List.not_mem_nil
  · rename_i d ds hcons
    rw [hcons] at hmem
    have := Distance.foldl_join_mem hmem
    exact ⟨_, rfl, Nat.succ_le_succ this.1, Nat.succ_le_succ this.2⟩

namespace CausalGraph

variable {α : Type} {g : CausalGraph α}

theorem distancesTo_cons (children : String → List String) (target v : String)
    (order : List String) :
    distancesTo children target (v :: order) =
      if v = target then (v, ⟨0, 0⟩) :: distancesTo children target order
      else match Distance.over (distancesTo children target order) (children v) with
        | some d => (v, d) :: distancesTo children target order
        | none => distancesTo children target order := rfl

/-- A node's own distance is looked for in front, every other one behind. -/
theorem lookup_distancesTo_cons_of_ne {children : String → List String} {target u v : String}
    {order : List String} (h : u ≠ v) :
    (distancesTo children target (v :: order)).lookup u =
      (distancesTo children target order).lookup u := by
  have hb : (u == v) = false := beq_false_of_ne h
  rw [distancesTo_cons]
  split
  · rw [List.lookup_cons, hb]
  · split
    · rw [List.lookup_cons, hb]
    · rfl

section Walks

variable {target : String}

/-- A walk that takes a step reaches the target. -/
theorem reaches_of_walks_ne_nil {n : Nat} {v : String}
    (h : (g.search target).walks (n + 1) v ≠ []) : g.Reaches v target := by
  obtain ⟨p, hp⟩ := List.exists_mem_of_ne_nil _ h
  obtain ⟨c, hc, q, hq, -⟩ := PathSearch.mem_walks_succ.mp hp
  have hvc : g.HasEdge v c := mem_children.mp hc
  cases n with
  | zero =>
    obtain ⟨rfl, -⟩ := PathSearch.mem_walks_zero.mp hq
    exact hvc.reaches
  | succ n => exact hvc.reaches.trans (reaches_of_walks_ne_nil (List.ne_nil_of_mem hq))

/-- What a node of the order points to stands behind it. -/
theorem mem_of_hasEdge_of_append [Scalar α] (h : g.WellFormed) {pre suf : List String}
    {v c : String} (ho : g.topologicalOrder = pre ++ v :: suf) (hvc : g.HasEdge v c) : c ∈ suf := by
  have hnd := h.order_nodup
  have hlt := h.idxOf_lt_of_reaches hvc.reaches
  have hc : c ∈ g.topologicalOrder := h.mem_order.mpr (hvc.target_mem h.known)
  rw [ho] at hnd hlt hc
  have hv : v ∉ pre := fun hv => (List.nodup_append.mp hnd).2.2 v hv v List.mem_cons_self rfl
  rw [List.idxOf_append_of_notMem hv, List.idxOf_cons_self] at hlt
  rcases List.mem_append.mp hc with hc | hc
  · rw [List.idxOf_append_of_mem hc] at hlt
    have := List.idxOf_lt_length_iff.mpr hc
    omega
  · rcases List.mem_cons.mp hc with rfl | hc
    · rw [List.idxOf_append_of_notMem hv, List.idxOf_cons_self] at hlt
      omega
    · exact hc

/-- The walks from `u` are covered by its distance if those from its effects are by theirs. -/
theorem exists_distance_of_effects [Scalar α] (h : g.WellFormed) {suf : List String} {u : String}
    (hcover : ∀ c, g.HasEdge u c → ∀ n, (g.search target).walks n c ≠ [] →
      ∃ d, (distancesTo g.children target suf).lookup c = some d ∧ d.shortest ≤ n ∧ n ≤ d.longest)
    {n : Nat} (hw : (g.search target).walks n u ≠ []) :
    ∃ d, (distancesTo g.children target (u :: suf)).lookup u = some d ∧ d.shortest ≤ n ∧
      n ≤ d.longest := by
  rw [distancesTo_cons]
  by_cases ht : u = target
  · -- at the target only the walk without edges is left, as nothing reaches itself
    have hn : n = 0 := by
      cases n with
      | zero => rfl
      | succ n =>
        have hloop := reaches_of_walks_ne_nil hw
        exact absurd (ht ▸ hloop) (h.acyclic target)
    rw [if_pos ht, List.lookup_cons, beq_self_eq_true]
    subst hn
    exact ⟨_, rfl, le_refl _, le_refl _⟩
  · rw [if_neg ht]
    obtain ⟨p, hp⟩ := List.exists_mem_of_ne_nil _ hw
    cases n with
    | zero => exact absurd (PathSearch.mem_walks_zero.mp hp).1 ht
    | succ n =>
      obtain ⟨c, hc, q, hq, -⟩ := PathSearch.mem_walks_succ.mp hp
      obtain ⟨e, he, hshort, hlong⟩ :=
        hcover c (mem_children.mp hc) n (List.ne_nil_of_mem hq)
      obtain ⟨d, hd, hds, hdl⟩ := Distance.over_covers hc he
      have hd' : Distance.over (distancesTo g.children target suf) (g.children u) = some d := hd
      rw [hd', List.lookup_cons, beq_self_eq_true]
      exact ⟨d, rfl, by omega, by omega⟩

/-- **A node from which a walk leads to the target has a distance, and that covers the walk.** -/
theorem exists_distance_of_walk [Scalar α] (h : g.WellFormed) {pre suf : List String}
    (ho : g.topologicalOrder = pre ++ suf) {u : String} (hu : u ∈ suf) {n : Nat}
    (hw : (g.search target).walks n u ≠ []) :
    ∃ d, (distancesTo g.children target suf).lookup u = some d ∧ d.shortest ≤ n ∧
      n ≤ d.longest := by
  -- on the part of the order that is done: it holds the effects of each of its nodes
  induction suf generalizing pre u n with
  | nil => exact absurd hu List.not_mem_nil
  | cons v suf ih =>
    have ho' : g.topologicalOrder = (pre ++ [v]) ++ suf := by
      rw [ho, List.append_assoc, List.singleton_append]
    by_cases huv : u = v
    · subst huv
      exact exists_distance_of_effects h
        (fun c hc _ hwc => ih ho' (mem_of_hasEdge_of_append h ho hc) hwc) hw
    · rw [lookup_distancesTo_cons_of_ne huv]
      exact ih ho' ((List.mem_cons.mp hu).resolve_left huv) hw

theorem walk_mem_ids [Scalar α] (h : g.WellFormed) (ht : target ∈ g.ids) {n : Nat} {v : String}
    (hw : (g.search target).walks n v ≠ []) : v ∈ g.ids := by
  cases n with
  | zero =>
    obtain ⟨p, hp⟩ := List.exists_mem_of_ne_nil _ hw
    exact (PathSearch.mem_walks_zero.mp hp).1 ▸ ht
  | succ n => exact (reaches_of_walks_ne_nil hw).source_mem h.known

/-- The distances of a search in an accepted graph leave no walk out. -/
theorem search_admits [Scalar α] (h : g.WellFormed) (ht : target ∈ g.ids) :
    (g.search target).Admits := by
  intro v n hw
  have hv : v ∈ g.topologicalOrder := h.mem_order.mpr (walk_mem_ids h ht hw)
  obtain ⟨d, hd, hs, hl⟩ := exists_distance_of_walk h (List.nil_append _).symm hv hw
  rw [PathSearch.fits]
  simp only [search, hd, decide_eq_true hs, decide_eq_true hl, Bool.and_self]

end Walks

/-! ## 4. Walks are paths -/

section IsWalk

theorem isWalk_cons_cons {u v : String} {rest : List String} :
    g.IsWalk (u :: v :: rest) ↔ g.HasEdge u v ∧ g.IsWalk (v :: rest) := Iff.rfl

/-- Each node of a walk reaches all that follow. -/
theorem IsWalk.pairwise_reaches {p : List String} (h : g.IsWalk p) :
    p.Pairwise fun u v => g.Reaches u v := by
  induction p with
  | nil => exact List.Pairwise.nil
  | cons u p ih =>
    cases p with
    | nil => exact List.pairwise_singleton _ _
    | cons v rest =>
      obtain ⟨huv, hw⟩ := isWalk_cons_cons.mp h
      have hrest := ih hw
      refine List.pairwise_cons.mpr ⟨fun w hmem => ?_, hrest⟩
      rcases List.mem_cons.mp hmem with rfl | hmem
      · exact huv.reaches
      · exact huv.reaches.trans ((List.pairwise_cons.mp hrest).1 w hmem)

theorem IsWalk.nodup [Scalar α] (hg : g.WellFormed) {p : List String} (h : g.IsWalk p) :
    p.Nodup := by
  refine h.pairwise_reaches.imp ?_
  rintro u v huv rfl
  exact hg.acyclic u huv

/-- The walks of the search are the walks of the graph between the two nodes. -/
theorem mem_walks_iff {target : String} (ht : target ∈ g.ids) {n : Nat} {v : String}
    {p : List String} :
    p ∈ (g.search target).walks n v ↔
      g.IsWalk p ∧ p.length = n + 1 ∧ p.head? = some v ∧ p.getLast? = some target := by
  induction n generalizing v p with
  | zero =>
    rw [PathSearch.mem_walks_zero]
    constructor
    · rintro ⟨rfl, rfl⟩
      exact ⟨ht, rfl, rfl, rfl⟩
    · rintro ⟨-, hlen, hhead, hlast⟩
      obtain ⟨u, rfl⟩ := List.length_eq_one_iff.mp hlen
      obtain rfl := Option.some.inj hhead
      exact ⟨Option.some.inj hlast, rfl⟩
  | succ n ih =>
    rw [PathSearch.mem_walks_succ]
    constructor
    · rintro ⟨c, hc, q, hq, rfl⟩
      obtain ⟨hw, hlen, hhead, hlast⟩ := ih.mp hq
      obtain ⟨t, rfl⟩ := PathSearch.head_of_mem_walks hq
      exact ⟨isWalk_cons_cons.mpr ⟨mem_children.mp hc, hw⟩, by rw [List.length_cons, hlen], rfl,
        by rw [List.getLast?_cons_cons, hlast]⟩
    · rintro ⟨hw, hlen, hhead, hlast⟩
      match p, hlen with
      | u :: c :: rest, hlen =>
        obtain rfl := Option.some.inj hhead
        obtain ⟨huc, hrest⟩ := isWalk_cons_cons.mp hw
        rw [List.getLast?_cons_cons] at hlast
        exact ⟨c, mem_children.mpr huc, c :: rest,
          ih.mpr ⟨hrest, Nat.succ.inj hlen, rfl, hlast⟩, rfl⟩

theorem exists_isPath_iff [Scalar α] (hg : g.WellFormed) {source target : String}
    (ht : target ∈ g.ids) :
    (∃ p, g.IsPath source target p) ↔ source = target ∨ g.Reaches source target := by
  constructor
  · rintro ⟨p, hw, -, hhead, hlast⟩
    match p with
    | [v] => exact .inl ((Option.some.inj hhead).symm.trans (Option.some.inj hlast))
    | u :: v :: rest =>
      obtain rfl := Option.some.inj hhead
      rw [List.getLast?_cons_cons] at hlast
      exact .inr ((List.pairwise_cons.mp hw.pairwise_reaches).1 target
        (List.mem_of_getLast? hlast))
  · rintro (rfl | h)
    · exact ⟨[source], ht, List.nodup_singleton _, rfl, rfl⟩
    · have : ∃ p, g.IsWalk p ∧ p.head? = some source ∧ p.getLast? = some target := by
        induction h with
        | edge he => exact ⟨[_, _], ⟨⟨_, he, rfl, rfl⟩, (hg.known _ he).2⟩, rfl, rfl⟩
        | step he _ ih =>
          obtain ⟨p, hw, hhead, hlast⟩ := ih ht
          match p, hhead with
          | v :: rest, hhead =>
            obtain rfl := Option.some.inj hhead
            exact ⟨_ :: _ :: rest, ⟨⟨_, he, rfl, rfl⟩, hw⟩, rfl,
              by rw [List.getLast?_cons_cons, hlast]⟩
      obtain ⟨p, hw, hhead, hlast⟩ := this
      exact ⟨p, hw, hw.nodup hg, hhead, hlast⟩

end IsWalk

/-! ## 5. All paths -/

/-- Fewer edges come first; among as many edges the ids decide, compared byte by byte. -/
def PathBefore (p q : List String) : Prop :=
  p.length < q.length ∨ (p.length = q.length ∧ p.map utf8 < q.map utf8)

instance pathBefore_asymm : Std.Asymm PathBefore where
  asymm p q hpq hqp := by
    rcases hpq with hpq | ⟨hlen, hpq⟩ <;> rcases hqp with hqp | ⟨hlen', hqp⟩
    · omega
    · omega
    · omega
    · exact lt_asymm (utf8s_lt_utf8s.mp hpq) (utf8s_lt_utf8s.mp hqp)

/-- All paths between two nodes, by number of edges and then by ids. -/
def allPaths (g : CausalGraph α) (source target : String) : List (List String) :=
  (List.range g.ids.length).flatMap fun n => (g.search target).walks n source

section AllPaths

variable {source target : String}

/-- Walks of one length after another stand in order. -/
theorem flatMap_walks_pairwise (ns : List Nat) (hns : ns.Pairwise (· < ·)) :
    (ns.flatMap fun n => (g.search target).walks n source).Pairwise PathBefore := by
  rw [List.pairwise_flatMap]
  constructor
  · intro n _
    refine (PathSearch.walks_increasing (children_increasing g) n source).imp_of_mem ?_
    intro p q hp hq hpq
    exact .inr ⟨by rw [PathSearch.length_of_mem_walks hp, PathSearch.length_of_mem_walks hq],
      utf8s_lt_utf8s.mpr hpq⟩
  · refine hns.imp ?_
    intro m n hmn p hp q hq
    refine .inl ?_
    rw [PathSearch.length_of_mem_walks hp, PathSearch.length_of_mem_walks hq]
    omega

theorem allPaths_pairwise : (g.allPaths source target).Pairwise PathBefore :=
  flatMap_walks_pairwise _ List.pairwise_lt_range

theorem IsWalk.subset_ids (hk : g.KnownEnds) {p : List String} (h : g.IsWalk p) : p ⊆ g.ids := by
  induction p with
  | nil => exact List.nil_subset _
  | cons u p ih =>
    cases p with
    | nil => exact List.cons_subset.mpr ⟨h, List.nil_subset _⟩
    | cons v rest =>
      obtain ⟨huv, hw⟩ := isWalk_cons_cons.mp h
      exact List.cons_subset.mpr ⟨huv.source_mem hk, ih hw⟩

variable [Scalar α] (hg : g.WellFormed)

include hg

/-- **`allPaths` lists exactly the paths.** -/
theorem mem_allPaths (ht : target ∈ g.ids) {p : List String} :
    p ∈ g.allPaths source target ↔ g.IsPath source target p := by
  rw [allPaths, List.mem_flatMap]
  constructor
  · rintro ⟨n, -, hp⟩
    obtain ⟨hw, -, hhead, hlast⟩ := (mem_walks_iff ht).mp hp
    exact ⟨hw, hw.nodup hg, hhead, hlast⟩
  · rintro ⟨hw, hnd, hhead, hlast⟩
    have hlen : p.length ≤ g.ids.length := (hnd.subperm (hw.subset_ids hg.known)).length_le
    have hpos : 0 < p.length := List.length_pos_of_mem (List.mem_of_head? hhead)
    exact ⟨p.length - 1, List.mem_range.mpr (by omega),
      (mem_walks_iff ht).mpr ⟨hw, by omega, hhead, hlast⟩⟩

/-- Increasing lengths that miss no walk give all paths. -/
theorem flatMap_walks_eq_allPaths (ht : target ∈ g.ids) {ns : List Nat} (hns : ns.Pairwise (· < ·))
    (hall : ∀ n, (g.search target).walks n source ≠ [] → n ∈ ns) :
    (ns.flatMap fun n => (g.search target).walks n source) = g.allPaths source target := by
  refine List.Pairwise.eq_of_mem_iff (flatMap_walks_pairwise ns hns) allPaths_pairwise fun p => ?_
  rw [mem_allPaths hg ht, List.mem_flatMap]
  constructor
  · rintro ⟨n, -, hp⟩
    obtain ⟨hw, -, hhead, hlast⟩ := (mem_walks_iff ht).mp hp
    exact ⟨hw, hw.nodup hg, hhead, hlast⟩
  · intro hp
    obtain ⟨n, -, hp⟩ := List.mem_flatMap.mp ((mem_allPaths hg ht).mpr hp)
    exact ⟨n, hall n (List.ne_nil_of_mem hp), hp⟩

/-- **The search gives the first of all paths.** -/
theorem paths_eq_take_allPaths (hs : source ∈ g.ids) (ht : target ∈ g.ids) (limit : Nat) :
    g.paths source target limit = .ok ((g.allPaths source target).take limit) := by
  have hwalk (n : Nat) (hw : (g.search target).walks n source ≠ []) :=
    exists_distance_of_walk hg (List.nil_append _).symm (hg.mem_order.mpr hs) hw
  rw [paths, if_neg (by simpa using hs), if_neg (by simpa using ht)]
  by_cases hlimit : limit = 0
  · rw [if_pos hlimit, hlimit, List.take_zero]
  · rw [if_neg hlimit]
    dsimp only
    split
    · rename_i hnone
      have hnil : g.allPaths source target = [] := by
        rw [← flatMap_walks_eq_allPaths hg ht List.Pairwise.nil, List.flatMap_nil]
        intro n hw
        obtain ⟨d, hd, -⟩ := hwalk n hw
        rw [search] at hnone
        rw [hd] at hnone
        exact nomatch hnone
      rw [hnil, List.take_nil]
    · rename_i d hd
      rw [PathSearch.lengths_eq_take (search_admits hg ht), flatMap_walks_eq_allPaths hg ht
        List.pairwise_lt_range']
      intro n hw
      obtain ⟨e, he, hshort, hlong⟩ := hwalk n hw
      obtain rfl : d = e := Option.some.inj (hd.symm.trans he)
      rw [List.mem_range'_1]
      omega

theorem allPaths_eq_nil_iff (ht : target ∈ g.ids) :
    g.allPaths source target = [] ↔ ¬ (source = target ∨ g.Reaches source target) := by
  rw [← exists_isPath_iff hg ht, List.eq_nil_iff_forall_not_mem, not_exists]
  exact forall_congr' fun p => not_congr (mem_allPaths hg ht)

/-- From a node to itself there is only the path without edges. -/
theorem allPaths_self (hs : source ∈ g.ids) : g.allPaths source source = [[source]] := by
  refine List.Pairwise.eq_of_mem_iff allPaths_pairwise
    (List.pairwise_singleton PathBefore [source]) fun p => ?_
  rw [mem_allPaths hg hs, List.mem_singleton]
  constructor
  · rintro ⟨-, hnd, hhead, hlast⟩
    match p with
    | [v] => rw [Option.some.inj hhead]
    | u :: v :: rest =>
      rw [List.getLast?_cons_cons] at hlast
      exact absurd (Option.some.inj hhead ▸ List.mem_of_getLast? hlast)
        (List.nodup_cons.mp hnd).1
  · rintro rfl
    exact ⟨hs, List.nodup_singleton _, rfl, rfl⟩

end AllPaths

section Order

theorem isWalk_congr {g' : CausalGraph α} (hids : ∀ v, v ∈ g.ids ↔ v ∈ g'.ids)
    (hedges : ∀ u v, g.HasEdge u v ↔ g'.HasEdge u v) {p : List String} :
    g.IsWalk p ↔ g'.IsWalk p := by
  induction p with
  | nil => exact Iff.rfl
  | cons u p ih =>
    cases p with
    | nil => exact hids u
    | cons v rest => rw [isWalk_cons_cons, isWalk_cons_cons, hedges, ih]

variable [Scalar α]

/-- The paths depend on the nodes and edges given, not on their order. -/
theorem allPaths_eq_of_perm {g' : CausalGraph α} {nodes nodes' : List Element}
    {edges edges' : List (Edge α)} (hg : ofParts nodes edges = .ok g)
    (hg' : ofParts nodes' edges' = .ok g') (hn : nodes'.Perm nodes) (he : edges'.Perm edges)
    {source target : String} (ht : target ∈ g.ids) :
    g'.allPaths source target = g.allPaths source target := by
  have hids (v : String) : v ∈ g'.ids ↔ v ∈ g.ids := by
    rw [ids_of_ofParts hg, ids_of_ofParts hg']
    exact (hn.map _).mem_iff
  have hedges (u v : String) : g'.HasEdge u v ↔ g.HasEdge u v := by
    rw [hasEdge_of_ofParts hg, hasEdge_of_ofParts hg']
    simp only [he.mem_iff]
  refine List.Pairwise.eq_of_mem_iff allPaths_pairwise allPaths_pairwise fun p => ?_
  rw [mem_allPaths (wellFormed_of_ofParts hg) ht,
    mem_allPaths (wellFormed_of_ofParts hg') ((hids _).mpr ht), IsPath, IsPath,
    isWalk_congr hids hedges]

/-- **Between two nodes of an accepted graph `paths` gives the first of all directed paths, those
with fewer edges first and then by the bytes of their ids, whatever order the parts came in.** -/
theorem paths_are_first_of_all {nodes : List Element} {edges : List (Edge α)}
    {source target : String} (hg : ofParts nodes edges = .ok g) (hs : source ∈ g.ids)
    (ht : target ∈ g.ids) :
    ∃ all : List (List String),
      (∀ p, p ∈ all ↔ g.IsPath source target p) ∧ all.Pairwise PathBefore ∧
      (∀ limit, g.paths source target limit = .ok (all.take limit)) ∧
      (∀ limit, all.take limit = [] ↔
        limit = 0 ∨ ¬ (source = target ∨ g.Reaches source target)) ∧
      (source = target → ∀ limit, 0 < limit → all.take limit = [[source]]) ∧
      ∀ nodes' edges' g', nodes'.Perm nodes → edges'.Perm edges →
        ofParts nodes' edges' = .ok g' →
        ∀ limit, g'.paths source target limit = .ok (all.take limit) := by
  have hwf := wellFormed_of_ofParts hg
  refine ⟨g.allPaths source target, fun p => mem_allPaths hwf ht, allPaths_pairwise,
    paths_eq_take_allPaths hwf hs ht, ?_, ?_, ?_⟩
  · intro limit
    rw [List.take_eq_nil_iff, allPaths_eq_nil_iff hwf ht]
  · rintro rfl limit hlimit
    rw [allPaths_self hwf hs, List.take_of_length_le (by rw [List.length_singleton]; omega)]
  · intro nodes' edges' g' hn he hg' limit
    have hids (v : String) : v ∈ g.ids → v ∈ g'.ids := by
      rw [ids_of_ofParts hg, ids_of_ofParts hg']
      exact (hn.map _).mem_iff.mpr
    rw [paths_eq_take_allPaths (wellFormed_of_ofParts hg') (hids _ hs) (hids _ ht),
      allPaths_eq_of_perm hg hg' hn he ht]

/-- The diamond is accepted, and of its three paths a search for two gives the short one and the
first of the long ones. -/
theorem paths_are_first_of_all_diamond :
    ofParts diamondNodes diamondEdges = .ok diamond ∧ "a" ∈ diamond.ids ∧ "d" ∈ diamond.ids ∧
      diamond.paths "a" "d" 2 = .ok [["a", "d"], ["a", "b", "d"]] ∧
      ∃ all : List (List String),
        (∀ p, p ∈ all ↔ diamond.IsPath "a" "d" p) ∧ all.Pairwise PathBefore ∧
        (∀ limit, diamond.paths "a" "d" limit = .ok (all.take limit)) := by
  have hg := ofParts_diamond
  have ha : "a" ∈ diamond.ids := by decide
  have hd : "d" ∈ diamond.ids := by decide
  obtain ⟨all, hall, hsorted, htake, -⟩ := paths_are_first_of_all hg ha hd
  exact ⟨hg, ha, hd, by cbv, all, hall, hsorted, htake⟩

end Order

end CausalGraph

end CodeCausality
