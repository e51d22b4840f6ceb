import CodeCausality.Graph.Layers
import CodeCausality.Proofs.Graph.Gain

/-!
# Layers are longest paths

The layer of a node is computed in one pass along the topological order, from the depths of those of
its causes that came before:

* `foldl_max_le_iff` -- the pass takes least upper bounds;
* `lookup_depths` -- all causes come before, so **the depth of a node is one more than the greatest
  depth of its causes** (`depth_lt_of_hasEdge`, `depth_eq_zero_iff`);
* `depth_add_length_le`, `exists_walk_of_depth` -- so no walk to a node is longer than its depth, and
  one from a root is as long, by induction on the walk and on the depth;
* `exists_depth_of_le` -- below a depth that occurs, every depth occurs;
* `getElem?_byDepth`, `byDepth_concat`, `filledLayers_eq` -- the layers of a list of depths, and that
  **filling them node by node gives the same**;
* `inLayer_iff`, `flatten_layers_perm` -- a layer holds the nodes of its depth, and all layers each
  node once;
* `layers_by_longest_path` -- the conclusion.
-/

namespace CodeCausality

namespace Dot

/-! ## 1. Greatest depths -/

theorem foldl_max_le_iff {β : Type} (f : β → Nat) {xs : List β} {a n : Nat} :
    xs.foldl (fun d x => max d (f x + 1)) a ≤ n ↔ a ≤ n ∧ ∀ x ∈ xs, f x < n := by
  induction xs generalizing a with
  | nil => simp
  | cons x xs ih =>
    rw [List.foldl_cons, ih, max_le_iff, List.forall_mem_cons, and_assoc, Nat.succ_le_iff]

theorem lt_foldl_max {β : Type} (f : β → Nat) {xs : List β} {x : β} (hx : x ∈ xs) :
    f x < xs.foldl (fun d x => max d (f x + 1)) 0 :=
  ((foldl_max_le_iff f).mp (le_refl _)).2 x hx

/-- The greatest depth is attained. -/
theorem exists_of_lt_foldl_max {β : Type} (f : β → Nat) {xs : List β} {n : Nat}
    (h : n < xs.foldl (fun d x => max d (f x + 1)) 0) : ∃ x ∈ xs, n ≤ f x := by
  refine Classical.byContradiction fun hnone => ?_
  have hle : xs.foldl (fun d x => max d (f x + 1)) 0 ≤ n :=
    (foldl_max_le_iff f).mpr ⟨Nat.zero_le n, fun x hx =>
      Nat.lt_of_not_le fun hn => hnone ⟨x, hx, hn⟩⟩
  omega

section DepthOf

variable {known : List (String × Nat)} {parents : List String}

theorem lt_depthOf {p : String} {d : Nat} (hp : p ∈ parents) (h : known.lookup p = some d) :
    d < depthOf known parents :=
  lt_foldl_max id (List.mem_filterMap.mpr ⟨p, hp, h⟩)

theorem exists_of_lt_depthOf {n : Nat} (h : n < depthOf known parents) :
    ∃ p ∈ parents, ∃ d, known.lookup p = some d ∧ n ≤ d := by
  obtain ⟨d, hd, hn⟩ := exists_of_lt_foldl_max id h
  obtain ⟨p, hp, hlookup⟩ := List.mem_filterMap.mp hd
  exact ⟨p, hp, d, hlookup, hn⟩

end DepthOf

/-! ## 2. Depths along the order -/

variable {α : Type} {g : CausalGraph α} {u v : String}

theorem depths_concat (g : CausalGraph α) (order : List String) (id : String) :
    depths g (order ++ [id]) =
      (id, depthOf (depths g order) (g.parents id)) :: depths g order := by
  rw [depths, List.foldl_concat]
  rfl

theorem map_fst_depths (g : CausalGraph α) (order : List String) :
    (depths g order).map (·.1) = order.reverse := by
  induction order using List.reverseRecOn with
  | nil => rfl
  | append_singleton order id ih =>
    rw [depths_concat, List.map_cons, ih, List.reverse_concat]

/-- What comes later leaves a depth as it is. -/
theorem lookup_depths_append {pre post : List String} (hv : v ∉ post) :
    (depths g (pre ++ post)).lookup v = (depths g pre).lookup v := by
  induction post using List.reverseRecOn with
  | nil => rw [List.append_nil]
  | append_singleton post id ih =>
    rw [List.mem_append, List.mem_singleton, not_or] at hv
    rw [← List.append_assoc, depths_concat, List.lookup_cons, beq_false_of_ne hv.2]
    exact ih hv.1

/-- The depth of a node. -/
def depth (g : CausalGraph α) (v : String) : Nat :=
  ((depths g g.topologicalOrder).lookup v).getD 0

section Accepted

variable [Scalar α] (hg : g.WellFormed)

include hg

theorem exists_order_eq (hv : v ∈ g.ids) :
    ∃ pre post, g.topologicalOrder = pre ++ v :: post ∧ v ∉ pre ∧ v ∉ post := by
  obtain ⟨pre, post, heq, hpre⟩ := List.eq_append_cons_of_mem (hg.mem_order.mpr hv)
  have hnodup := hg.order_nodup
  rw [heq, List.nodup_append] at hnodup
  exact ⟨pre, post, heq, hpre, (List.nodup_cons.mp hnodup.2.1).1⟩

theorem mem_pre_of_hasEdge {pre post : List String} (heq : g.topologicalOrder = pre ++ v :: post)
    (huv : g.HasEdge u v) : u ∈ pre := by
  obtain ⟨rest, htaken⟩ := CausalGraph.topologicalOrder_taken hg.distinctNodes
  exact htaken.before pre v post heq u (huv.source_mem hg.known) huv

/-- The node has its depth, and this is one that follows from the depths of its causes. -/
theorem lookup_depths (hv : v ∈ g.ids) :
    (depths g g.topologicalOrder).lookup v = some (depth g v) ∧
      ∃ known, depth g v = depthOf known (g.parents v) ∧
        ∀ u ∈ g.parents v, known.lookup u = (depths g g.topologicalOrder).lookup u := by
  obtain ⟨pre, post, heq, -, hpost⟩ := exists_order_eq hg hv
  have hlookup : (depths g g.topologicalOrder).lookup v =
      some (depthOf (depths g pre) (g.parents v)) := by
    rw [heq, List.append_cons, lookup_depths_append hpost, depths_concat, List.lookup_cons,
      beq_self_eq_true]
  have hdepth : depth g v = depthOf (depths g pre) (g.parents v) := by
    rw [depth, hlookup, Option.getD_some]
  refine ⟨hdepth ▸ hlookup, depths g pre, hdepth, fun u hu => ?_⟩
  -- a cause stands before the node, so not among what follows
  have hpre : u ∈ pre := mem_pre_of_hasEdge hg heq (CausalGraph.mem_parents.mp hu)
  have hnodup := hg.order_nodup
  rw [heq] at hnodup
  rw [heq, lookup_depths_append fun hrest => (List.nodup_append.mp hnodup).2.2 u hpre u hrest rfl]

theorem lookup_eq_depth (hv : v ∈ g.ids) :
    (depths g g.topologicalOrder).lookup v = some (depth g v) := (lookup_depths hg hv).1

/-- **An edge leads to a greater depth.** -/
theorem depth_lt_of_hasEdge (h : g.HasEdge u v) : depth g u < depth g v := by
  obtain ⟨-, known, hdepth, hknown⟩ := lookup_depths hg (h.target_mem hg.known)
  have hu := CausalGraph.mem_parents.mpr h
  rw [hdepth]
  refine lt_depthOf hu ?_
  rw [hknown u hu, lookup_eq_depth hg (h.source_mem hg.known)]

/-- **A depth that is not zero is one more than that of a cause.** -/
theorem exists_hasEdge_of_depth {n : Nat} (hv : v ∈ g.ids) (h : depth g v = n + 1) :
    ∃ u, g.HasEdge u v ∧ depth g u = n := by
  obtain ⟨-, known, hdepth, hknown⟩ := lookup_depths hg hv
  obtain ⟨u, hu, d, hd, hn⟩ := exists_of_lt_depthOf (by omega : n < depthOf known (g.parents v))
  have huv := CausalGraph.mem_parents.mp hu
  rw [hknown u hu, lookup_eq_depth hg (huv.source_mem hg.known)] at hd
  obtain rfl := Option.some.inj hd
  have hlt := depth_lt_of_hasEdge hg huv
  exact ⟨u, huv, by omega⟩

theorem depth_eq_zero_iff (hv : v ∈ g.ids) : depth g v = 0 ↔ g.isRoot v = true := by
  rw [CausalGraph.isRoot_iff hv]
  constructor
  · intro hzero
    refine List.eq_nil_iff_forall_not_mem.mpr fun u hu => ?_
    have := depth_lt_of_hasEdge hg (CausalGraph.mem_parents.mp hu)
    omega
  · intro hroot
    refine Classical.byContradiction fun hne => ?_
    obtain ⟨u, huv, -⟩ := exists_hasEdge_of_depth hg hv (Nat.succ_pred_eq_of_ne_zero hne).symm
    rw [← CausalGraph.mem_parents, hroot] at huv
    exact List.not_mem_nil huv

/-! ## 3. Depths and paths -/

/-- By induction on the walk: each edge of it leads to a greater depth. -/
theorem depth_add_length_le {rest : List String} (h : g.IsWalk (u :: rest))
    (hlast : (u :: rest).getLast? = some v) : depth g u + rest.length ≤ depth g v := by
  induction rest generalizing u with
  | nil =>
    obtain rfl := Option.some.inj hlast
    exact le_refl _
  | cons w rest ih =>
    obtain ⟨huw, hrest⟩ := CausalGraph.isWalk_cons_cons.mp h
    rw [List.getLast?_cons_cons] at hlast
    have hle := ih hrest hlast
    have hlt := depth_lt_of_hasEdge hg huw
    rw [List.length_cons]
    omega

/-- By induction on the depth: from a cause whose depth is one less a walk is one edge longer. -/
theorem exists_walk_of_depth {n : Nat} (hv : v ∈ g.ids) (h : depth g v = n) :
    ∃ r p, g.isRoot r = true ∧ g.IsWalk p ∧ p.head? = some r ∧ p.getLast? = some v ∧
      p.length = n + 1 := by
  induction n generalizing v with
  | zero => exact ⟨v, [v], (depth_eq_zero_iff hg hv).mp h, hv, rfl, rfl, rfl⟩
  | succ n ih =>
    obtain ⟨u, huv, hu⟩ := exists_hasEdge_of_depth hg hv h
    obtain ⟨r, p, hr, hwalk, hhead, hlast, hlen⟩ := ih (huv.source_mem hg.known) hu
    refine ⟨r, p ++ [v], hr, (CausalGraph.isWalk_concat hg.known hlast).mpr ⟨hwalk, huv⟩, ?_,
      List.getLast?_concat, by rw [List.length_append, hlen, List.length_singleton]⟩
    rw [List.head?_append, hhead, Option.some_or]

/-- Below a depth that occurs, every depth occurs. -/
theorem exists_depth_of_le {d : Nat} (hv : v ∈ g.ids) (h : d ≤ depth g v) :
    ∃ u ∈ g.ids, depth g u = d := by
  induction hn : depth g v generalizing v with
  | zero => exact ⟨v, hv, by omega⟩
  | succ n ih =>
    by_cases hd : d = n + 1
    · exact ⟨v, hv, hn.trans hd.symm⟩
    · obtain ⟨u, huv, hu⟩ := exists_hasEdge_of_depth hg hv hn
      exact ih (huv.source_mem hg.known) (by omega) hu

end Accepted

/-- The number of edges on a longest path from any root to the node. -/
def IsDepth (g : CausalGraph α) (v : String) (d : Nat) : Prop :=
  (∃ r p, g.isRoot r = true ∧ g.IsPath r v p ∧ p.length = d + 1) ∧
    ∀ r p, g.isRoot r = true → g.IsPath r v p → p.length ≤ d + 1

/-- **The depth is the length of a longest path from a root.** -/
theorem isDepth_depth [Scalar α] (hg : g.WellFormed) (hv : v ∈ g.ids) :
    IsDepth g v (depth g v) := by
  constructor
  · obtain ⟨r, p, hr, hwalk, hhead, hlast, hlen⟩ := exists_walk_of_depth hg hv rfl
    exact ⟨r, p, hr, ⟨hwalk, hwalk.nodup hg, hhead, hlast⟩, hlen⟩
  · rintro r p - ⟨hwalk, -, -, hlast⟩
    cases p with
    | nil => exact nomatch hlast
    | cons u rest =>
      have hle := depth_add_length_le hg hwalk hlast
      rw [List.length_cons]
      omega

/-! ## 4. Layers of depths -/

/-- The number of layers that the depths fill. -/
def heightOf (placed : List (String × Nat)) : Nat :=
  placed.foldl (fun h p => max h (p.2 + 1)) 0

/-- The nodes of a depth. -/
def atDepth (placed : List (String × Nat)) (d : Nat) : List String :=
  (placed.filter fun p => p.2 == d).map (·.1)

/-- The layers of the nodes by their depths. -/
def byDepth (placed : List (String × Nat)) : List (List String) :=
  (List.range (heightOf placed)).map (atDepth placed)

theorem layers_eq_byDepth (g : CausalGraph α) :
    layers g = byDepth (depths g g.topologicalOrder).reverse := rfl

section Placed

variable {placed : List (String × Nat)} {d : Nat}

theorem length_byDepth (placed : List (String × Nat)) :
    (byDepth placed).length = heightOf placed := by
  rw [byDepth, List.length_map, List.length_range]

theorem heightOf_concat (placed : List (String × Nat)) (p : String × Nat) :
    heightOf (placed ++ [p]) = max (heightOf placed) (p.2 + 1) := List.foldl_concat ..

theorem lt_heightOf (h : (v, d) ∈ placed) : d < heightOf placed :=
  lt_foldl_max (fun p : String × Nat => p.2) h

theorem mem_atDepth : v ∈ atDepth placed d ↔ (v, d) ∈ placed := by
  rw [atDepth, List.mem_map]
  constructor
  · rintro ⟨⟨w, e⟩, hmem, rfl⟩
    obtain ⟨hp, hd⟩ := List.mem_filter.mp hmem
    obtain rfl : e = d := beq_iff_eq.mp hd
    exact hp
  · exact fun hmem => ⟨(v, d), List.mem_filter.mpr ⟨hmem, beq_self_eq_true _⟩, rfl⟩

/-- Beyond the last layer there is nothing. -/
theorem atDepth_of_heightOf_le (h : heightOf placed ≤ d) : atDepth placed d = [] :=
  List.eq_nil_iff_forall_not_mem.mpr fun _ hv =>
    absurd (lt_heightOf (mem_atDepth.mp hv)) (Nat.not_lt_of_le h)

theorem atDepth_concat (placed : List (String × Nat)) (id : String) (d e : Nat) :
    atDepth (placed ++ [(id, d)]) e =
      if d = e then atDepth placed e ++ [id] else atDepth placed e := by
  rw [atDepth, List.filter_append, List.map_append]
  split <;> simp [atDepth, *]

theorem getElem?_byDepth {l : List String} :
    (byDepth placed)[d]? = some l ↔ d < heightOf placed ∧ atDepth placed d = l := by
  rw [byDepth, List.getElem?_map, Option.map_eq_some_iff]
  constructor
  · rintro ⟨i, hi, rfl⟩
    obtain ⟨hlt, rfl⟩ := List.getElem?_eq_some_iff.mp hi
    rw [List.length_range] at hlt
    rw [List.getElem_range]
    exact ⟨hlt, rfl⟩
  · rintro ⟨hlt, rfl⟩
    exact ⟨d, List.getElem?_range hlt, rfl⟩

/-- With empty layers added, each layer up to the last holds the nodes of its depth. -/
theorem getElem?_extended {e : Nat} (h : e < heightOf placed ∨ e ≤ d) :
    (byDepth placed ++ List.replicate (d + 1 - heightOf placed) [])[e]? =
      some (atDepth placed e) := by
  by_cases he : e < heightOf placed
  · rw [List.getElem?_append_left ((length_byDepth placed).symm ▸ he)]
    exact getElem?_byDepth.mpr ⟨he, rfl⟩
  · have hle : heightOf placed ≤ e := Nat.le_of_not_lt he
    rw [List.getElem?_append_right ((length_byDepth placed).le.trans hle), length_byDepth,
      List.getElem?_replicate_of_lt (by omega), atDepth_of_heightOf_le hle]

/-- One more node goes to the end of the layer of its depth. -/
theorem byDepth_concat (placed : List (String × Nat)) (id : String) (d : Nat) :
    byDepth (placed ++ [(id, d)]) = place (byDepth placed) d id := by
  refine List.ext_getElem? fun e => ?_
  have hheight := heightOf_concat placed (id, d)
  rw [place, List.getElem?_modify, length_byDepth]
  by_cases he : e < heightOf (placed ++ [(id, d)])
  · rw [getElem?_byDepth.mpr ⟨he, rfl⟩, getElem?_extended (by omega), atDepth_concat]
    split <;> rfl
  · rw [List.getElem?_eq_none (by rw [length_byDepth]; omega), List.getElem?_eq_none]
    · rfl
    · rw [List.length_append, length_byDepth, List.length_replicate]
      omega

end Placed

/-- **Filling the layers node by node gives the layers of the depths.** -/
theorem foldl_step (g : CausalGraph α) (order : List String) :
    order.foldl (Filling.step g) .empty = ⟨depths g order, byDepth (depths g order).reverse⟩ := by
  induction order using List.reverseRecOn with
  | nil => rfl
  | append_singleton order id ih =>
    rw [List.foldl_concat, ih, depths_concat, List.reverse_cons, byDepth_concat]
    rfl

theorem filledLayers_eq (g : CausalGraph α) : filledLayers g = layers g := by
  rw [filledLayers, foldl_step, layers_eq_byDepth]

/-! ## 5. Layers of a graph -/

/-- The node is in the layer of this number. -/
def InLayer (g : CausalGraph α) (d : Nat) (v : String) : Prop :=
  ∃ l, (layers g)[d]? = some l ∧ v ∈ l

section Accepted

variable [Scalar α] (hg : g.WellFormed)

include hg

theorem nodup_depths : ((depths g g.topologicalOrder).reverse.map (·.1)).Nodup := by
  rw [List.map_reverse, map_fst_depths, List.reverse_reverse]
  exact hg.order_nodup

theorem mem_depths_iff {d : Nat} :
    (v, d) ∈ (depths g g.topologicalOrder).reverse ↔ v ∈ g.ids ∧ depth g v = d := by
  rw [List.mem_reverse]
  constructor
  · intro hmem
    have hnodup := nodup_depths hg
    rw [List.map_reverse, List.nodup_reverse] at hnodup
    have hv : v ∈ g.ids := by
      rw [← hg.mem_order, ← List.mem_reverse, ← map_fst_depths g]
      exact List.mem_map_of_mem hmem
    exact ⟨hv, Option.some.inj ((lookup_eq_depth hg hv).symm.trans (lookup_of_nodup hnodup hmem))⟩
  · rintro ⟨hv, rfl⟩
    obtain ⟨before, after, heq, -⟩ := List.lookup_eq_some_iff.mp (lookup_eq_depth hg hv)
    rw [heq]
    exact List.mem_append_right _ List.mem_cons_self

/-- **A layer holds the nodes of its depth.** -/
theorem inLayer_iff {d : Nat} : InLayer g d v ↔ v ∈ g.ids ∧ depth g v = d := by
  rw [← mem_depths_iff hg]
  constructor
  · rintro ⟨l, hl, hv⟩
    obtain ⟨-, rfl⟩ := getElem?_byDepth.mp hl
    exact mem_atDepth.mp hv
  · exact fun hmem => ⟨_, getElem?_byDepth.mpr ⟨lt_heightOf hmem, rfl⟩, mem_atDepth.mpr hmem⟩

theorem existsUnique_layer (hv : v ∈ g.ids) : ∃! d, InLayer g d v :=
  ⟨depth g v, (inLayer_iff hg).mpr ⟨hv, rfl⟩, fun _ h => ((inLayer_iff hg).mp h).2.symm⟩

/-- A layer lies above a node of its depth or a greater one, so there is one of its depth. -/
theorem ne_nil_of_mem_layers {l : List String} (hl : l ∈ layers g) : l ≠ [] := by
  obtain ⟨d, hd⟩ := List.mem_iff_getElem?.mp hl
  have hlt := (getElem?_byDepth.mp hd).1
  obtain ⟨⟨v, e⟩, hmem, hle⟩ := exists_of_lt_foldl_max (fun p : String × Nat => p.2) hlt
  obtain ⟨hv, rfl⟩ := (mem_depths_iff hg).mp hmem
  obtain ⟨u, hu, hdepth⟩ := exists_depth_of_le hg hv hle
  obtain ⟨l', hl', hmem'⟩ := (inLayer_iff hg).mpr ⟨hu, hdepth⟩
  obtain rfl := Option.some.inj (hd.symm.trans hl')
  exact List.ne_nil_of_mem hmem'

theorem nodup_flatten_layers : (layers g).flatten.Nodup := by
  rw [List.nodup_flatten]
  constructor
  · intro l hl
    obtain ⟨d, -, rfl⟩ := List.mem_map.mp hl
    exact (nodup_depths hg).sublist (List.filter_sublist.map _)
  · refine List.pairwise_map.mpr (List.pairwise_lt_range.imp fun {i j} hij => ?_)
    refine List.disjoint_left.mpr fun v hi hj => hij.ne ?_
    rw [← ((mem_depths_iff hg).mp (mem_atDepth.mp hi)).2,
      ((mem_depths_iff hg).mp (mem_atDepth.mp hj)).2]

/-- **The layers hold each node once.** -/
theorem flatten_layers_perm : (layers g).flatten.Perm g.ids := by
  refine (List.perm_ext_iff_of_nodup (nodup_flatten_layers hg) hg.distinctNodes).mpr fun v => ?_
  rw [List.mem_flatten]
  constructor
  · rintro ⟨l, hl, hv⟩
    obtain ⟨d, hd⟩ := List.mem_iff_getElem?.mp hl
    exact ((inLayer_iff hg).mp ⟨l, hd, hv⟩).1
  · intro hv
    obtain ⟨l, hl, hmem⟩ := (inLayer_iff hg).mpr ⟨hv, rfl⟩
    exact ⟨l, List.mem_of_getElem? hl, hmem⟩

end Accepted

/-- **The layers of an accepted graph go by longest paths.** They hold each node once, and no layer is
empty. The number of the layer of a node is the number of edges on a longest path from any root to it,
zero for the roots only, and each edge leads from a layer to one below. Filling the layers node by
node gives the same. -/
theorem layers_by_longest_path [Scalar α] {nodes : List Element} {edges : List (Edge α)}
    {g : CausalGraph α} (hg : CausalGraph.ofParts nodes edges = .ok g) :
    filledLayers g = layers g ∧ (layers g).flatten.Perm g.ids ∧ (∀ l ∈ layers g, l ≠ []) ∧
      (∀ v ∈ g.ids, ∃! d, InLayer g d v) ∧
      (∀ d v, InLayer g d v → IsDepth g v d ∧ (d = 0 ↔ g.isRoot v = true)) ∧
      ∀ u v, g.HasEdge u v → ∃ i j, InLayer g i u ∧ InLayer g j v ∧ i < j := by
  have hwell := CausalGraph.wellFormed_of_ofParts hg
  refine ⟨filledLayers_eq g, flatten_layers_perm hwell, fun l => ne_nil_of_mem_layers hwell,
    fun v => existsUnique_layer hwell, fun d v hlayer => ?_, fun u v huv => ?_⟩
  · obtain ⟨hv, rfl⟩ := (inLayer_iff hwell).mp hlayer
    exact ⟨isDepth_depth hwell hv, depth_eq_zero_iff hwell hv⟩
  · exact ⟨depth g u, depth g v, (inLayer_iff hwell).mpr ⟨huv.source_mem hwell.known, rfl⟩,
      (inLayer_iff hwell).mpr ⟨huv.target_mem hwell.known, rfl⟩, depth_lt_of_hasEdge hwell huv⟩

/-- In the diamond the last node has one edge from the root and paths of two, so it is two layers
below. -/
theorem layers_by_longest_path_diamond :
    CausalGraph.ofParts CausalGraph.diamondNodes CausalGraph.diamondEdges =
        .ok CausalGraph.diamond ∧
      layers CausalGraph.diamond = [["a"], ["b", "c"], ["d"]] ∧
      CausalGraph.diamond.HasEdge "a" "d" ∧ IsDepth CausalGraph.diamond "d" 2 := by
  have hlayers : layers CausalGraph.diamond = [["a"], ["b", "c"], ["d"]] := by cbv
  have hlast : InLayer CausalGraph.diamond 2 "d" := ⟨["d"], by rw [hlayers]; rfl, List.mem_cons_self⟩
  have hedge : CausalGraph.diamond.HasEdge "a" "d" :=
    (CausalGraph.hasEdge_of_ofParts CausalGraph.ofParts_diamond).mpr
      ⟨⟨"a", "d", .dataFlow, none⟩, by simp [CausalGraph.diamondEdges], rfl, rfl⟩
  obtain ⟨-, -, -, -, hdepth, -⟩ := layers_by_longest_path CausalGraph.ofParts_diamond
  exact ⟨CausalGraph.ofParts_diamond, hlayers, hedge,
    (hdepth 2 "d" hlast).1⟩

end Dot

end CodeCausality
