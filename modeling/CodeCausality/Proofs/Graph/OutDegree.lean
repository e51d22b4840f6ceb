import CodeCausality.Graph.OutDegree
import CodeCausality.Graph.Paths
import CodeCausality.Proofs.Graph.Build
import CodeCausality.Proofs.Graph.Sinks

/-!
# Pruning by counting

Pruning with counters removes what pruning does that looks at the edges, and nothing is ever taken
away from a counter that is zero:

* `exists_lowerAll` -- counters that are large enough can be lowered, and by how much they are;
* `Counts` -- **the invariant: a counter is the number of edges to elements that are left**;
  `counts_outDegrees` at the start, `Counts.exists_lowerAll` for a round;
* `countedRounds_eq` -- rounds that keep it end, and end with what `prune` removes;
* `mem_removed_iff_of_sink` -- an element that leads nowhere is pruned exactly if it is a pure side
  effect;
* `removed_where_only_side_effects_follow` -- **what is pruned, what becomes of the edges, and that
  neither depends on the order in which elements and relations are given.**
-/

namespace CodeCausality

/-! ## 1. Counters -/

section Counters

variable {counters : Dictionary Nat} {id : String}

@[simp] theorem degree_insert (counters : Dictionary Nat) (k : String) (n : Nat) (id : String) :
    degree (counters.insert k n) id = if k = id then n else degree counters id := by
  unfold degree
  rw [Dictionary.get?_insert]
  split <;> rfl

/-- At first a counter is the number of edges that leave the element. -/
theorem degree_outDegrees {α : Type} (edges : List (Edge α)) (id : String) :
    degree (outDegrees edges) id = edges.countP fun e => e.source == id := by
  induction edges using List.reverseRecOn with
  | nil => rfl
  | append_singleton edges e ih =>
    have hlast : outDegrees (edges ++ [e]) =
        (outDegrees edges).insert e.source (degree (outDegrees edges) e.source + 1) := by
      unfold outDegrees
      rw [List.foldl_append]
      rfl
    rw [hlast, degree_insert, List.countP_append, ← ih, List.countP_singleton]
    by_cases h : e.source = id
    · simp [h]
    · simp [h]

/-- A counter above zero is lowered by one, and the others stay. -/
theorem exists_lower (h : 0 < degree counters id) :
    ∃ lowered, lower counters id = .ok lowered ∧
      ∀ j, degree lowered j + (if id = j then 1 else 0) = degree counters j := by
  unfold degree at h
  unfold lower
  cases hget : counters.get? id with
  | none => simp [hget] at h
  | some n =>
    cases n with
    | zero => simp [hget] at h
    | succ n =>
      refine ⟨counters.insert id n, rfl, fun j => ?_⟩
      rw [degree_insert]
      by_cases hj : id = j
      · subst hj
        simp [degree, hget]
      · simp [hj]

/-- Counters that are large enough for a list are so for the rest of it, once the first is
lowered. -/
theorem count_le_of_lowered {before after : String → Nat} {a : String} {rest : List String}
    (h : ∀ id, (a :: rest).count id ≤ before id)
    (hlower : ∀ id, after id + (if a = id then 1 else 0) = before id) (id : String) :
    rest.count id ≤ after id := by
  have hid := h id
  have hone := hlower id
  rw [List.count_cons] at hid
  by_cases ha : a = id
  · simp [ha] at hid hone
    omega
  · simp [ha] at hid hone
    omega

/-- What the first and the rest of a list take away is what the list does. -/
theorem add_count_cons {before between after : String → Nat} {a : String} {rest : List String}
    (hlower : ∀ id, between id + (if a = id then 1 else 0) = before id)
    (hrest : ∀ id, after id + rest.count id = between id) (id : String) :
    after id + (a :: rest).count id = before id := by
  rw [← hlower id, ← hrest id, List.count_cons]
  by_cases ha : a = id
  · simp [ha]
    omega
  · simp [ha]

/-- **Counters that are large enough can be lowered**, each as often as its element is listed. -/
theorem exists_lowerAll {ids : List String} (h : ∀ id, ids.count id ≤ degree counters id) :
    ∃ lowered, lowerAll counters ids = .ok lowered ∧
      ∀ id, degree lowered id + ids.count id = degree counters id := by
  induction ids generalizing counters with
  | nil => exact ⟨counters, rfl, fun id => by simp⟩
  | cons a rest ih =>
    have hpos : 0 < degree counters a := by
      have ha := h a
      rw [List.count_cons_self] at ha
      omega
    obtain ⟨once, honce, hdegree⟩ := exists_lower hpos
    obtain ⟨lowered, hlowered, hall⟩ := ih (count_le_of_lowered h hdegree)
    refine ⟨lowered, ?_, add_count_cons hdegree hall⟩
    unfold lowerAll
    rw [honce]
    exact hlowered

end Counters

/-! ## 2. Rounds -/

section Rounds

variable {α : Type} {isPure : Element → Bool} {nodes : List Element} {edges : List (Edge α)}
variable {counters : Dictionary Nat} {removed : List String}

/-- A counter is the number of edges from its element to elements that are not removed. -/
def Counts (edges : List (Edge α)) (removed : List String) (counters : Dictionary Nat) : Prop :=
  ∀ id, degree counters id =
    edges.countP fun e => e.source == id && !removed.contains e.target

theorem counts_outDegrees : Counts edges [] (outDegrees edges) := by
  intro id
  rw [degree_outDegrees]
  simp

theorem Counts.countedSinks_eq (h : Counts edges removed counters) :
    countedSinks isPure nodes counters removed = exposedSinks isPure nodes edges removed := by
  have hzero (id : String) : (degree counters id == 0) =
      !(edges.any fun e => e.source == id && !removed.contains e.target) := by
    rw [h id, Bool.eq_iff_iff, beq_iff_eq, List.countP_eq_zero, Bool.not_eq_true', List.any_eq_false]
  unfold countedSinks exposedSinks
  simp only [hzero]

/-- The edges to new sinks are as many less as are taken away. -/
theorem countP_split {sinks : List String} (hnew : ∀ id ∈ sinks, id ∉ removed) (id : String) :
    (edges.countP fun e => e.source == id && !removed.contains e.target) =
      (edges.countP fun e => e.source == id && !(removed ++ sinks).contains e.target) +
        ((edges.filter fun e => sinks.contains e.target).map (·.source)).count id := by
  have hcount : ((edges.filter fun e => sinks.contains e.target).map (·.source)).count id =
      edges.countP fun e => e.source == id && sinks.contains e.target := by
    rw [List.count_eq_countP, List.countP_map, List.countP_filter]
    rfl
  rw [hcount]
  clear hcount
  induction edges with
  | nil => rfl
  | cons e edges ih =>
    rw [List.countP_cons, List.countP_cons, List.countP_cons, ih]
    by_cases hs : e.target ∈ sinks
    · have hr : e.target ∉ removed := hnew _ hs
      by_cases hid : e.source = id
      · simp [hs, hr, hid]
        omega
      · simp [hid]
    · simp [hs]
      omega

/-- **A round lowers no counter below zero**, and each counts the remaining edges again. -/
theorem Counts.exists_lowerAll (h : Counts edges removed counters) {sinks : List String}
    (hnew : ∀ id ∈ sinks, id ∉ removed) :
    ∃ lowered, lowerAll counters
        ((edges.filter fun e => sinks.contains e.target).map (·.source)) = .ok lowered ∧
      Counts edges (removed ++ sinks) lowered := by
  have hsplit (id : String) := (h id).trans (countP_split hnew id)
  obtain ⟨lowered, hok, hdegree⟩ := CodeCausality.exists_lowerAll (fun id => by
    rw [hsplit id]
    exact Nat.le_add_left _ _)
  refine ⟨lowered, hok, fun id => ?_⟩
  have hid := hdegree id
  rw [hsplit id] at hid
  omega

/-- **Enough rounds end, whatever their number, with what the rounds remove that look at the
edges.** -/
theorem countedRounds_eq {rounds rounds' : Nat} (h : Counts edges removed counters)
    (hrounds : pendingCount nodes removed < rounds) (hrounds' : pendingCount nodes removed < rounds') :
    countedRounds isPure nodes edges rounds counters removed =
      .ok (pruneRounds isPure nodes edges rounds' removed) := by
  induction rounds generalizing rounds' counters removed with
  | zero => omega
  | succ rounds ih =>
    cases rounds' with
    | zero => omega
    | succ rounds' =>
      have hnew : ∀ id ∈ exposedSinks isPure nodes edges removed, id ∉ removed := by
        intro id hid
        obtain ⟨-, -, -, -, hold, -⟩ := mem_exposedSinks.mp hid
        exact hold
      have hless : exposedSinks isPure nodes edges removed ≠ [] → _ := pendingCount_round_lt
      obtain ⟨lowered, hok, hcounts⟩ := h.exists_lowerAll hnew
      rw [countedRounds, pruneRounds, h.countedSinks_eq]
      cases hsinks : exposedSinks isPure nodes edges removed with
      | nil => rfl
      | cons id sinks =>
        rw [hsinks] at hless hok hcounts
        have hlt := hless (List.cons_ne_nil id sinks)
        dsimp only
        rw [hok]
        exact ih hcounts (by omega) (by omega)

/-- **Counting removes what pruning removes.** -/
theorem countedPrune_eq {rounds : Nat} (h : nodes.length < rounds) :
    countedPrune isPure nodes edges rounds = .ok (prune isPure nodes edges) := by
  have hle : pendingCount nodes [] ≤ nodes.length := List.length_filter_le _ _
  exact countedRounds_eq counts_outDegrees (by omega) (by omega)

end Rounds

/-! ## 3. What becomes of a program -/

namespace ProgramStructure

section Pruned

variable {α : Type} [Scalar α] (isPure : Element → Bool) (p : ProgramStructure α)

/-- All elements with the merged edges between them. -/
def unpruned : CausalGraph α := .of p.elements p.merged

/-- The elements that are not pruned with the edges between them. -/
def pruned : CausalGraph α := .of (p.survivors isPure) (p.remaining isPure)

variable {isPure p}

theorem mem_removed_iff {id : String} :
    id ∈ p.removed isPure ↔ OnlySideEffects isPure p.unpruned id :=
  mem_prune_iff (g := p.unpruned)

theorem unpruned_hasEdge_iff {u v : String} :
    p.unpruned.HasEdge u v ↔ ∃ e, p.Given e ∧ e.pair = (u, v) := by
  rw [CausalGraph.hasEdge_iff_pair, ← mem_pairs_merged]
  rfl

/-- **An element that leads nowhere is pruned exactly if it is a pure side effect.** -/
theorem mem_removed_iff_of_sink (h : p.WellGiven) {n : Element} (hn : n ∈ p.elements)
    (hsink : ∀ e, p.Given e → e.source ≠ n.id) : n.id ∈ p.removed isPure ↔ isPure n = true := by
  have hreach (v : String) : ¬ p.unpruned.Reaches n.id v := fun hreaches => by
    obtain ⟨w, hedge, -⟩ :=
      Relation.TransGen.head'_iff.mp (CausalGraph.reaches_iff_transGen.mp hreaches)
    obtain ⟨e, he, hpair⟩ := unpruned_hasEdge_iff.mp hedge
    exact hsink e he (Prod.mk.inj hpair).1
  rw [mem_removed_iff]
  constructor
  · intro honly
    obtain ⟨⟨m, hm, hid, hpure⟩, -⟩ := honly n.id (.inl rfl)
    rwa [← List.inj_on_of_nodup_map h.distinct hm hn hid]
  · rintro hpure v (rfl | hv)
    · exact ⟨⟨n, hn, rfl, hpure⟩, hreach _⟩
    · exact absurd hv (hreach v)

/-- What is pruned is reported, and all else is in the graph. -/
theorem mem_ids_of_build {g : CausalGraph α} {r : BuildReport}
    (hg : build isPure p.elements p.relations p.controls = .ok (g, r)) {n : Element}
    (hn : n ∈ p.elements) : (n.id ∈ g.ids ↔ n.id ∉ p.removed isPure) ∧
      (n.id ∈ r.pruned ↔ n.id ∈ p.removed isPure) := by
  obtain ⟨-, hparts, rfl⟩ := build_eq_ok_iff.mp hg
  rw [CausalGraph.ids_of_ofParts hparts, mem_survivors_ids, report, mem_sortIds]
  exact ⟨and_iff_right (List.mem_map_of_mem hn), Iff.rfl⟩

/-- **A walk to a survivor passes survivors only, and stays.** -/
theorem isWalk_pruned {walk : List String} (hwalk : p.unpruned.IsWalk walk)
    (hlast : ∀ v, walk.getLast? = some v → v ∉ p.removed isPure) :
    (p.pruned isPure).IsWalk walk ∧ ∀ u ∈ walk, u ∉ p.removed isPure := by
  induction walk with
  | nil => exact ⟨trivial, fun u hu => absurd hu List.not_mem_nil⟩
  | cons u rest ih =>
    cases rest with
    | nil =>
      have hu : u ∉ p.removed isPure := hlast u rfl
      refine ⟨mem_survivors_ids.mpr ⟨hwalk, hu⟩, fun v hv => ?_⟩
      rwa [List.mem_singleton.mp hv]
    | cons v rest =>
      obtain ⟨⟨e, he, rfl, rfl⟩, hrest⟩ := hwalk
      obtain ⟨hstay, hleft⟩ := ih hrest fun w hw => hlast w (by rwa [List.getLast?_cons_cons])
      have htarget : e.target ∉ p.removed isPure := hleft _ List.mem_cons_self
      have hsource : e.source ∉ p.removed isPure := fun hs =>
        htarget (effectsRemoved_prune e he hs)
      refine ⟨⟨⟨e, mem_remaining.mpr ⟨he, htarget⟩, rfl, rfl⟩, hstay⟩, fun w hw => ?_⟩
      rcases List.mem_cons.mp hw with rfl | hw
      · exact hsource
      · exact hleft w hw

/-- What is removed depends on which elements there are and which pairs have an edge. -/
theorem mem_removed_of_perm {q : ProgramStructure α} (helements : p.elements.Perm q.elements)
    (hsupplied : p.supplied.Perm q.supplied) {id : String} :
    id ∈ p.removed isPure ↔ id ∈ q.removed isPure := by
  have hedge : p.unpruned.HasEdge = q.unpruned.HasEdge := by
    funext u v
    have hcausal : p.causalEdges.Perm q.causalEdges := hsupplied.filterMap _
    have hpairs (x : String × String) :
        x ∈ p.merged.map Edge.pair ↔ x ∈ q.merged.map Edge.pair := by
      rw [merged_eq_mergeAll, merged_eq_mergeAll, (Edge.pairs_mergeAll _).2,
        (Edge.pairs_mergeAll _).2]
      exact (hcausal.map Edge.pair).mem_iff
    rw [CausalGraph.hasEdge_iff_pair, CausalGraph.hasEdge_iff_pair]
    exact propext (hpairs (u, v))
  have hreaches (u v : String) : p.unpruned.Reaches u v ↔ q.unpruned.Reaches u v := by
    rw [CausalGraph.reaches_iff_transGen, CausalGraph.reaches_iff_transGen, hedge]
  have hnodes (n : Element) : n ∈ p.unpruned.nodes ↔ n ∈ q.unpruned.nodes := helements.mem_iff
  rw [mem_removed_iff, mem_removed_iff]
  unfold OnlySideEffects
  simp only [hreaches, hnodes]

/-- **An element is pruned exactly if it and all that it reaches are pure side effects, without a
cycle among them.** Counting finds these elements in any number of rounds above that of the
elements, and never takes away from a counter that is zero. What is pruned does not depend on the
order of elements and relations, edges of pruned elements lead to pruned ones, and walks to
survivors stay. -/
theorem removed_where_only_side_effects_follow (isPure : Element → Bool)
    (p : ProgramStructure α) :
    (∀ rounds, p.elements.length < rounds →
        countedPrune isPure p.elements p.merged rounds = .ok (p.removed isPure)) ∧
      (∀ id, id ∈ p.removed isPure ↔ OnlySideEffects isPure p.unpruned id) ∧
      (∀ q : ProgramStructure α, p.elements.Perm q.elements → p.supplied.Perm q.supplied →
        ∀ id, id ∈ p.removed isPure ↔ id ∈ q.removed isPure) ∧
      (∀ e ∈ p.merged, e.source ∈ p.removed isPure → e.target ∈ p.removed isPure) ∧
      ∀ walk v, p.unpruned.IsWalk walk → walk.getLast? = some v → v ∉ p.removed isPure →
        (p.pruned isPure).IsWalk walk := by
  refine ⟨fun rounds h => countedPrune_eq h, fun id => mem_removed_iff,
    fun q he hs id => mem_removed_of_perm he hs, effectsRemoved_prune, fun walk v hw hv hleft => ?_⟩
  refine (isWalk_pruned hw fun w hlast => ?_).1
  obtain rfl := Option.some.inj (hv.symm.trans hlast)
  exact hleft

end Pruned

/-- A message behind a logger, and two loggers that call each other. -/
def loggers : ProgramStructure Float where
  elements := [.of "compute" .function [], .of "log_result" .function [],
    .of "println!@3" .effect [], .of "trace" .function [], .of "debug" .function [],
    .of "write_file" .effect []]
  relations := [⟨"compute", "log_result", .causal .call, none⟩,
    ⟨"log_result", "println!@3", .causal .dataFlow, none⟩, ⟨"trace", "debug", .causal .call, none⟩,
    ⟨"debug", "trace", .causal .call, none⟩, ⟨"compute", "trace", .causal .call, none⟩,
    ⟨"compute", "write_file", .causal .dataFlow, none⟩]
  controls := []

/-- The message and the logger before it are pruned; the two that call each other are not. -/
theorem removed_where_only_side_effects_follow_loggers :
    countedPrune pureByDefault loggers.elements loggers.merged 7 =
        .ok ["println!@3", "log_result"] ∧
      OnlySideEffects pureByDefault loggers.unpruned "log_result" ∧
      ¬ OnlySideEffects pureByDefault loggers.unpruned "trace" ∧
      (loggers.pruned pureByDefault).IsWalk ["compute", "trace", "debug", "trace"] := by
  have hremoved : loggers.removed pureByDefault = ["println!@3", "log_result"] := by rfl
  obtain ⟨hcounted, hiff, -, -, hwalks⟩ :=
    removed_where_only_side_effects_follow pureByDefault loggers
  simp only [hremoved] at hcounted hiff hwalks
  refine ⟨hcounted 7 (by decide), (hiff "log_result").mp (by decide),
    fun h => absurd ((hiff "trace").mpr h) (by decide), ?_⟩
  have hedge {u v : String} (h : (u, v) ∈ loggers.merged.map Edge.pair) :
      loggers.unpruned.HasEdge u v := CausalGraph.hasEdge_iff_pair.mpr h
  have hpairs : ∀ q ∈ [("compute", "trace"), ("trace", "debug"), ("debug", "trace")],
      q ∈ loggers.merged.map Edge.pair := by decide
  have hlast : "trace" ∈ loggers.unpruned.ids := by decide
  exact hwalks _ "trace" ⟨hedge (hpairs _ (by decide)), hedge (hpairs _ (by decide)),
    hedge (hpairs _ (by decide)), hlast⟩ rfl (by decide)

end ProgramStructure

end CodeCausality
