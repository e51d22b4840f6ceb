import Mathlib.Data.List.Perm.Subperm
import Mathlib.Logic.Relation
import CodeCausality.Graph.Construction
import CodeCausality.Proofs.Graph.Index

/-!
# What a graph reaches

The look-ups of a graph, said by its edges, and its two searches, said by the walks:

* `HasEdge` -- an edge from one node to another; `Reaches` is its transitive closure;
* `mem_children`, `mem_parents` -- direct effects and causes are the ends of edges; `isRoot_iff`:
  a root has no causes;
* `mem_reached_iff_transGen` -- **with as many rounds as there are nodes `reached` finds exactly
  what at least one step reaches**: as long as something is missing a round adds a node, and it adds
  none twice;
* `Frontier.Searched` -- what holds whenever a node is taken off the stack; with as many rounds as
  there are nodes the stack is empty at the end (`Searched.stack_run`), and then **a search finds
  exactly what at least one step reaches, its start left out** (`Frontier.mem_search_iff`), in
  whichever order the neighbours of a node come;
* `mem_descendants`, `mem_ancestors` -- what follows for the nodes below and above a node.
-/

namespace CodeCausality

/-! ## 1. Rounds -/

section Spread

variable {step : String → List String} {rounds : Nat} {seen univ : List String}

theorem mem_fresh {id : String} :
    id ∈ distinct ((seen.flatMap step).filter fun id => !seen.contains id) ↔
      (∃ a ∈ seen, id ∈ step a) ∧ id ∉ seen := by
  rw [mem_distinct, List.mem_filter, List.mem_flatMap, Bool.not_eq_true', ← Bool.not_eq_true,
    List.contains_iff_mem]

/-- What every round keeps holds after all of them. -/
theorem spread_keeps (holds : List String → Prop)
    (hround : ∀ seen, holds seen →
      holds (seen ++ distinct ((seen.flatMap step).filter fun id => !seen.contains id)))
    (h : holds seen) : holds (spread step rounds seen) := by
  induction rounds generalizing seen with
  | zero => exact h
  | succ n ih =>
    rw [spread]
    split
    · exact h
    · exact ih (hround seen h)

theorem subset_spread (h : univ ⊆ seen) : univ ⊆ spread step rounds seen :=
  spread_keeps (univ ⊆ ·) (fun _ hseen _ ha => List.mem_append_left _ (hseen ha)) h

/-- What is spread is reached by steps. -/
theorem spread_sound {start : String}
    (h : ∀ a ∈ seen, Relation.TransGen (fun a b => b ∈ step a) start a) :
    ∀ a ∈ spread step rounds seen, Relation.TransGen (fun a b => b ∈ step a) start a := by
  refine spread_keeps (fun seen => ∀ a ∈ seen, Relation.TransGen (fun a b => b ∈ step a) start a)
    (fun seen hseen a ha => ?_) h
  rcases List.mem_append.mp ha with ha | ha
  · exact hseen a ha
  · obtain ⟨⟨b, hb, hab⟩, -⟩ := mem_fresh.mp ha
    exact .tail (hseen b hb) hab

/-- A round that finds nothing new ends with everything found, and there are at most as many other
rounds as ids that are still missing. -/
theorem spread_closed (hstep : ∀ a ∈ univ, ∀ b ∈ step a, b ∈ univ) (hsub : seen ⊆ univ)
    (hnd : seen.Nodup) (hlen : univ.length ≤ seen.length + rounds) :
    ∀ a ∈ spread step rounds seen, ∀ b ∈ step a, b ∈ spread step rounds seen := by
  induction rounds generalizing seen with
  | zero =>
    have hall : univ ⊆ seen := ((hnd.subperm hsub).perm_of_length_le hlen).symm.subset
    exact fun a ha b hb => hall (hstep a (hsub ha) b hb)
  | succ n ih =>
    rw [spread]
    split
    · rename_i hempty
      intro a ha b hb
      refine Classical.byContradiction fun hn => ?_
      have hfresh := mem_fresh.mpr ⟨⟨a, ha, hb⟩, hn⟩
      rw [List.isEmpty_iff.mp hempty] at hfresh
      exact List.not_mem_nil hfresh
    · rename_i hsome
      refine ih ?_ ?_ ?_
      · intro a ha
        rcases List.mem_append.mp ha with ha | ha
        · exact hsub ha
        · obtain ⟨⟨b, hb, hab⟩, -⟩ := mem_fresh.mp ha
          exact hstep b (hsub hb) a hab
      · exact List.nodup_append.mpr ⟨hnd, nodup_distinct _, fun a ha b hb e =>
          (mem_fresh.mp hb).2 (e ▸ ha)⟩
      · have hpos := List.length_pos_iff.mpr fun e => hsome (List.isEmpty_iff.mpr e)
        rw [List.length_append]
        omega

/-- **With enough rounds, `reached` is what at least one step reaches.** -/
theorem mem_reached_iff_transGen {start : String}
    (hstep : ∀ a, ∀ b ∈ step a, b ∈ univ) (hlen : univ.length ≤ rounds) {v : String} :
    v ∈ reached step rounds start ↔ Relation.TransGen (fun a b => b ∈ step a) start v := by
  have hfirst : ∀ a, a ∈ distinct (step start) ↔ a ∈ step start := fun _ => mem_distinct _
  constructor
  · exact fun h => spread_sound (fun a ha => .single ((hfirst a).mp ha)) v h
  · have hsub : distinct (step start) ⊆ univ := fun a ha => hstep start a ((hfirst a).mp ha)
    have hclosed : ∀ a ∈ reached step rounds start, ∀ b ∈ step a, b ∈ reached step rounds start :=
      spread_closed (fun a _ => hstep a) hsub (nodup_distinct _) (by omega)
    intro h
    induction h with
    | single h => exact subset_spread (List.Subset.refl _) ((hfirst _).mpr h)
    | tail _ hbc ih => exact hclosed _ ih _ hbc

end Spread

/-! ## 2. Stacks -/

namespace Frontier

section Visit

variable {f : Frontier} {ns : List String} {a b : String}

theorem mem_seen_visit : a ∈ (f.visit b).seen ↔ a ∈ f.seen ∨ a = b := by
  rw [visit]
  split
  · rename_i hb
    exact ⟨.inl, fun h => h.elim id fun e => e ▸ List.contains_iff_mem.mp hb⟩
  · rw [List.mem_append, List.mem_singleton]

theorem mem_stack_visit : a ∈ (f.visit b).stack ↔ a ∈ f.stack ∨ a = b ∧ b ∉ f.seen := by
  rw [visit]
  split
  · rename_i hb
    exact ⟨.inl, fun h => h.elim id fun e => absurd (List.contains_iff_mem.mp hb) e.2⟩
  · rename_i hb
    have hb' : b ∉ f.seen := fun h => hb (List.contains_iff_mem.mpr h)
    rw [List.mem_cons, and_iff_left hb', or_comm]

/-- What is marked is what is found, and nothing is marked twice. -/
structure Marked (id : String) (f : Frontier) : Prop where
  seen_eq : f.seen = id :: f.found
  nodup : f.seen.Nodup

theorem Marked.ne_of_found {id : String} (h : f.Marked id) {v : String} (hv : v ∈ f.found) :
    v ≠ id := by
  have hnd := h.nodup
  rw [h.seen_eq] at hnd
  exact fun e => (List.nodup_cons.mp hnd).1 (e ▸ hv)

theorem Marked.visit {id : String} (h : f.Marked id) (b : String) : (f.visit b).Marked id := by
  rw [Frontier.visit]
  split
  · exact h
  · rename_i hb
    have hb' : b ∉ f.seen := fun hmem => hb (List.contains_iff_mem.mpr hmem)
    refine ⟨?_, List.nodup_append.mpr ⟨h.nodup, List.nodup_singleton b, fun c hc d hd e => ?_⟩⟩
    · rw [h.seen_eq, List.cons_append]
    · exact hb' (List.mem_singleton.mp hd ▸ e ▸ hc)

/-- As many nodes are put on the stack as are marked. -/
theorem length_visit (f : Frontier) (b : String) :
    (f.visit b).stack.length + f.seen.length = f.stack.length + (f.visit b).seen.length := by
  rw [visit]
  split
  · rfl
  · rw [List.length_cons, List.length_append, List.length_singleton]
    omega

theorem mem_seen_foldl : a ∈ (ns.foldl visit f).seen ↔ a ∈ f.seen ∨ a ∈ ns := by
  induction ns generalizing f with
  | nil => simp
  | cons n ns ih => rw [List.foldl_cons, ih, mem_seen_visit, List.mem_cons, or_assoc]

theorem mem_stack_foldl :
    a ∈ (ns.foldl visit f).stack ↔ a ∈ f.stack ∨ a ∈ ns ∧ a ∉ f.seen := by
  induction ns generalizing f with
  | nil => simp
  | cons n ns ih =>
    rw [List.foldl_cons, ih, mem_stack_visit, mem_seen_visit, List.mem_cons]
    by_cases han : a = n
    · subst han
      simp
    · simp [han]

theorem Marked.foldl {id : String} (h : f.Marked id) : (ns.foldl Frontier.visit f).Marked id := by
  induction ns generalizing f with
  | nil => exact h
  | cons n ns ih => exact ih (h.visit n)

theorem length_foldl (ns : List String) (f : Frontier) :
    (ns.foldl visit f).stack.length + f.seen.length =
      f.stack.length + (ns.foldl visit f).seen.length := by
  induction ns generalizing f with
  | nil => rfl
  | cons n ns ih =>
    have hvisit := length_visit f n
    have hrest := ih (f.visit n)
    rw [List.foldl_cons]
    omega

end Visit

section Search

variable {next : String → List String} {univ : List String} {id : String} {f : Frontier}

/-- What holds before each round: whatever is found is reached, and a marked node waits on the stack
unless everything next to it is marked. -/
structure Searched (next : String → List String) (id : String) (f : Frontier) : Prop
    extends f.Marked id where
  reached : ∀ v ∈ f.found, Relation.TransGen (fun a b => b ∈ next a) id v
  queued : ∀ a ∈ f.stack, a ∈ f.seen
  closed : ∀ a ∈ f.seen, a ∈ f.stack ∨ ∀ b ∈ next a, b ∈ f.seen

theorem searched_start : Searched next id (start id) where
  seen_eq := rfl
  nodup := List.nodup_singleton id
  reached _ hv := absurd hv List.not_mem_nil
  queued _ ha := ha
  closed _ ha := .inl ha

theorem Searched.reaches_of_next (h : Searched next id f) {a b : String} (ha : a ∈ f.seen)
    (hb : b ∈ next a) : Relation.TransGen (fun a b => b ∈ next a) id b := by
  rw [h.seen_eq, List.mem_cons] at ha
  rcases ha with rfl | ha
  · exact .single hb
  · exact .tail (h.reached a ha) hb

/-- **One round keeps it.** -/
theorem Searched.round (h : Searched next id f) {current : String} {stack : List String}
    (hstack : f.stack = current :: stack) :
    Searched next id ((next current).foldl visit { f with stack }) := by
  have hcurrent : current ∈ f.seen := h.queued current (hstack ▸ List.mem_cons_self)
  have hmarked : ((next current).foldl visit { f with stack }).Marked id :=
    Marked.foldl ⟨h.seen_eq, h.nodup⟩
  refine { toMarked := hmarked, reached := ?_, queued := ?_, closed := ?_ }
  · intro v hv
    have hseen : v ∈ ((next current).foldl visit { f with stack }).seen := by
      rw [hmarked.seen_eq]
      exact List.mem_cons_of_mem _ hv
    -- the start stands in front of what is found, so no node found is the start
    have hne : v ≠ id := hmarked.ne_of_found hv
    rcases mem_seen_foldl.mp hseen with hv | hv
    · rw [h.seen_eq, List.mem_cons] at hv
      exact h.reached v (hv.resolve_left hne)
    · exact h.reaches_of_next hcurrent hv
  · intro a ha
    rw [mem_seen_foldl]
    rcases mem_stack_foldl.mp ha with ha | ⟨ha, -⟩
    · exact .inl (h.queued a (hstack ▸ List.mem_cons_of_mem _ ha))
    · exact .inr ha
  · intro a ha
    by_cases hseen : a ∈ f.seen
    · rcases h.closed a hseen with hwait | hdone
      · rw [hstack, List.mem_cons] at hwait
        rcases hwait with rfl | hwait
        · exact .inr fun b hb => mem_seen_foldl.mpr (.inr hb)
        · exact .inl (mem_stack_foldl.mpr (.inl hwait))
      · exact .inr fun b hb => mem_seen_foldl.mpr (.inl (hdone b hb))
    · have hnext : a ∈ next current := (mem_seen_foldl.mp ha).resolve_left hseen
      exact .inl (mem_stack_foldl.mpr (.inr ⟨hnext, hseen⟩))

theorem Searched.run (h : Searched next id f) (rounds : Nat) :
    Searched next id (Frontier.run next rounds f) := by
  induction rounds generalizing f with
  | zero => exact h
  | succ n ih =>
    rw [Frontier.run]
    split
    · exact h
    · rename_i current stack hstack
      exact ih (h.round hstack)

variable (hnext : ∀ a, ∀ b ∈ next a, b ∈ univ)

include hnext

theorem Searched.length_seen_le (h : Searched next id f) (hid : id ∈ univ) :
    f.seen.length ≤ univ.length := by
  refine (h.nodup.subperm fun a ha => ?_).length_le
  rw [h.seen_eq, List.mem_cons] at ha
  rcases ha with rfl | ha
  · exact hid
  · obtain ⟨b, -, hb⟩ := Relation.TransGen.tail'_iff.mp (h.reached a ha)
    exact hnext b a hb

/-- **The stack is empty in the end**: a round takes a node off it and puts back only nodes that it
marks, and there are no more nodes to mark than are left. -/
theorem Searched.stack_run (h : Searched next id f) (hid : id ∈ univ) {rounds : Nat}
    (hlen : f.stack.length + univ.length ≤ rounds + f.seen.length) :
    (Frontier.run next rounds f).stack = [] := by
  induction rounds generalizing f with
  | zero =>
    have hseen := h.length_seen_le hnext hid
    exact List.length_eq_zero_iff.mp (by rw [Frontier.run]; omega)
  | succ n ih =>
    rw [Frontier.run]
    split
    · assumption
    · rename_i current stack hstack
      refine ih (h.round hstack) ?_
      have hbalance := length_foldl (next current) { f with stack }
      rw [hstack, List.length_cons] at hlen
      dsimp only at hbalance
      omega

/-- **A search finds exactly what at least one step reaches, its start left out.** -/
theorem mem_search_iff (hid : id ∈ univ) {rounds : Nat} (hlen : univ.length ≤ rounds)
    {v : String} :
    v ∈ search next rounds id ↔ Relation.TransGen (fun a b => b ∈ next a) id v ∧ v ≠ id := by
  have hstart : Searched next id (start id) := searched_start
  have hend := hstart.run rounds
  have hroom : (start id).stack.length + univ.length ≤ rounds + (start id).seen.length := by
    simp only [start, List.length_singleton]
    omega
  have hempty := hstart.stack_run hnext hid hroom
  have hclosed : ∀ a ∈ (Frontier.run next rounds (start id)).seen, ∀ b ∈ next a,
      b ∈ (Frontier.run next rounds (start id)).seen := fun a ha =>
    (hend.closed a ha).resolve_left fun hwait => by
      rw [hempty] at hwait
      exact List.not_mem_nil hwait
  constructor
  · intro hv
    exact ⟨hend.reached v hv, hend.ne_of_found hv⟩
  · rintro ⟨hreach, hne⟩
    have hseen : v ∈ (Frontier.run next rounds (start id)).seen := by
      clear hne
      induction hreach with
      | single hb =>
        refine hclosed id ?_ _ hb
        rw [hend.seen_eq]
        exact List.mem_cons_self
      | tail _ hbc ih => exact hclosed _ ih _ hbc
    rw [hend.seen_eq, List.mem_cons] at hseen
    exact hseen.resolve_left hne

end Search

end Frontier

/-! ## 3. Edges -/

namespace CausalGraph

variable {α : Type} {g : CausalGraph α}

/-- An edge leads from one node to the other. -/
def HasEdge (g : CausalGraph α) (u v : String) : Prop :=
  ∃ e ∈ g.edges, e.source = u ∧ e.target = v

/-- The ends of all edges are nodes. -/
def KnownEnds (g : CausalGraph α) : Prop :=
  ∀ e ∈ g.edges, e.source ∈ g.ids ∧ e.target ∈ g.ids

theorem HasEdge.source_mem {u v : String} (hg : g.KnownEnds) (h : g.HasEdge u v) : u ∈ g.ids := by
  obtain ⟨e, he, rfl, -⟩ := h
  exact (hg e he).1

theorem HasEdge.target_mem {u v : String} (hg : g.KnownEnds) (h : g.HasEdge u v) : v ∈ g.ids := by
  obtain ⟨e, he, -, rfl⟩ := h
  exact (hg e he).2

@[simp] theorem contains_iff {id : String} : g.contains id = true ↔ id ∈ g.ids := by
  rw [contains, g.index_eq]
  exact GraphIndex.mem_positions

theorem length_ids (g : CausalGraph α) : g.ids.length = g.nodes.length := List.length_map _

@[simp] theorem mem_children {u v : String} : v ∈ g.children u ↔ g.HasEdge u v := by
  rw [children, mem_sortedIds, g.index_eq]
  exact GraphIndex.mem_targetsAt

@[simp] theorem mem_parents {u v : String} : u ∈ g.parents v ↔ g.HasEdge u v := by
  rw [parents, mem_sortedIds, g.index_eq]
  exact GraphIndex.mem_sourcesAt

theorem children_increasing (g : CausalGraph α) (u : String) :
    (g.children u).Pairwise (· < ·) := sortedIds_increasing _

theorem parents_increasing (g : CausalGraph α) (u : String) :
    (g.parents u).Pairwise (· < ·) := sortedIds_increasing _

/-- The roots are the nodes without parents. -/
theorem isRoot_iff {id : String} (hid : id ∈ g.ids) : g.isRoot id = true ↔ g.parents id = [] := by
  rw [isRoot, contains_iff.mpr hid, Bool.true_and, List.isEmpty_iff, parents,
    List.eq_nil_iff_forall_not_mem, List.eq_nil_iff_forall_not_mem]
  exact forall_congr' fun p => not_congr mem_sortedIds.symm

/-! ## 4. Walks -/

theorem reaches_iff_transGen {u v : String} : g.Reaches u v ↔ Relation.TransGen g.HasEdge u v := by
  constructor
  · intro h
    induction h with
    | edge h => exact .single ⟨_, h, rfl, rfl⟩
    | step h _ ih => exact .head ⟨_, h, rfl, rfl⟩ ih
  · intro h
    induction h using Relation.TransGen.head_induction_on with
    | single h =>
      obtain ⟨e, he, rfl, rfl⟩ := h
      exact .edge he
    | head h _ ih =>
      obtain ⟨e, he, rfl, rfl⟩ := h
      exact .step he ih

theorem HasEdge.reaches {u v : String} (h : g.HasEdge u v) : g.Reaches u v :=
  reaches_iff_transGen.mpr (.single h)

theorem Reaches.trans {u v w : String} (h : g.Reaches u v) (k : g.Reaches v w) : g.Reaches u w :=
  reaches_iff_transGen.mpr ((reaches_iff_transGen.mp h).trans (reaches_iff_transGen.mp k))

theorem Reaches.target_mem {u v : String} (hg : g.KnownEnds) (h : g.Reaches u v) : v ∈ g.ids := by
  induction h with
  | edge h => exact (hg _ h).2
  | step _ _ ih => exact ih

theorem Reaches.source_mem {u v : String} (hg : g.KnownEnds) (h : g.Reaches u v) : u ∈ g.ids := by
  cases h with
  | edge h => exact (hg _ h).1
  | step h _ => exact (hg _ h).1

/-! ## 5. Nodes below and above a node -/

theorem transGen_children {u v : String} :
    Relation.TransGen (fun a b => b ∈ g.children a) u v ↔ g.Reaches u v := by
  have hrel : (fun a b => b ∈ g.children a) = g.HasEdge := by
    funext a b
    exact propext mem_children
  rw [hrel, reaches_iff_transGen]

theorem transGen_parents {u v : String} :
    Relation.TransGen (fun a b => b ∈ g.parents a) v u ↔ g.Reaches u v := by
  have hrel : (fun a b => b ∈ g.parents a) = Function.swap g.HasEdge := by
    funext a b
    exact propext mem_parents
  rw [hrel, Relation.transGen_swap, reaches_iff_transGen]

/-- **Going along edges finds the nodes below a node.** -/
theorem mem_reached_children (hg : g.KnownEnds) {u v : String} :
    v ∈ reached g.children g.nodes.length u ↔ g.Reaches u v := by
  have hstep : ∀ a, ∀ b ∈ g.children a, b ∈ g.ids :=
    fun a b hb => (mem_children.mp hb).target_mem hg
  rw [mem_reached_iff_transGen hstep g.length_ids.le, transGen_children]

/-- **Where `next` leads only between nodes, `reachable` is what at least one step reaches.** -/
theorem mem_reachable {next : String → List String}
    (hnext : ∀ a, ∀ b ∈ next a, a ∈ g.ids ∧ b ∈ g.ids) {u v : String} :
    v ∈ g.reachable next u ↔ Relation.TransGen (fun a b => b ∈ next a) u v ∧ v ≠ u := by
  rw [reachable]
  split
  · rename_i hu
    rw [mem_sortedIds, Frontier.mem_search_iff (fun a b hb => (hnext a b hb).2)
      (contains_iff.mp hu) g.length_ids.le]
  · rename_i hu
    refine iff_of_false List.not_mem_nil fun h => ?_
    obtain ⟨a, ha, -⟩ := Relation.TransGen.head'_iff.mp h.1
    exact hu (contains_iff.mpr (hnext u a ha).1)

theorem reachable_increasing (g : CausalGraph α) (next : String → List String) (u : String) :
    (g.reachable next u).Pairwise (· < ·) := by
  rw [reachable]
  split
  · exact sortedIds_increasing _
  · exact List.Pairwise.nil

theorem mem_descendants (hg : g.KnownEnds) {u v : String} :
    v ∈ g.descendants u ↔ g.Reaches u v ∧ v ≠ u := by
  have hnext : ∀ a, ∀ b ∈ g.children a, a ∈ g.ids ∧ b ∈ g.ids := fun a b hb =>
    ⟨(mem_children.mp hb).source_mem hg, (mem_children.mp hb).target_mem hg⟩
  rw [descendants, mem_reachable hnext, transGen_children]

theorem mem_ancestors (hg : g.KnownEnds) {u v : String} :
    u ∈ g.ancestors v ↔ g.Reaches u v ∧ u ≠ v := by
  have hnext : ∀ a, ∀ b ∈ g.parents a, a ∈ g.ids ∧ b ∈ g.ids := fun a b hb =>
    ⟨(mem_parents.mp hb).target_mem hg, (mem_parents.mp hb).source_mem hg⟩
  rw [ancestors, mem_reachable hnext, transGen_parents]

end CausalGraph

end CodeCausality
