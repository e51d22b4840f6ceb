import CodeCausality.Proofs.Graph.Order
import CodeCausality.Proofs.Graph.Prune

/-!
# Which elements are pruned

Pruning works from the sinks upwards, round by round. What it removes in the end is said without
rounds:

* `exposedSinks_prune` -- **the rounds end**: each of them removes an element, so after as many as
  there are elements no sink is left;
* `Settled` -- what every round keeps: removed elements are pure side effects, their effects are
  removed, and going along edges from them comes to an end; `Settled.append` for a round;
* `OnlySideEffects`, `mem_prune_iff` -- **an element is removed exactly if it and all that it reaches
  are pure side effects, without a cycle among them.**
-/

namespace CodeCausality

/-! ## 1. The rounds end -/

section Rounds

variable {α : Type} {isPure : Element → Bool} {nodes : List Element} {edges : List (Edge α)}
variable {removed : List String}

/-- How many of the elements are not removed. -/
def pendingCount (nodes : List Element) (removed : List String) : Nat :=
  (nodes.filter fun n => !removed.contains n.id).length

theorem pendingCount_append_lt {n : Element} {sinks : List String} (hn : n ∈ nodes)
    (hold : n.id ∉ removed) (hnew : n.id ∈ sinks) :
    pendingCount nodes (removed ++ sinks) < pendingCount nodes removed := by
  have hsplit : (nodes.filter fun n => !(removed ++ sinks).contains n.id) =
      (nodes.filter fun n => !removed.contains n.id).filter fun n => !sinks.contains n.id := by
    rw [List.filter_filter]
    refine List.filter_congr fun n _ => ?_
    simp [Bool.and_comm]
  unfold pendingCount
  rw [hsplit, List.length_filter_lt_length_iff_exists]
  refine ⟨n, List.mem_filter.mpr ⟨hn, ?_⟩, ?_⟩
  · simpa using hold
  · simpa using hnew

/-- A round that removes something leaves fewer elements. -/
theorem pendingCount_round_lt (h : exposedSinks isPure nodes edges removed ≠ []) :
    pendingCount nodes (removed ++ exposedSinks isPure nodes edges removed) <
      pendingCount nodes removed := by
  obtain ⟨id, hid⟩ := List.exists_mem_of_ne_nil _ h
  obtain ⟨n, hn, rfl, -, hold, -⟩ := mem_exposedSinks.mp hid
  exact pendingCount_append_lt hn hold hid

theorem exposedSinks_pruneRounds {rounds : Nat} (h : pendingCount nodes removed < rounds) :
    exposedSinks isPure nodes edges (pruneRounds isPure nodes edges rounds removed) = [] := by
  induction rounds generalizing removed with
  | zero => omega
  | succ rounds ih =>
    rw [pruneRounds]
    split
    · assumption
    · rename_i hsome
      have hlt := pendingCount_round_lt fun hnil => hsome hnil
      exact ih (by omega)

/-- **After pruning no sink is left.** -/
theorem exposedSinks_prune : exposedSinks isPure nodes edges (prune isPure nodes edges) = [] := by
  refine exposedSinks_pruneRounds ?_
  have hle : pendingCount nodes [] ≤ nodes.length := List.length_filter_le _ _
  omega

end Rounds

/-! ## 2. What every round keeps -/

section Settled

variable {α : Type} {isPure : Element → Bool} {g : CausalGraph α} {removed : List String}

/-- Removed elements are pure side effects, so are all that they lead to, and going along edges from
them comes to an end. -/
structure Settled (isPure : Element → Bool) (g : CausalGraph α) (removed : List String) :
    Prop where
  pure : ∀ id ∈ removed, ∃ n ∈ g.nodes, n.id = id ∧ isPure n = true
  effects : EffectsRemoved g.edges removed
  ends : ∀ id ∈ removed, Acc (Function.swap g.HasEdge) id

theorem Settled.append (h : Settled isPure g removed) :
    Settled isPure g (removed ++ exposedSinks isPure g.nodes g.edges removed) where
  pure id hid := by
    rcases List.mem_append.mp hid with hold | hnew
    · exact h.pure id hold
    · obtain ⟨n, hn, hnid, hpure, -⟩ := mem_exposedSinks.mp hnew
      exact ⟨n, hn, hnid, hpure⟩
  effects := h.effects.append
  ends id hid := by
    rcases List.mem_append.mp hid with hold | hnew
    · exact h.ends id hold
    · -- the effects of a new sink were removed in earlier rounds
      obtain ⟨-, -, -, -, -, hout⟩ := mem_exposedSinks.mp hnew
      refine Acc.intro id fun v hv => ?_
      obtain ⟨e, he, hsource, rfl⟩ := hv
      exact h.ends _ (hout e he hsource)

theorem settled_prune : Settled isPure g (prune isPure g.nodes g.edges) :=
  pruneRounds_keeps (fun _ => Settled.append)
    { pure := fun _ h => absurd h List.not_mem_nil
      effects := fun _ _ h => absurd h List.not_mem_nil
      ends := fun _ h => absurd h List.not_mem_nil }

/-- What a removed element reaches is removed. -/
theorem EffectsRemoved.reaches (h : EffectsRemoved g.edges removed) {u v : String}
    (hu : u ∈ removed) (huv : g.Reaches u v) : v ∈ removed := by
  induction huv with
  | edge he => exact h _ he hu
  | step he _ ih => exact ih (h _ he hu)

theorem not_reaches_self_of_acc {u : String} (h : Acc (Function.swap g.HasEdge) u) :
    ¬ g.Reaches u u := by
  have hacc : Acc (Relation.TransGen (Function.swap g.HasEdge)) u := h.transGen
  induction hacc with
  | intro v _ ih =>
    intro hv
    have hloop : Relation.TransGen (Function.swap g.HasEdge) v v := by
      rw [Relation.transGen_swap]
      exact CausalGraph.reaches_iff_transGen.mp hv
    exact ih v hloop h hv

/-! ## 3. What is removed -/

/-- The element and all that it reaches are pure side effects, and none of them reaches itself. -/
def OnlySideEffects (isPure : Element → Bool) (g : CausalGraph α) (id : String) : Prop :=
  ∀ v, v = id ∨ g.Reaches id v →
    (∃ n ∈ g.nodes, n.id = v ∧ isPure n = true) ∧ ¬ g.Reaches v v

theorem OnlySideEffects.of_hasEdge {u v : String} (h : OnlySideEffects isPure g u)
    (huv : g.HasEdge u v) : OnlySideEffects isPure g v := by
  intro w hw
  refine h w (.inr ?_)
  rcases hw with rfl | hvw
  · exact huv.reaches
  · exact huv.reaches.trans hvw

theorem onlySideEffects_of_settled (h : Settled isPure g removed) {id : String}
    (hid : id ∈ removed) : OnlySideEffects isPure g id := by
  intro v hv
  have hmem : v ∈ removed := by
    rcases hv with rfl | hv
    · exact hid
    · exact h.effects.reaches hid hv
  exact ⟨h.pure v hmem, not_reaches_self_of_acc (h.ends v hmem)⟩

/-- A pure side effect that is left without being a sink leads to one that is left. -/
theorem exists_hasEdge_of_left (hsinks : exposedSinks isPure g.nodes g.edges removed = [])
    {u : String} (hu : OnlySideEffects isPure g u) (hleft : u ∉ removed) :
    ∃ v, g.HasEdge u v ∧ OnlySideEffects isPure g v ∧ v ∉ removed := by
  obtain ⟨⟨n, hn, hnid, hpure⟩, -⟩ := hu u (.inl rfl)
  have hnot : u ∉ exposedSinks isPure g.nodes g.edges removed := by
    rw [hsinks]
    exact List.not_mem_nil
  rw [mem_exposedSinks] at hnot
  have hout : ¬ ∀ e ∈ g.edges, e.source = u → e.target ∈ removed := fun hall =>
    hnot ⟨n, hn, hnid, hpure, hleft, hall⟩
  push Not at hout
  obtain ⟨e, he, hsource, htarget⟩ := hout
  have hedge : g.HasEdge u e.target := ⟨e, he, hsource, rfl⟩
  exact ⟨e.target, hedge, hu.of_hasEdge hedge, htarget⟩

/-- **An element is removed exactly if it and all that it reaches are pure side effects, without a
cycle among them.** -/
theorem mem_prune_iff {id : String} :
    id ∈ prune isPure g.nodes g.edges ↔ OnlySideEffects isPure g id := by
  refine ⟨onlySideEffects_of_settled settled_prune, fun h => ?_⟩
  refine Classical.byContradiction fun hleft => ?_
  -- such elements that are left would lead to each other without an end
  let left : Set String := {u | OnlySideEffects isPure g u ∧ u ∉ prune isPure g.nodes g.edges}
  have hfin : left.Finite := by
    refine (List.finite_toSet g.ids).subset fun u hu => ?_
    obtain ⟨⟨n, hn, hnid, -⟩, -⟩ := hu.1 u (.inl rfl)
    exact List.mem_map.mpr ⟨n, hn, hnid⟩
  obtain ⟨v, hv, hloop⟩ := exists_cycle_of_successors hfin ⟨id, h, hleft⟩ fun u hu => by
    obtain ⟨v, huv, hv, hvleft⟩ := exists_hasEdge_of_left exposedSinks_prune hu.1 hu.2
    exact ⟨v, ⟨hv, hvleft⟩, huv⟩
  exact (hv.1 v (.inl rfl)).2 (CausalGraph.reaches_iff_transGen.mpr hloop)

end Settled

end CodeCausality
