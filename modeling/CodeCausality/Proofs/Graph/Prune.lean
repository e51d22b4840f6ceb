import CodeCausality.Proofs.Graph.Merge

/-!
# What pruning removes

Each round removes the pure side effects whose effects are all removed already. So what is removed
takes everything behind it along, and no edge is left without its source:

* `mem_exposedSinks` -- what a round removes;
* `EffectsRemoved` -- every edge of a removed element leads to a removed one;
  `EffectsRemoved.append` for a round, and with `pruneRounds_keeps` `effectsRemoved_prune` for all
  of them;
* `prune_congr` -- **what is removed depends on which pairs have an edge, and on nothing else**.
-/

namespace CodeCausality

section Rounds

variable {α : Type} {isPure : Element → Bool} {nodes : List Element} {edges : List (Edge α)}
variable {removed : List String}

/-! ## 1. One round -/

/-- The elements that an edge of the given element leads to are removed. -/
theorem any_remaining_eq_false_iff {id : String} :
    (edges.any fun e => e.source == id && !removed.contains e.target) = false ↔
      ∀ e ∈ edges, e.source = id → e.target ∈ removed := by
  rw [List.any_eq_false]
  refine forall₂_congr fun e _ => ?_
  rw [Bool.and_eq_true, beq_iff_eq, Bool.not_eq_true', ← Bool.not_eq_true, List.contains_iff_mem,
    not_and, Classical.not_not]

theorem mem_exposedSinks {id : String} :
    id ∈ exposedSinks isPure nodes edges removed ↔
      ∃ n ∈ nodes, n.id = id ∧ isPure n = true ∧ id ∉ removed ∧
        ∀ e ∈ edges, e.source = id → e.target ∈ removed := by
  rw [exposedSinks, List.mem_map]
  refine exists_congr fun n => ?_
  rw [List.mem_filter, Bool.and_eq_true, Bool.and_eq_true, Bool.not_eq_true', Bool.not_eq_true',
    any_remaining_eq_false_iff, ← Bool.not_eq_true, List.contains_iff_mem]
  constructor
  · rintro ⟨⟨hn, ⟨hnew, hout⟩, hpure⟩, rfl⟩
    exact ⟨hn, rfl, hpure, hnew, hout⟩
  · rintro ⟨hn, rfl, hpure, hnew, hout⟩
    exact ⟨⟨hn, ⟨hnew, hout⟩, hpure⟩, rfl⟩

/-- Every edge of a removed element leads to a removed one. -/
def EffectsRemoved (edges : List (Edge α)) (removed : List String) : Prop :=
  ∀ e ∈ edges, e.source ∈ removed → e.target ∈ removed

/-- A round keeps this: the effects of what it removes were removed before. -/
theorem EffectsRemoved.append (h : EffectsRemoved edges removed) :
    EffectsRemoved edges (removed ++ exposedSinks isPure nodes edges removed) := by
  intro e he hsource
  refine List.mem_append_left _ ?_
  rcases List.mem_append.mp hsource with hold | hnew
  · exact h e he hold
  · obtain ⟨n, -, -, -, -, hout⟩ := mem_exposedSinks.mp hnew
    exact hout e he rfl

/-! ## 2. All rounds -/

/-- **What every round keeps holds after all of them.** -/
theorem pruneRounds_keeps {holds : List String → Prop}
    (hround : ∀ removed, holds removed → holds (removed ++ exposedSinks isPure nodes edges removed))
    {rounds : Nat} (h : holds removed) : holds (pruneRounds isPure nodes edges rounds removed) := by
  induction rounds generalizing removed with
  | zero => exact h
  | succ rounds ih =>
    rw [pruneRounds]
    split
    · exact h
    · exact ih (hround removed h)

/-- **Every edge of a removed element leads to a removed one.** -/
theorem effectsRemoved_prune : EffectsRemoved edges (prune isPure nodes edges) :=
  pruneRounds_keeps (fun _ => EffectsRemoved.append) fun _ _ h => absurd h List.not_mem_nil

section Congr

variable {edges' : List (Edge α)} (h : ∀ p, p ∈ edges.map Edge.pair ↔ p ∈ edges'.map Edge.pair)

include h

theorem exposedSinks_congr :
    exposedSinks isPure nodes edges removed = exposedSinks isPure nodes edges' removed := by
  have hout (id : String) : (edges.any fun e => e.source == id && !removed.contains e.target) =
      edges'.any fun e => e.source == id && !removed.contains e.target := by
    have hpairs (es : List (Edge α)) :
        (es.any fun e => e.source == id && !removed.contains e.target) =
          (es.map Edge.pair).any fun p => p.1 == id && !removed.contains p.2 := by
      rw [List.any_map]
      rfl
    rw [hpairs, hpairs, Bool.eq_iff_iff, List.any_eq_true, List.any_eq_true]
    exact exists_congr fun p => and_congr_left fun _ => h p
  rw [exposedSinks, exposedSinks]
  simp only [hout]

theorem pruneRounds_congr (rounds : Nat) (removed : List String) :
    pruneRounds isPure nodes edges rounds removed =
      pruneRounds isPure nodes edges' rounds removed := by
  induction rounds generalizing removed with
  | zero => rfl
  | succ rounds ih =>
    rw [pruneRounds, pruneRounds, exposedSinks_congr h]
    split
    · rfl
    · exact ih _

/-- **What is removed depends on which pairs have an edge.** -/
theorem prune_congr : prune isPure nodes edges = prune isPure nodes edges' :=
  pruneRounds_congr h _ _

end Congr

end Rounds

end CodeCausality
