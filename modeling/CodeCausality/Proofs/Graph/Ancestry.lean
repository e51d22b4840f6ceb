import Mathlib.Tactic.TFAE
import CodeCausality.Proofs.Graph.Paths

/-!
# What lies above a node

The stack searches in both directions, the search for paths and the root causes of an accepted graph
say the same of two nodes:

* `exists_paths_iff` -- a search for at least one path finds one exactly if the two nodes are one
  node or the first reaches the second; `exists_isPath_iff_reaches`: a path with an edge is a walk
  from the one to the other;
* `exists_root_above` -- **every node has a root above it, or is one**: a cause stands before its
  effect in the topological order, so one cannot go from cause to cause for ever;
* `mem_rootCauses` -- what `rootCauses` answers;
* `ancestry_agrees` -- the conclusion, for all pairs of nodes.
-/

namespace CodeCausality

namespace CausalGraph

variable {α : Type} {g : CausalGraph α} {u v : String}

/-- A node without causes is reached from nowhere. -/
theorem parents_ne_nil_of_reaches (h : g.Reaches u v) : g.parents v ≠ [] := by
  obtain ⟨w, -, hwv⟩ := Relation.TransGen.tail'_iff.mp (reaches_iff_transGen.mp h)
  exact List.ne_nil_of_mem (mem_parents.mpr hwv)

section Accepted

variable [Scalar α] (hg : g.WellFormed)

include hg

/-! ## 1. Paths -/

/-- A path between two nodes has an edge exactly if the first reaches the second. -/
theorem exists_isPath_iff_reaches (hv : v ∈ g.ids) :
    (∃ p, g.IsPath u v p ∧ 2 ≤ p.length) ↔ g.Reaches u v := by
  constructor
  · rintro ⟨p, ⟨hw, hnd, hhead, hlast⟩, hlen⟩
    rcases (exists_isPath_iff hg hv).mp ⟨p, hw, hnd, hhead, hlast⟩ with rfl | h
    · -- from a node to itself only the path without edges leads
      have hp := (mem_allPaths hg hv).mpr ⟨hw, hnd, hhead, hlast⟩
      rw [allPaths_self hg hv, List.mem_singleton] at hp
      rw [hp, List.length_singleton] at hlen
      omega
    · exact h
  · intro h
    obtain ⟨p, hp⟩ := (exists_isPath_iff hg hv).mpr (.inr h)
    refine ⟨p, hp, ?_⟩
    obtain ⟨-, -, hhead, hlast⟩ := hp
    match p with
    | [w] =>
      have huv : u = v := (Option.some.inj hhead).symm.trans (Option.some.inj hlast)
      exact absurd (huv ▸ h) (hg.acyclic v)
    | _ :: _ :: rest => simp only [List.length_cons]; omega

theorem exists_paths_iff_of_mem (hu : u ∈ g.ids) (hv : v ∈ g.ids) {limit : Nat}
    (hlimit : 1 ≤ limit) :
    (∃ p ps, g.paths u v limit = .ok (p :: ps)) ↔ u = v ∨ g.Reaches u v := by
  rw [paths_eq_take_allPaths hg hu hv, ← not_iff_not, ← allPaths_eq_nil_iff hg hv]
  constructor
  · intro hnone
    cases hall : g.allPaths u v with
    | nil => rfl
    | cons p ps =>
      obtain ⟨m, rfl⟩ := Nat.exists_eq_add_of_le' hlimit
      rw [hall, List.take_succ_cons] at hnone
      exact absurd ⟨p, _, rfl⟩ hnone
  · rintro hall ⟨p, ps, h⟩
    rw [hall, List.take_nil] at h
    cases h

/-- **A search for at least one path finds one exactly if there is one.** -/
theorem exists_paths_iff (hv : v ∈ g.ids) {limit : Nat} (hlimit : 1 ≤ limit) :
    (∃ p ps, g.paths u v limit = .ok (p :: ps)) ↔ u = v ∨ g.Reaches u v := by
  by_cases hu : u ∈ g.ids
  · exact exists_paths_iff_of_mem hg hu hv hlimit
  · refine iff_of_false ?_ ?_
    · rintro ⟨p, ps, h⟩
      have hnot : (!g.contains u) = true := by
        rw [Bool.not_eq_true', ← Bool.not_eq_true, contains_iff]
        exact hu
      rw [paths, if_pos hnot] at h
      cases h
    · rintro (rfl | h)
      · exact hu hv
      · exact hu (h.source_mem hg.known)

/-! ## 2. Roots -/

/-- **Every node has a root above it, or is one.** -/
theorem exists_root_above (hv : v ∈ g.ids) :
    ∃ r ∈ g.ids, g.parents r = [] ∧ (r = v ∨ g.Reaches r v) := by
  -- on the place in the topological order
  induction hn : g.topologicalOrder.idxOf v using Nat.strong_induction_on generalizing v with
  | _ n ih =>
    cases hp : g.parents v with
    | nil => exact ⟨v, hv, hp, .inl rfl⟩
    | cons w ws =>
      have hwv : g.HasEdge w v := mem_parents.mp (hp ▸ List.mem_cons_self)
      have hlt := hg.idxOf_lt_of_reaches hwv.reaches
      obtain ⟨r, hr, hroot, hrw⟩ := ih _ (hn ▸ hlt) (hwv.source_mem hg.known) rfl
      refine ⟨r, hr, hroot, .inr ?_⟩
      rcases hrw with rfl | hrw
      · exact hwv.reaches
      · exact hrw.trans hwv.reaches

/-- The root causes are the roots that reach the node, and the node if it is a root. -/
theorem mem_rootCauses (hv : v ∈ g.ids) :
    ∃ roots, g.rootCauses v = .ok roots ∧ roots.Pairwise (· < ·) ∧
      ∀ r, r ∈ roots ↔ g.parents r = [] ∧ (r = v ∨ g.Reaches r v) := by
  rw [rootCauses, if_neg (by simpa using hv)]
  split
  · rename_i hroot
    have hnone := (isRoot_iff hv).mp hroot
    refine ⟨[v], rfl, List.pairwise_singleton _ _, fun r => ?_⟩
    rw [List.mem_singleton]
    constructor
    · rintro rfl
      exact ⟨hnone, .inl rfl⟩
    · rintro ⟨-, rfl | h⟩
      · rfl
      · exact absurd hnone (parents_ne_nil_of_reaches h)
  · rename_i hroot
    refine ⟨_, rfl, (reachable_increasing g g.parents v).filter _, fun r => ?_⟩
    rw [List.mem_filter, mem_ancestors hg.known]
    constructor
    · rintro ⟨⟨hrv, -⟩, hr⟩
      exact ⟨(isRoot_iff (hrv.source_mem hg.known)).mp hr, .inr hrv⟩
    · rintro ⟨hr, rfl | hrv⟩
      · exact absurd ((isRoot_iff hv).mpr hr) hroot
      · have hne : r ≠ v := by
          rintro rfl
          exact hg.acyclic r hrv
        exact ⟨⟨hrv, hne⟩, (isRoot_iff (hrv.source_mem hg.known)).mpr hr⟩

/-! ## 3. Two nodes -/

theorem mem_descendants_iff_reaches : v ∈ g.descendants u ↔ g.Reaches u v := by
  rw [mem_descendants hg.known, and_iff_left_of_imp]
  rintro h rfl
  exact hg.acyclic v h

theorem mem_ancestors_iff_reaches : u ∈ g.ancestors v ↔ g.Reaches u v := by
  rw [mem_ancestors hg.known, and_iff_left_of_imp]
  rintro h rfl
  exact hg.acyclic u h

theorem paths_iff_reaches (hv : v ∈ g.ids) :
    (u ≠ v ∧ ∀ limit, 1 ≤ limit → ∃ p ps, g.paths u v limit = .ok (p :: ps)) ↔
      g.Reaches u v := by
  constructor
  · rintro ⟨hne, h⟩
    exact ((exists_paths_iff hg hv (le_refl 1)).mp (h 1 (le_refl 1))).resolve_left hne
  · intro h
    refine ⟨?_, fun limit hlimit => (exists_paths_iff hg hv hlimit).mpr (.inr h)⟩
    rintro rfl
    exact hg.acyclic u h

end Accepted

/-- **In an accepted graph the searches agree.** Of two nodes the second is below the first exactly
if the first is above the second, if there are paths between the two, different nodes, however few
are asked for, and if a path with at least one edge leads from the first to the second. No node is
below itself. Every node has root causes, in strictly increasing order of their bytes and so each
once, and they are the nodes without causes from which a path leads to it. -/
theorem ancestry_agrees [Scalar α] {nodes : List Element} {edges : List (Edge α)}
    (hg : ofParts nodes edges = .ok g) :
    (∀ u ∈ g.ids, ∀ v ∈ g.ids, List.TFAE
      [v ∈ g.descendants u,
       u ∈ g.ancestors v,
       u ≠ v ∧ ∀ limit, 1 ≤ limit → ∃ p ps, g.paths u v limit = .ok (p :: ps),
       ∃ p, g.IsPath u v p ∧ 2 ≤ p.length,
       g.Reaches u v]) ∧
    (∀ v, v ∉ g.descendants v) ∧
    ∀ v ∈ g.ids, ∃ roots, g.rootCauses v = .ok roots ∧ roots ≠ [] ∧
      roots.Pairwise (fun a b => utf8 a < utf8 b) ∧ roots.Nodup ∧
      ∀ u, u ∈ roots ↔ g.parents u = [] ∧ ∃ p ps, g.paths u v 1 = .ok (p :: ps) := by
  have hwf := wellFormed_of_ofParts hg
  refine ⟨fun u _ v hv => ?_, fun v hv => ?_, fun v hv => ?_⟩
  · tfae_have 1 ↔ 5 := mem_descendants_iff_reaches hwf
    tfae_have 2 ↔ 5 := mem_ancestors_iff_reaches hwf
    tfae_have 3 ↔ 5 := paths_iff_reaches hwf hv
    tfae_have 4 ↔ 5 := exists_isPath_iff_reaches hwf hv
    tfae_finish
  · exact hwf.acyclic v ((mem_descendants_iff_reaches hwf).mp hv)
  · obtain ⟨roots, hroots, hlt, hmem⟩ := mem_rootCauses hwf hv
    obtain ⟨r, -, hr, hrv⟩ := exists_root_above hwf hv
    refine ⟨roots, hroots, List.ne_nil_of_mem ((hmem r).mpr ⟨hr, hrv⟩), hlt.imp utf8_lt,
      hlt.imp ne_of_lt, fun u => ?_⟩
    rw [hmem, exists_paths_iff hwf hv (le_refl 1)]

/-- In the diamond `a` is above `d`, as the list of what lies below `a` shows, and it is the only root
cause of `d`. -/
theorem ancestry_agrees_diamond :
    ofParts diamondNodes diamondEdges = .ok diamond ∧ "a" ∈ diamond.ids ∧ "d" ∈ diamond.ids ∧
      "a" ∈ diamond.ancestors "d" ∧ diamond.rootCauses "d" = .ok ["a"] ∧
      ∀ u, u ∈ ["a"] ↔ diamond.parents u = [] ∧ ∃ p ps, diamond.paths u "d" 1 = .ok (p :: ps) := by
  obtain ⟨hpairs, -, hroots⟩ := ancestry_agrees ofParts_diamond
  have ha : "a" ∈ diamond.ids := by decide
  have hd : "d" ∈ diamond.ids := by decide
  have hbelow : "d" ∈ diamond.descendants "a" := by
    have hlist : diamond.descendants "a" = ["b", "c", "d"] := by cbv
    rw [hlist]
    decide
  have hlist : diamond.rootCauses "d" = .ok ["a"] := by cbv
  obtain ⟨roots, hok, -, -, -, hmem⟩ := hroots "d" hd
  obtain rfl : roots = ["a"] := Except.ok.inj (hok.symm.trans hlist)
  exact ⟨ofParts_diamond, ha, hd, ((hpairs "a" ha "d" hd).out 0 1).mp hbelow, hlist, hmem⟩

end CausalGraph

end CodeCausality
