import Mathlib.Algebra.BigOperators.Ring.List
import Mathlib.Data.List.Nodup
import Mathlib.Tactic.NormNum
import CodeCausality.Model.Fit
import CodeCausality.Proofs.Graph.Lookup
import CodeCausality.Proofs.Graph.Paths
import CodeCausality.Proofs.Numeric.Exact

/-!
# Gains along paths

In exact arithmetic an edge multiplies its cause by its gain, a path by the product of its edges'
gains, and one node acts on another by the sum over all paths between them.

* `Edge.gain`, `coefficient_eq_gain` -- a static fit takes the gains as coefficients;
* `isPath_concat`, `allPaths_perm_parents` -- a path to a node is a path to one of its parents and
  one more edge;
* `totalGain_eq_sum_parents` -- **so the total gains at a node come from those at its parents**;
* `totalGain_self`, `totalGain_eq_zero` -- they start at one, and are zero where no path leads.
-/

namespace CodeCausality

variable {K : Type} [Field K] [LinearOrder K] [FloorSemiring K] [RootExp K]

/-! ## 1. Edges -/

/-- What an edge multiplies its cause by: its weight, and without one 1 or for control flow a
half. -/
def Edge.gain (e : Edge K) : K :=
  e.weight.getD (match e.kind with
    | .controlFlow => 1 / 2
    | .dataFlow | .call => 1)

namespace CausalGraph

variable {g : CausalGraph K}

/-- The gain of the edge between two nodes, zero if there is none. -/
def gain (g : CausalGraph K) (u v : String) : K := ((g.edge? u v).map Edge.gain).getD 0

omit [Field K] [LinearOrder K] [FloorSemiring K] [RootExp K] in
theorem exists_edge? [Scalar K] (hg : g.WellFormed) {u v : String} (h : g.HasEdge u v) :
    ∃ e, g.edge? u v = some e :=
  h.imp fun _ he => (edge?_eq_some_iff hg).mpr he

theorem gain_of_mem [IsStrictOrderedRing K] (hg : g.WellFormed) {e : Edge K} (he : e ∈ g.edges) :
    g.gain e.source e.target = e.gain := by
  rw [gain, (edge?_eq_some_iff hg).mpr ⟨he, rfl, rfl⟩]
  rfl

theorem defaultCoefficient_eq [IsStrictOrderedRing K] (k : EdgeKind) :
    (defaultCoefficient k : K) = match k with
      | .controlFlow => 1 / 2
      | .dataFlow | .call => 1 := by
  cases k with
  | controlFlow =>
    show ((5 : Nat) : K) / 10 ^ 1 = 1 / 2
    norm_num
  | dataFlow => exact Scalar.ofNat_one
  | call => exact Scalar.ofNat_one

/-- **A static fit takes the gains as coefficients.** -/
theorem coefficient_eq_gain [IsStrictOrderedRing K] (hg : g.WellFormed) {u v : String}
    (h : g.HasEdge u v) : coefficient g v u = g.gain u v := by
  obtain ⟨e, he⟩ := exists_edge? hg h
  rw [coefficient, gain, he]
  show e.weight.getD (defaultCoefficient e.kind) = e.gain
  rw [defaultCoefficient_eq]
  rfl

/-! ## 2. Paths -/

/-- The product of the gains along a list of nodes. -/
def pathGain (g : CausalGraph K) : List String → K
  | u :: v :: rest => g.gain u v * g.pathGain (v :: rest)
  | _ => 1

theorem pathGain_concat {q : List String} {u v : String} (h : q.getLast? = some u) :
    g.pathGain (q ++ [v]) = g.pathGain q * g.gain u v := by
  induction q with
  | nil => exact nomatch h
  | cons a q ih =>
    cases q with
    | nil =>
      obtain rfl := Option.some.inj h
      show g.gain a v * 1 = 1 * g.gain a v
      rw [mul_one, one_mul]
    | cons b q =>
      rw [List.getLast?_cons_cons] at h
      show g.gain a b * g.pathGain (b :: q ++ [v]) = g.gain a b * g.pathGain (b :: q) * g.gain u v
      rw [ih h, mul_assoc]

omit [Field K] [LinearOrder K] [FloorSemiring K] [RootExp K] in
theorem isWalk_concat (hk : g.KnownEnds) {q : List String} {u v : String}
    (h : q.getLast? = some u) : g.IsWalk (q ++ [v]) ↔ g.IsWalk q ∧ g.HasEdge u v := by
  induction q with
  | nil => exact nomatch h
  | cons a q ih =>
    cases q with
    | nil =>
      obtain rfl := Option.some.inj h
      show g.HasEdge a v ∧ v ∈ g.ids ↔ a ∈ g.ids ∧ g.HasEdge a v
      exact ⟨fun h => ⟨h.1.source_mem hk, h.1⟩, fun h => ⟨h.2, h.2.target_mem hk⟩⟩
    | cons b q =>
      rw [List.getLast?_cons_cons] at h
      show g.HasEdge a b ∧ g.IsWalk (b :: q ++ [v]) ↔
        (g.HasEdge a b ∧ g.IsWalk (b :: q)) ∧ g.HasEdge u v
      rw [ih h, and_assoc]

/-- **A path to another node is a path to one of its parents and one more edge.** -/
theorem isPath_concat (hg : g.WellFormed) {x y : String} (hne : x ≠ y) {p : List String} :
    g.IsPath x y p ↔ ∃ u ∈ g.parents y, ∃ q, g.IsPath x u q ∧ q ++ [y] = p := by
  constructor
  · rintro ⟨hw, -, hhead, hlast⟩
    obtain ⟨q, rfl⟩ := List.getLast?_eq_some_iff.mp hlast
    cases hq : q.getLast? with
    | none =>
      rw [List.getLast?_eq_none_iff.mp hq] at hhead
      exact absurd (Option.some.inj hhead).symm hne
    | some u =>
      obtain ⟨hwalk, hedge⟩ := (isWalk_concat hg.known hq).mp hw
      have hhead' : q.head? = some x := by
        cases q with
        | nil => exact nomatch hq
        | cons a q => exact hhead
      exact ⟨u, mem_parents.mpr hedge, q, ⟨hwalk, hwalk.nodup hg, hhead', hq⟩, rfl⟩
  · rintro ⟨u, hu, q, ⟨hw, -, hhead, hlast⟩, rfl⟩
    have hwalk : g.IsWalk (q ++ [y]) := (isWalk_concat hg.known hlast).mpr ⟨hw, mem_parents.mp hu⟩
    refine ⟨hwalk, hwalk.nodup hg, ?_, List.getLast?_concat⟩
    cases q with
    | nil => exact nomatch hhead
    | cons a q => exact hhead

omit [Field K] [LinearOrder K] [FloorSemiring K] [RootExp K] in
theorem nodup_allPaths (g : CausalGraph K) (x y : String) : (g.allPaths x y).Nodup :=
  allPaths_pairwise.imp fun {p q} (h : PathBefore p q) (e : p = q) =>
    pathBefore_asymm.asymm p q h (e ▸ h)

/-- The paths to another node, sorted by the parent before it. -/
theorem allPaths_perm_parents (hg : g.WellFormed) {x y : String} (hy : y ∈ g.ids) (hne : x ≠ y) :
    (g.allPaths x y).Perm
      ((g.parents y).flatMap fun u => (g.allPaths x u).map fun q => q ++ [y]) := by
  have hinj (q r : List String) (h : q ++ [y] = r ++ [y]) : q = r := List.append_cancel_right h
  have hmem {u : String} (hu : u ∈ g.parents y) : u ∈ g.ids :=
    (mem_parents.mp hu).source_mem hg.known
  refine (List.perm_ext_iff_of_nodup (nodup_allPaths g x y) ?_).mpr fun p => ?_
  · rw [List.nodup_flatMap]
    refine ⟨fun u _ => (nodup_allPaths g x u).map fun q r => hinj q r, ?_⟩
    -- a path determines the parent that it leads to
    refine (g.parents_increasing y).imp_of_mem fun {u w} hu hw huw => ?_
    rw [Function.onFun, List.disjoint_left]
    rintro p hp hp'
    obtain ⟨q, hq, rfl⟩ := List.mem_map.mp hp
    obtain ⟨r, hr, hqr⟩ := List.mem_map.mp hp'
    obtain rfl := hinj r q hqr
    have hu' := ((mem_allPaths hg (hmem hu)).mp hq).2.2.2
    have hw' := ((mem_allPaths hg (hmem hw)).mp hr).2.2.2
    exact huw.ne (Option.some.inj (hu'.symm.trans hw'))
  · rw [mem_allPaths hg hy, isPath_concat hg hne, List.mem_flatMap]
    refine exists_congr fun u => and_congr_right fun hu => ?_
    rw [List.mem_map]
    refine exists_congr fun q => and_congr_left fun _ => ?_
    rw [mem_allPaths hg (hmem hu)]

/-! ## 3. Total gains -/

/-- The sum over all paths of their gains. -/
def totalGain (g : CausalGraph K) (x y : String) : K := ((g.allPaths x y).map g.pathGain).sum

theorem totalGain_self (hg : g.WellFormed) {x : String} (hx : x ∈ g.ids) :
    g.totalGain x x = 1 := by
  rw [totalGain, allPaths_self hg hx, List.map_singleton, List.sum_singleton, pathGain]
  exact fun _ _ _ h => nomatch h

theorem totalGain_eq_zero (hg : g.WellFormed) {x y : String} (hy : y ∈ g.ids) (hne : x ≠ y)
    (h : ¬ g.Reaches x y) : g.totalGain x y = 0 := by
  have hnil : g.allPaths x y = [] := (allPaths_eq_nil_iff hg hy).mpr fun hxy => hxy.elim hne h
  rw [totalGain, hnil, List.map_nil, List.sum_nil]

/-- **The total gains at a node come from those at its parents.** -/
theorem totalGain_eq_sum_parents (hg : g.WellFormed) {x y : String} (hy : y ∈ g.ids)
    (hne : x ≠ y) :
    g.totalGain x y = ((g.parents y).map fun u => g.totalGain x u * g.gain u y).sum := by
  rw [totalGain, ((allPaths_perm_parents hg hy hne).map g.pathGain).sum_eq, List.map_flatMap,
    List.flatMap_def, List.sum_flatten, List.map_map]
  refine congrArg List.sum (List.map_congr_left fun u hu => ?_)
  have hmem : u ∈ g.ids := (mem_parents.mp hu).source_mem hg.known
  rw [totalGain, ← List.sum_map_mul_right, Function.comp_apply, List.map_map]
  refine congrArg List.sum (List.map_congr_left fun q hq => ?_)
  exact pathGain_concat ((mem_allPaths hg hmem).mp hq).2.2.2

end CausalGraph

end CodeCausality
