import Mathlib.Tactic.FieldSimp
import Mathlib.Tactic.LinearCombination
import Mathlib.Tactic.Ring
import CodeCausality.Proofs.Graph.Gain
import CodeCausality.Proofs.Model.Static
import CodeCausality.Proofs.Simulation.Impact

/-!
# Tracing paths

In a static fit and exact arithmetic a value is noise plus the parents' values times the gains of
their edges. Two draws with one noise therefore differ at a node by what its parents differ by, and
a forced value spreads along the paths.

* `exists_noise_valueAt` -- the value of a node that is not forced; the noise is that of the draw
  and the node, whatever is forced elsewhere;
* `valueAt_sub_valueAt` -- **forcing a node changes another by the total gain times what it changes
  the forced one by**, in each draw: along the order the noise cancels, and the gains come from the
  parents (`CausalGraph.totalGain_eq_sum_parents`);
* `exists_impact_forceNumber` -- so a query reports the total gain times the shift of the forced
  node's mean;
* `static_fits_trace_paths` -- both, with what the total gain is.
-/

namespace CodeCausality

namespace Simulation

/-! ## 1. The step of a node -/

section Step

variable {α : Type} [Scalar α] {g : CausalGraph α} {settings : FitSettings α} {now : Instant}

/-- The value that a draw gives a node. -/
def valueAt (g : CausalGraph α) (values : List α) (id : String) : α :=
  values.getD (g.topologicalOrder.idxOf id) 0

theorem domainOf_fitStatic (id : String) :
    domainOf (fitStatic settings now g) id = .continuous := by
  rw [domainOf]
  split
  · rename_i n hn
    exact (Model.mechanism_fitStatic hn).2.1
  · rfl

/-- A step of a static fit reads its parents' values. -/
theorem stepFeatures_fitStatic {clamps : List (String × α)} {id : String} {n : NodeMechanism α}
    (hn : (fitStatic settings now g).mechanism? id = some n) (values : List α) :
    stepFeatures (nodeStep (fitStatic settings now g) clamps id n) values =
      (g.parents id).map (valueAt g values) := by
  have hparents := (Model.mechanism_fitStatic hn).1
  rw [stepFeatures, nodeStep, hparents]
  generalize g.parents id = ids
  induction ids with
  | nil => rfl
  | cons p ids ih =>
    rw [List.map_cons, List.flatMap_cons, ih, domainOf_fitStatic]
    rfl

/-- The step at the node's position, and the mechanism it stands for. -/
theorem Planned.exists_step (hg : g.WellFormed) {clamps : List (String × α)}
    {steps : List (Step α)} (h : Planned (fitStatic settings now g) clamps steps) {id : String}
    (hid : id ∈ g.ids) :
    ∃ n, (fitStatic settings now g).mechanism? id = some n ∧
      steps[g.topologicalOrder.idxOf id]? =
        some (nodeStep (fitStatic settings now g) clamps id n) :=
  h.step _ id (getElem?_idxOf (Model.grounded_fitStatic hg) hid)

theorem valueAt_of_clamp {ρ : Type} [Noise ρ α] (hg : g.WellFormed) (seed : UInt64) {id : String}
    (hid : id ∈ g.ids) {clamps : List (String × α)} {steps : List (Step α)} {v : α}
    (hsteps : Planned (fitStatic settings now g) clamps steps) (h : clamps.lookup id = some v) :
    valueAt g (drawOnce ρ steps seed) id = v := by
  obtain ⟨n, -, hstep⟩ := hsteps.exists_step hg hid
  rw [valueAt, List.getD_eq_getElem?_getD, getElem?_drawOnce hstep, Option.getD_some, stepValue]
  unfold nodeStep
  rw [h]

/-- The column of a node: what each draw gives it. -/
theorem getElem?_columns_idxOf {ρ : Type} [Noise ρ α] (hg : g.WellFormed) (n : Nat) (seed : UInt64)
    {id : String} (hid : id ∈ g.ids) {clamps : List (String × α)} {steps : List (Step α)}
    (hsteps : Planned (fitStatic settings now g) clamps steps) :
    (simulate ρ steps n seed).columns[g.topologicalOrder.idxOf id]? =
      some ((List.range n).map fun i =>
        valueAt g (drawOnce ρ steps (streamSeed seed (UInt64.ofNat i))) id) := by
  have hlt : g.topologicalOrder.idxOf id < steps.length := by
    rw [hsteps.length]
    exact List.idxOf_lt_length_iff.mpr (hg.mem_order.mpr hid)
  rw [getElem?_columns hlt, draws, List.map_map]
  rfl

theorem column_simulate {ρ : Type} [Noise ρ α] (hg : g.WellFormed) (n : Nat) (seed : UInt64)
    {id : String} (hid : id ∈ g.ids) {clamps : List (String × α)} {steps : List (Step α)}
    (hsteps : Planned (fitStatic settings now g) clamps steps) :
    (simulate ρ steps n seed).column (g.topologicalOrder.idxOf id) = (List.range n).map fun i =>
      valueAt g (drawOnce ρ steps (streamSeed seed (UInt64.ofNat i))) id := by
  rw [Samples.column, List.getD_eq_getElem?_getD, getElem?_columns_idxOf hg n seed hid hsteps,
    Option.getD_some]

/-- The value at a node in one of the draws. -/
def Samples.at? (s : Samples α) (g : CausalGraph α) (i : Nat) (id : String) : Option α :=
  s.columns[g.topologicalOrder.idxOf id]?.bind fun column => column[i]?

theorem at?_simulate {ρ : Type} [Noise ρ α] (hg : g.WellFormed) {n i : Nat} (hi : i < n)
    (seed : UInt64) {id : String} (hid : id ∈ g.ids) {clamps : List (String × α)}
    {steps : List (Step α)} (hsteps : Planned (fitStatic settings now g) clamps steps) :
    (simulate ρ steps n seed).at? g i id =
      some (valueAt g (drawOnce ρ steps (streamSeed seed (UInt64.ofNat i))) id) := by
  rw [Samples.at?, getElem?_columns_idxOf hg n seed hid hsteps, Option.bind_some,
    List.getElem?_map, List.getElem?_range hi]
  rfl

/-! ## 2. One forced number -/

/-- Forces one number. -/
def forceNumber (x : String) (v : α) : Intervention α := Dictionary.ofList [(x, .number v)]

theorem checkIntervention_forceNumber (hg : g.WellFormed) {x : String} (hx : x ∈ g.ids) {v : α}
    (hv : Scalar.isFinite v = true) {n : Nat} (hn : 2 ≤ n) :
    checkIntervention (fitStatic settings now g) (forceNumber x v) n = .ok [(x, v)] := by
  have hmissing : (fitStatic settings now g).missingMechanisms = [] :=
    Model.missingMechanisms_fitStatic hg
  obtain ⟨mechanism, hmechanism⟩ := Model.exists_mechanism hmissing hx
  have hkeys : (forceNumber x v).keys = [x] := rfl
  refine checkIntervention_eq_ok_iff.mpr ⟨hkeys ▸ List.cons_ne_nil x [], hn, ?_, hmissing, ?_⟩
  · rw [hkeys]
    exact fun k hk => List.mem_singleton.mp hk ▸ hx
  · show encodeClamps _ [(x, .number v)] = _
    rw [encodeClamps, hmechanism]
    dsimp only
    rw [(Model.mechanism_fitStatic hmechanism).2.1, Domain.encode?, if_pos hv]
    rfl

theorem mem_affectedNodes_forceNumber (hg : g.WellFormed) {x : String} {v : α} {y : String} :
    y ∈ affectedNodes (fitStatic settings now g) (forceNumber x v) ↔ g.Reaches x y := by
  have hkeys : (forceNumber x v).keys = [x] := rfl
  have hgraph : (fitStatic settings now g).graph = g := rfl
  rw [mem_affectedNodes hg.known, hkeys, hgraph]
  constructor
  · rintro ⟨⟨k, hk, h⟩, -⟩
    exact List.mem_singleton.mp hk ▸ h
  · intro h
    refine ⟨⟨x, List.mem_singleton_self x, h⟩, fun hy => ?_⟩
    exact hg.acyclic x (List.mem_singleton.mp hy ▸ h)

/-- At numbers an impact reports the difference of the means. -/
theorem shift_measureAt {ρ : Type} [Noise ρ α] {simulation : SimulationSettings α} {seed : UInt64}
    {baseline intervened : Samples α} {y : String} :
    (measureAt ρ simulation (fitStatic settings now g) seed baseline intervened y).shift =
      Stats.mean (intervened.column (g.topologicalOrder.idxOf y)) -
        Stats.mean (baseline.column (g.topologicalOrder.idxOf y)) := by
  rw [measureAt, domainOf_fitStatic]
  rfl

end Step

/-! ## 3. Exact draws -/

section Exact

variable {K : Type} [Field K] [LinearOrder K] [IsStrictOrderedRing K] [FloorSemiring K] [RootExp K]
  {ρ : Type} [Noise ρ K] {g : CausalGraph K} {settings : FitSettings K} {now : Instant}

/-- **A value that is not forced is noise plus the parents' values times their gains**, and the
noise is that of the seed and the position. -/
theorem exists_noise (hg : g.WellFormed) (seed : UInt64) (position : Nat) {id : String}
    {n : NodeMechanism K} (hn : (fitStatic settings now g).mechanism? id = some n) :
    ∃ z : K, ∀ (clamps : List (String × K)) (values : List K), clamps.lookup id = none →
      stepValue ρ seed position (nodeStep (fitStatic settings now g) clamps id n) values =
        z + ((g.parents id).map fun p => g.gain p id * valueAt g values p).sum := by
  have hstatic := (Model.mechanism_fitStatic hn).2.2
  -- without a clamp the mechanism is applied to the parents' values
  have hstep (clamps : List (String × K)) (values : List K) (h : clamps.lookup id = none) :
      stepValue ρ seed position (nodeStep (fitStatic settings now g) clamps id n) values =
        (n.mechanism.sample ((g.parents id).map (valueAt g values))
          (Noise.start seed (UInt64.ofNat position) : ρ)).1 := by
    rw [stepValue, stepFeatures_fitStatic hn]
    unfold nodeStep
    rw [h]
  generalize n.mechanism = mechanism at hstatic hstep
  cases hstatic with
  | root hroot =>
    refine ⟨(Mechanism.sample (.staticPrior (Scalar.ofNat 0) (Scalar.ofNat 1)) []
      (Noise.start seed (UInt64.ofNat position) : ρ)).1,
      fun clamps values h => (hstep clamps values h).trans ?_⟩
    rw [hroot, List.map_nil, List.map_nil, List.sum_nil, add_zero]
    rfl
  | inner hinner std =>
    refine ⟨(Noise.gaussian std (Noise.start seed (UInt64.ofNat position) : ρ)).1,
      fun clamps values h => (hstep clamps values h).trans ?_⟩
    show Regression.linear (Scalar.ofNat 0) ((g.parents id).map (coefficient g id))
      ((g.parents id).map (valueAt g values)) + _ = _
    rw [Regression.linear_eq, Scalar.ofNat_zero, zero_add, List.zipWith_map, List.zipWith_self,
      add_comm]
    refine congrArg (_ + ·) (congrArg List.sum (List.map_congr_left fun p hp => ?_))
    rw [CausalGraph.coefficient_eq_gain hg (CausalGraph.mem_parents.mp hp)]

variable {x : String} {v : K} {base forced : List (Step K)}

/-- **In a draw, a value that is not forced is noise plus the parents' values times their
gains.** -/
theorem exists_noise_valueAt (settings : FitSettings K) (now : Instant) (hg : g.WellFormed)
    (seed : UInt64) {id : String} (hid : id ∈ g.ids) :
    ∃ z : K, ∀ (clamps : List (String × K)) (steps : List (Step K)),
      Planned (fitStatic settings now g) clamps steps → clamps.lookup id = none →
      valueAt g (drawOnce ρ steps seed) id =
        z + ((g.parents id).map fun p =>
          g.gain p id * valueAt g (drawOnce ρ steps seed) p).sum := by
  obtain ⟨n, hn⟩ := Model.exists_mechanism (Model.missingMechanisms_fitStatic hg) hid
  obtain ⟨z, hz⟩ := exists_noise (ρ := ρ) hg seed (g.topologicalOrder.idxOf id) hn
  refine ⟨z, fun clamps steps hsteps hclamp => ?_⟩
  obtain ⟨n', hn', hstep⟩ := hsteps.exists_step hg hid
  obtain rfl := Option.some.inj (hn.symm.trans hn')
  rw [valueAt, List.getD_eq_getElem?_getD, getElem?_drawOnce hstep, Option.getD_some,
    hz clamps _ hclamp]
  refine congrArg (z + ·) (congrArg List.sum (List.map_congr_left fun p hp => ?_))
  -- the parents' values are drawn before
  have hlt : g.topologicalOrder.idxOf p < g.topologicalOrder.idxOf id :=
    hg.idxOf_lt_of_reaches (CausalGraph.mem_parents.mp hp).reaches
  rw [valueAt, valueAt, List.getD_eq_getElem?_getD, List.getD_eq_getElem?_getD,
    List.getElem?_take_of_lt hlt]

/-- **A forced value spreads along the paths.** -/
theorem valueAt_sub_valueAt (hg : g.WellFormed)
    (hbase : Planned (fitStatic settings now g) [] base)
    (hforced : Planned (fitStatic settings now g) [(x, v)] forced) (seed : UInt64) {y : String}
    (hy : y ∈ g.ids) :
    valueAt g (drawOnce ρ forced seed) y - valueAt g (drawOnce ρ base seed) y =
      g.totalGain x y * (v - valueAt g (drawOnce ρ base seed) x) := by
  -- along the order: the parents stand before the node
  induction hpos : g.topologicalOrder.idxOf y using Nat.strong_induction_on generalizing y with
  | _ position ih =>
    subst hpos
    by_cases hxy : x = y
    · subst hxy
      have hclamp : List.lookup x [(x, v)] = some v := by
        rw [List.lookup_cons, beq_self_eq_true]
      rw [valueAt_of_clamp hg seed hy hforced hclamp, CausalGraph.totalGain_self hg hy, one_mul]
    · have hclamp : List.lookup y [(x, v)] = none := by
        rw [List.lookup_cons, beq_false_of_ne (Ne.symm hxy), List.lookup_nil]
      obtain ⟨z, hz⟩ := exists_noise_valueAt (ρ := ρ) settings now hg seed hy
      have hparents : ∀ p ∈ g.parents y,
          g.gain p y * valueAt g (drawOnce ρ forced seed) p =
            g.gain p y * valueAt g (drawOnce ρ base seed) p +
              g.totalGain x p * g.gain p y * (v - valueAt g (drawOnce ρ base seed) x) := by
        intro p hp
        have hedge := CausalGraph.mem_parents.mp hp
        have hprev := ih _ (hg.idxOf_lt_of_reaches hedge.reaches) (hedge.source_mem hg.known) rfl
        rw [sub_eq_iff_eq_add.mp hprev]
        ring
      rw [hz _ forced hforced hclamp, hz _ base hbase rfl, List.map_congr_left hparents,
        List.sum_map_add, List.sum_map_mul_right, ← CausalGraph.totalGain_eq_sum_parents hg hy hxy]
      ring

/-! ## 4. Exact means -/

omit [IsStrictOrderedRing K] in
theorem sum_sub_sum {f b x : Nat → K} {t v : K} {n : Nat}
    (h : ∀ i < n, f i - b i = t * (v - x i)) :
    ((List.range n).map f).sum - ((List.range n).map b).sum =
      t * (n * v - ((List.range n).map x).sum) := by
  induction n with
  | zero => simp
  | succ n ih =>
    have hlast := h n (Nat.lt_succ_self n)
    have hrest := ih fun i hi => h i (Nat.lt_succ_of_lt hi)
    simp only [List.range_succ, List.map_append, List.map_singleton, List.sum_append,
      List.sum_singleton, Nat.cast_succ]
    linear_combination hlast + hrest

omit [IsStrictOrderedRing K] in
/-- Where all draws differ by multiples of one gain, so do the means. -/
theorem mean_sub_mean {f b x : Nat → K} {t v : K} {n : Nat} (hn : 0 < n)
    (h : ∀ i < n, f i - b i = t * (v - x i)) :
    Stats.mean ((List.range n).map f) - Stats.mean ((List.range n).map b) =
      t * (v - ((List.range n).map x).sum / n) := by
  have hne (y : Nat → K) : (List.range n).map y ≠ [] := fun hnil => by
    rw [List.map_eq_nil_iff, List.range_eq_nil] at hnil
    omega
  have hpos : (n : K) ≠ 0 := Nat.cast_ne_zero.mpr hn.ne'
  have hsum := sum_sub_sum h
  rw [Stats.mean_eq (hne f), Stats.mean_eq (hne b), List.length_map, List.length_map,
    List.length_range, ← sub_div, hsum]
  field_simp

/-! ## 5. Tracing paths -/

/-- **Queries report the total gain times the mean of what was forced.** -/
theorem exists_impact_forceNumber (hg : g.WellFormed) (hx : x ∈ g.ids) (v : K)
    (hbase : plan (fitStatic settings now g) g.topologicalOrder [] = .ok base)
    (simulation : SimulationSettings K) {n : Nat} (hn : 2 ≤ n) {kept : Baselines K}
    (hk : Faithful ρ (fitStatic settings now g) kept) :
    ∃ impact column,
      (estimateImpact ρ simulation (fitStatic settings now g) (forceNumber x v) n false kept).1 =
        .ok impact ∧
      (simulate ρ base n (querySeed simulation (fitStatic settings now g))).columns[
        g.topologicalOrder.idxOf x]? = some column ∧
      column.length = n ∧
      (∀ y, y ∈ impact.shifts.keys ↔ g.Reaches x y) ∧
      ∀ y, g.Reaches x y →
        impact.shifts.get? y = some (g.totalGain x y * (v - column.sum / n)) := by
  have hm : (fitStatic settings now g).Grounded := Model.grounded_fitStatic hg
  have hcheck : checkIntervention (fitStatic settings now g) (forceNumber x v) n = .ok [(x, v)] :=
    checkIntervention_forceNumber hg hx (Scalar.isFinite_exact v) hn
  obtain ⟨base', forced, hbase', hpbase, -, hpforced, hanswer⟩ :=
    estimateImpact_of_accepted hm hk hcheck simulation false
  obtain rfl := Except.ok.inj (hbase.symm.trans hbase')
  refine ⟨_, _, hanswer.resolve_right fun h => Bool.false_ne_true h.1,
    getElem?_columns_idxOf hg n _ hx hpbase, by rw [List.length_map, List.length_range],
    fun y => ?_, fun y hxy => ?_⟩
  · rw [compare_eq, keys_report]
    exact mem_affectedNodes_forceNumber hg
  · have hy : y ∈ g.ids := hxy.target_mem hg.known
    rw [compare_eq]
    dsimp only
    rw [get?_report _ ((mem_affectedNodes_forceNumber hg).mpr hxy), shift_measureAt,
      column_simulate hg n _ hy hpforced, column_simulate hg n _ hy hpbase]
    refine congrArg some (mean_sub_mean (by omega) fun i _ => ?_)
    exact valueAt_sub_valueAt hg hpbase hpforced _ hy

/-- **In a static fit a forced value spreads along the paths.** In each draw forcing `v` at `x`
changes `y` by the sum over all paths from `x` to `y` of the products of their edges' gains, times
what it changes `x` by; a query reports the same of the means. The sum is one at `x` and zero where
no path leads. -/
theorem static_fits_trace_paths {nodes : List Element} {edges : List (Edge K)}
    (hg : CausalGraph.ofParts nodes edges = .ok g) {traces : Option (TraceTable K)}
    {staticOnly : Bool} {m : Model K} (hm : fit ρ settings now g traces staticOnly = .ok m)
    (hstatic : traces = none ∨ staticOnly = true) (hx : x ∈ g.ids) (v : K) :
    (∃ base forced,
      plan m m.graph.topologicalOrder [] = .ok base ∧
      (∀ n, 2 ≤ n → checkIntervention m (forceNumber x v) n = .ok [(x, v)]) ∧
      plan m m.graph.topologicalOrder [(x, v)] = .ok forced ∧
      (∀ seed n i, i < n → ∀ y ∈ g.ids, ∃ before after start,
        (simulate ρ base n seed).at? g i y = some before ∧
        (simulate ρ forced n seed).at? g i y = some after ∧
        (simulate ρ base n seed).at? g i x = some start ∧
        after - before = g.totalGain x y * (v - start)) ∧
      ∀ (simulation : SimulationSettings K) n kept, 2 ≤ n → Kept ρ m kept →
        ∃ impact column,
          (estimateImpact ρ simulation m (forceNumber x v) n false kept).1 = .ok impact ∧
          (simulate ρ base n (querySeed simulation m)).columns[g.topologicalOrder.idxOf x]? =
            some column ∧ column.length = n ∧
          (∀ y, y ∈ impact.shifts.keys ↔ g.Reaches x y) ∧
          ∀ y, g.Reaches x y →
            impact.shifts.get? y = some (g.totalGain x y * (v - column.sum / n))) ∧
    (∀ y ∈ g.ids, g.totalGain x y = ((g.allPaths x y).map g.pathGain).sum ∧
      ∀ limit, (g.allPaths x y).length ≤ limit → g.paths x y limit = .ok (g.allPaths x y)) ∧
    g.totalGain x x = 1 ∧
    ∀ y ∈ g.ids, x ≠ y → ¬ g.Reaches x y → g.totalGain x y = 0 := by
  have hwf := CausalGraph.wellFormed_of_ofParts hg
  obtain rfl : fitStatic settings now g = m :=
    Except.ok.inj ((Model.fit_of_static hstatic).symm.trans hm)
  have hgrounded : (fitStatic settings now g).Grounded := Model.grounded_fitStatic hwf
  have hmissing : (fitStatic settings now g).missingMechanisms = [] :=
    Model.missingMechanisms_fitStatic hwf
  obtain ⟨base, hbase, hpbase⟩ := exists_planned hgrounded hmissing []
  obtain ⟨forced, hforced, hpforced⟩ := exists_planned hgrounded hmissing [(x, v)]
  refine ⟨⟨base, forced, hbase, fun n hn => checkIntervention_forceNumber hwf hx
    (Scalar.isFinite_exact v) hn, hforced, fun seed n i hi y hy => ?_,
    fun simulation n kept hn hk => exists_impact_forceNumber hwf hx v hbase simulation hn
      hk.faithful⟩, fun y hy => ⟨rfl, fun limit hlimit => ?_⟩,
    CausalGraph.totalGain_self hwf hx, fun y hy hne h => CausalGraph.totalGain_eq_zero hwf hy hne h⟩
  · exact ⟨_, _, _, at?_simulate hwf hi seed hy hpbase, at?_simulate hwf hi seed hy hpforced,
      at?_simulate hwf hi seed hx hpbase, valueAt_sub_valueAt hwf hpbase hpforced _ hy⟩
  · rw [CausalGraph.paths_eq_take_allPaths hwf hx hy, List.take_of_length_le hlimit]

end Exact

/-! ## 6. Two paths -/

/-- Four nodes, two paths, a weight on one and control flow on the other. -/
def forkNodes : List Element :=
  [.of "a" .function [], .of "b" .function [], .of "c" .function [], .of "d" .function []]

def forkEdges (w : ℝ) : List (Edge ℝ) :=
  [⟨"a", "b", .dataFlow, some w⟩, ⟨"a", "c", .controlFlow, none⟩, ⟨"b", "d", .call, none⟩,
    ⟨"c", "d", .dataFlow, none⟩]

def fork (w : ℝ) : CausalGraph ℝ := .of forkNodes (forkEdges w)

theorem ofParts_fork (w : ℝ) : CausalGraph.ofParts forkNodes (forkEdges w) = .ok (fork w) := by cbv

theorem allPaths_fork (w : ℝ) :
    (fork w).allPaths "a" "d" = [["a", "b", "d"], ["a", "c", "d"]] := by cbv

theorem totalGain_fork (w : ℝ) : (fork w).totalGain "a" "d" = w + 1 / 2 := by
  have hgain : ∀ e ∈ forkEdges w, (fork w).gain e.source e.target = e.gain := fun e he =>
    CausalGraph.gain_of_mem (CausalGraph.wellFormed_of_ofParts (ofParts_fork w)) he
  rw [forkEdges, List.forall_mem_cons, List.forall_mem_cons, List.forall_mem_cons,
    List.forall_mem_singleton] at hgain
  obtain ⟨hab, hac, hbd, hcd⟩ := hgain
  rw [CausalGraph.totalGain, allPaths_fork]
  simp [CausalGraph.pathGain, hab, hac, hbd, hcd, Edge.gain]

/-- Noise that is its stream's number, in units of the spread. -/
structure StreamNumber where
  word : UInt64

noncomputable instance : Noise StreamNumber ℝ where
  start seed stream := ⟨seed + stream⟩
  uniform r := (0, r)
  gaussian std r := (std * r.word.toNat, r)
  position _ r := (0, r)
  choice _ r := (0, r)

/-- Through both paths of the fork a forced value counts three and a half times. -/
theorem static_fits_trace_paths_fork :
    ∃ (impact : Impact ℝ) (base : List (Step ℝ)) (column : List ℝ),
      (estimateImpact StreamNumber {} (fitStatic {} ⟨0, 0⟩ (fork 3)) (forceNumber "a" 2) 2 false
        []).1 = .ok impact ∧
      plan (fitStatic {} ⟨0, 0⟩ (fork 3)) (fork 3).topologicalOrder [] = .ok base ∧
      (simulate StreamNumber base 2 (querySeed {} (fitStatic {} ⟨0, 0⟩ (fork 3)))).columns[
        (fork 3).topologicalOrder.idxOf "a"]? = some column ∧
      impact.shifts.get? "d" = some (7 / 2 * (2 - column.sum / 2)) := by
  have hfit : fit StreamNumber {} ⟨0, 0⟩ (fork 3) none true =
      .ok (fitStatic {} ⟨0, 0⟩ (fork 3)) := rfl
  have ha : "a" ∈ (fork 3).ids := .head _
  obtain ⟨⟨base, forced, hbase, -, -, -, hqueries⟩, -⟩ :=
    static_fits_trace_paths (ofParts_fork 3) hfit (.inl rfl) ha 2
  obtain ⟨impact, column, himpact, hcolumn, -, -, hshift⟩ := hqueries {} 2 [] (le_refl 2) .fresh
  have hab : (fork 3).HasEdge "a" "b" := ⟨_, .head _, rfl, rfl⟩
  have hbd : (fork 3).HasEdge "b" "d" := ⟨_, .tail _ (.tail _ (.head _)), rfl, rfl⟩
  have hgain : (3 : ℝ) + 1 / 2 = 7 / 2 := by norm_num
  refine ⟨impact, base, column, himpact, hbase, hcolumn, ?_⟩
  rw [hshift "d" (hab.reaches.trans hbd.reaches), totalGain_fork, hgain]
  norm_num

end Simulation

end CodeCausality
