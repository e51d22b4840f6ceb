import Mathlib.Algebra.Order.BigOperators.Group.List
import Mathlib.Tactic.FieldSimp
import Mathlib.Tactic.Positivity
import CodeCausality.Proofs.Graph.Gain
import CodeCausality.Proofs.Model.Fitted
import CodeCausality.Proofs.Model.Static

/-!
# Calibrated noise

A static fit gives each node as much noise as leaves its parents the target share of the variance.

* `varianceTable`, `lookup_parent` -- **the variance of each parent is there when a node is
  fitted**, as parents come first;
* `staticNode_of_parents` -- what a node is then given: the signal of the parents, noise beside it,
  and a score;
* `impliedVariance_pos` -- all variances are positive, by induction along the order;
* `causedVariance_eq_zero_iff`, `share_of_signal` -- a signal from any coefficient, and its share;
* `meanScore_eq` -- the score of a model is the mean over the scored nodes;
* `static_fits_are_calibrated` -- **every node of a static fit has the target share.**
-/

namespace CodeCausality

/-! ## 1. The variances in the order of the nodes -/

section Table

variable {α : Type} [Scalar α]

/-- The variances after the nodes of a list, given those before. -/
def varianceTable (target : α) (g : CausalGraph α) : List (String × α) → List String →
    List (String × α)
  | variances, [] => variances
  | variances, id :: rest =>
    varianceTable target g ((id, (staticNode target g variances id).2) :: variances) rest

/-- The variance of a node in the static model of the graph. -/
def impliedVariance (target : α) (g : CausalGraph α) (id : String) : α :=
  ((varianceTable target g [] g.topologicalOrder).lookup id).getD 1

variable {target : α} {g : CausalGraph α} {variances : List (String × α)} {id p : String}
  {before after : List String}

theorem varianceTable_append :
    varianceTable target g variances (before ++ after) =
      varianceTable target g (varianceTable target g variances before) after := by
  induction before generalizing variances with
  | nil => rfl
  | cons a before ih => exact ih

/-- **A node is fitted with the variances of those before it.** -/
theorem staticNodes_append :
    staticNodes target g variances (before ++ after) =
      staticNodes target g variances before ++
        staticNodes target g (varianceTable target g variances before) after := by
  induction before generalizing variances with
  | nil => rfl
  | cons a before ih =>
    rw [List.cons_append, Model.staticNodes_cons, Model.staticNodes_cons, ih]
    rfl

theorem lookup_varianceTable_of_not_mem (h : p ∉ after) :
    (varianceTable target g variances after).lookup p = variances.lookup p := by
  induction after generalizing variances with
  | nil => rfl
  | cons a after ih =>
    obtain ⟨hne, hrest⟩ := not_or.mp (List.mem_cons.not.mp h)
    rw [varianceTable, ih hrest, List.lookup_cons, beq_false_of_ne hne]

theorem lookup_varianceTable (h : id ∉ after) :
    (varianceTable target g variances (before ++ id :: after)).lookup id =
      some (staticNode target g (varianceTable target g variances before) id).2 := by
  rw [varianceTable_append, varianceTable, lookup_varianceTable_of_not_mem h,
    List.lookup_cons_self]

variable (hg : g.WellFormed) (ho : g.topologicalOrder = before ++ id :: after)

include hg ho

theorem not_mem_before_after : id ∉ before ∧ id ∉ after := by
  have hnodup := hg.order_nodup
  rw [ho, List.nodup_middle] at hnodup
  exact not_or.mp fun h => (List.nodup_cons.mp hnodup).1 (List.mem_append.mpr h)

/-- The variance of a node is that which it was fitted with. -/
theorem impliedVariance_eq : impliedVariance target g id =
    (staticNode target g (varianceTable target g [] before) id).2 := by
  rw [impliedVariance, ho, lookup_varianceTable (not_mem_before_after hg ho).2, Option.getD_some]

/-- Parents come before. -/
theorem mem_before_of_mem_parents (hp : p ∈ g.parents id) : p ∈ before := by
  have hlt := hg.idxOf_lt_of_reaches (CausalGraph.mem_parents.mp hp).reaches
  rw [ho, List.idxOf_append_of_notMem (not_mem_before_after hg ho).1, List.idxOf_cons_self] at hlt
  by_contra hnot
  rw [List.idxOf_append_of_notMem hnot] at hlt
  omega

/-- **The variance of each parent is there when a node is fitted.** -/
theorem lookup_parent (hp : p ∈ g.parents id) :
    (varianceTable target g [] before).lookup p = some (impliedVariance target g p) := by
  obtain ⟨first, second, rfl⟩ := List.append_of_mem (mem_before_of_mem_parents hg ho hp)
  have ho' : g.topologicalOrder = first ++ p :: (second ++ id :: after) := by
    rw [ho, List.append_assoc, List.cons_append]
  have hnot := (not_mem_before_after hg ho').2
  rw [lookup_varianceTable fun h => hnot (List.mem_append_left _ h), impliedVariance_eq hg ho']

end Table

/-! ## 2. What a node is given -/

section Given

variable {α : Type} [Scalar α]

/-- The variance that the parents cause, if theirs are these. -/
def signalFrom (g : CausalGraph α) (variance : String → α) (id : String) : α :=
  signalVariance ((g.parents id).map (coefficient g id)) ((g.parents id).map variance)

/-- The variance of the noise beside a signal. -/
def noiseBeside (target signal : α) : α :=
  if 0 < signal then signal * (1 - target) / target else 1

/-- The score of a signal: the target, if there is a signal. -/
def scoreOf (target signal : α) : α := if 0 < signal then target else 0

variable {target : α} {g : CausalGraph α} {id : String}

/-- **What a node with parents is given**, if their variances are there. -/
theorem staticNode_of_parents {variances : List (String × α)} {variance : String → α}
    (hne : g.parents id ≠ []) (h : ∀ p ∈ g.parents id, variances.lookup p = some (variance p)) :
    staticNode target g variances id =
      (⟨id, ⟨g.parents id, .continuous, .linearStatic 0 ((g.parents id).map (coefficient g id))
          (Scalar.sqrt (noiseBeside target (signalFrom g variance id)))⟩,
        some (scoreOf target (signalFrom g variance id))⟩,
        signalFrom g variance id + noiseBeside target (signalFrom g variance id)) := by
  have hvariances : (g.parents id).map (fun p => (variances.lookup p).getD 1) =
      (g.parents id).map variance :=
    List.map_congr_left fun p hp => by rw [h p hp, Option.getD_some]
  rw [staticNode]
  split
  · rename_i hroot
    exact absurd hroot hne
  · rw [hvariances]
    unfold scoreOf noiseBeside signalFrom
    dsimp only
    split <;> rfl

theorem staticNode_of_root {variances : List (String × α)} (h : g.parents id = []) :
    staticNode target g variances id = (⟨id, ⟨[], .continuous, .staticPrior 0 1⟩, none⟩, 1) := by
  rw [staticNode, h]

section Order

variable {before after : List String} (hg : g.WellFormed)
  (ho : g.topologicalOrder = before ++ id :: after) (settings : FitSettings α) (now : Instant)

include ho in
theorem staticNode_mem : (staticNode target g (varianceTable target g [] before) id).1 ∈
    staticNodes target g [] g.topologicalOrder := by
  rw [ho, staticNodes_append, Model.staticNodes_cons]
  exact List.mem_append_right _ List.mem_cons_self

include hg

include ho in
/-- The mechanism of a node is what it was given at its turn. -/
theorem mechanism?_fitStatic : (fitStatic settings now g).mechanism? id = some (staticNode
    settings.target g (varianceTable settings.target g [] before) id).1.mechanism :=
  ((nodesSuit_static settings.target g).mechanism?_iff hg).mpr
    ⟨_, staticNode_mem ho, (Model.staticNode_parents _ g _ id).1, rfl⟩

/-- The scored nodes are those with parents. -/
theorem contains_nodeScores_fitStatic (id : String) :
    (fitStatic settings now g).metadata.nodeScores.contains id = true ↔
      id ∈ g.ids ∧ g.parents id ≠ [] :=
  (nodesSuit_static settings.target g).contains_nodeScores_iff hg

variable (target) in
theorem impliedVariance_of_root (hroot : g.parents id = []) (hid : id ∈ g.ids) :
    impliedVariance target g id = 1 := by
  obtain ⟨before, after, ho⟩ := List.append_of_mem (hg.mem_order.mpr hid)
  rw [impliedVariance_eq hg ho, staticNode_of_root hroot]

/-- **A root is given the standard prior**, and no score. -/
theorem fitStatic_root (hroot : g.parents id = []) (hid : id ∈ g.ids) :
    (fitStatic settings now g).mechanism? id = some ⟨[], .continuous, .staticPrior 0 1⟩ ∧
      (fitStatic settings now g).metadata.nodeScores.get? id = none := by
  obtain ⟨before, after, ho⟩ := List.append_of_mem (hg.mem_order.mpr hid)
  constructor
  · rw [mechanism?_fitStatic hg ho settings now, staticNode_of_root hroot]
  · rw [← Option.not_isSome_iff_eq_none]
    exact fun hscored => ((contains_nodeScores_fitStatic hg settings now id).mp hscored).2 hroot

variable (target) in
theorem impliedVariance_of_parents (hne : g.parents id ≠ []) (hid : id ∈ g.ids) :
    impliedVariance target g id = signalFrom g (impliedVariance target g) id +
      noiseBeside target (signalFrom g (impliedVariance target g) id) := by
  obtain ⟨before, after, ho⟩ := List.append_of_mem (hg.mem_order.mpr hid)
  rw [impliedVariance_eq hg ho, staticNode_of_parents hne fun p hp => lookup_parent hg ho hp]

/-- **A node with parents is given their coefficients, noise beside their signal, and a score.** -/
theorem fitStatic_inner (hne : g.parents id ≠ []) (hid : id ∈ g.ids) :
    (fitStatic settings now g).mechanism? id = some ⟨g.parents id, .continuous,
        .linearStatic 0 ((g.parents id).map (coefficient g id)) (Scalar.sqrt
          (noiseBeside settings.target (signalFrom g (impliedVariance settings.target g) id)))⟩ ∧
      (fitStatic settings now g).metadata.nodeScores.get? id =
        some (scoreOf settings.target (signalFrom g (impliedVariance settings.target g) id)) := by
  obtain ⟨before, after, ho⟩ := List.append_of_mem (hg.mem_order.mpr hid)
  have hnode : staticNode settings.target g (varianceTable settings.target g [] before) id = _ :=
    staticNode_of_parents hne fun p hp => lookup_parent hg ho hp
  constructor
  · rw [mechanism?_fitStatic hg ho settings now, hnode]
  · exact (nodesSuit_static settings.target g).get?_nodeScores hg (staticNode_mem ho)
      (Model.staticNode_parents _ g _ id).1 (congrArg (·.1.score) hnode)

end Order

end Given

/-! ## 3. Signal and noise -/

section Exact

variable {K : Type} [Field K] [LinearOrder K] [FloorSemiring K] [RootExp K]

/-- The variance that the parents cause: their variances, by the squares of the coefficients. -/
def causedVariance (g : CausalGraph K) (variance : String → K) (id : String) : K :=
  ((g.parents id).map fun p => coefficient g id p ^ 2 * variance p).sum

theorem signalFrom_eq (g : CausalGraph K) (variance : String → K) (id : String) :
    signalFrom g variance id = causedVariance g variance id := by
  rw [signalFrom, signalVariance, Scalar.sum_eq, List.zipWith_map, List.zipWith_self,
    causedVariance]
  simp only [sq]

theorem noiseBeside_eq (target signal : K) :
    noiseBeside target signal = if 0 < signal then signal * (1 - target) / target else 1 := by
  show (if Scalar.ofNat 0 < signal then signal * (Scalar.ofNat 1 - target) / target
    else Scalar.ofNat 1) = _
  rw [Scalar.ofNat_zero, Scalar.ofNat_one]

theorem scoreOf_eq (target signal : K) :
    scoreOf target signal = if 0 < signal then target else 0 := by
  show (if Scalar.ofNat 0 < signal then target else Scalar.ofNat 0) = _
  rw [Scalar.ofNat_zero]

/-- **The noise beside a signal leaves it the target share.** -/
theorem share_of_signal {target signal : K} (htarget : target ≠ 0) (hsignal : 0 < signal) :
    signal / (signal + noiseBeside target signal) = target := by
  have hne : signal ≠ 0 := hsignal.ne'
  rw [noiseBeside_eq, if_pos hsignal]
  field_simp
  ring

/-- The score of a model is the mean over the scored nodes; one if there are none. -/
theorem meanScore_eq {scores : Dictionary K} {ids : List String} (hids : ids.Nodup)
    (hscored : ∀ id, scores.contains id = true ↔ id ∈ ids) {score : String → K}
    (hscore : ∀ id ∈ ids, scores.get? id = some (score id)) :
    meanScore scores = if ids = [] then 1 else (ids.map score).sum / ids.length := by
  -- the scores stand in the order of their keys, so the sum is taken in another order
  have hperm : scores.keys.Perm ids :=
    (List.perm_ext_iff_of_nodup (scores.keys_increasing.imp ne_of_lt) hids).mpr fun id => by
      rw [← Dictionary.contains_iff, hscored]
  have hvalues : scores.values = scores.keys.map score := by
    rw [Dictionary.values, Dictionary.keys, List.map_map]
    refine List.map_congr_left fun e he => ?_
    have hget : scores.get? e.1 = some e.2 := scores.get?_eq_some_iff.mpr he
    have hmem : e.1 ∈ ids := hperm.subset (List.mem_map_of_mem he)
    exact Option.some.inj (hget.symm.trans (hscore e.1 hmem))
  have hsize : scores.size = ids.length := by
    rw [← hperm.length_eq, Dictionary.size, Dictionary.keys, List.length_map]
  rw [meanScore, Scalar.sum_eq, hvalues, (hperm.map score).sum_eq, hsize, Scalar.ofNat_eq]
  refine ite_congr ?_ (fun _ => Scalar.ofNat_one) fun _ => rfl
  rw [scores.isEmpty_iff]
  exact propext ⟨fun h => (h ▸ hperm).nil_eq.symm, fun h => (h ▸ hperm).eq_nil⟩

/-! ## 4. Variances are positive -/

section Positive

variable [IsStrictOrderedRing K] {g : CausalGraph K} {variance : String → K} {id : String}
  {target signal : K}

/-- The target is a proper share. -/
theorem target_eq (settings : FitSettings K) :
    settings.target = max (5 / 100) (min (settings.staticTarget.getD (6 / 10)) (95 / 100)) := by
  have hlo : (Scalar.ofDecimal 5 2 : K) = 5 / 100 := by
    norm_num [Scalar.ofDecimal_eq]
  have hhi : (Scalar.ofDecimal 95 2 : K) = 95 / 100 := by
    norm_num [Scalar.ofDecimal_eq]
  have hdefault : (Scalar.ofDecimal 6 1 : K) = 6 / 10 := by
    norm_num [Scalar.ofDecimal_eq]
  rw [FitSettings.target, hlo, hhi, hdefault, Scalar.clamp_eq (by norm_num)]

variable (signal) in
theorem noiseBeside_pos (hpos : 0 < target) (hlt : target < 1) : 0 < noiseBeside target signal := by
  rw [noiseBeside_eq]
  split
  · rename_i hsignal
    exact div_pos (mul_pos hsignal (sub_pos.mpr hlt)) hpos
  · exact one_pos

theorem causedVariance_nonneg (h : ∀ p ∈ g.parents id, 0 < variance p) :
    0 ≤ causedVariance g variance id := by
  refine List.sum_nonneg (List.forall_mem_map.mpr fun p hp => ?_)
  exact mul_nonneg (sq_nonneg _) (h p hp).le

/-- **There is no signal exactly if all coefficients are zero.** -/
theorem causedVariance_eq_zero_iff (h : ∀ p ∈ g.parents id, 0 < variance p) :
    causedVariance g variance id = 0 ↔ ∀ p ∈ g.parents id, coefficient g id p = 0 := by
  have hnonneg : ∀ v ∈ (g.parents id).map fun p => coefficient g id p ^ 2 * variance p, 0 ≤ v :=
    List.forall_mem_map.mpr fun p hp => mul_nonneg (sq_nonneg _) (h p hp).le
  constructor
  · intro hsum p hp
    have hterm := List.all_zero_of_le_zero_le_of_sum_eq_zero hnonneg hsum (List.mem_map_of_mem hp)
    exact sq_eq_zero_iff.mp ((mul_eq_zero.mp hterm).resolve_right (h p hp).ne')
  · intro hzero
    refine List.sum_eq_zero (List.forall_mem_map.mpr fun p hp => ?_)
    rw [hzero p hp, sq, zero_mul, zero_mul]

/-- **All variances are positive**, by induction along the order: roots have one, other nodes at
least their noise. -/
theorem impliedVariance_pos (hg : g.WellFormed) (hpos : 0 < target) (hlt : target < 1)
    (hid : id ∈ g.ids) : 0 < impliedVariance target g id := by
  induction hi : g.topologicalOrder.idxOf id using Nat.strong_induction_on generalizing id with
  | _ i ih =>
    by_cases hroot : g.parents id = []
    · rw [impliedVariance_of_root target hg hroot hid]
      exact one_pos.trans_eq Scalar.ofNat_one.symm
    · have hparents : ∀ p ∈ g.parents id, 0 < impliedVariance target g p := fun p hp => by
        have hedge := CausalGraph.mem_parents.mp hp
        exact ih _ (hi ▸ hg.idxOf_lt_of_reaches hedge.reaches) (hedge.source_mem hg.known) rfl
      rw [impliedVariance_of_parents target hg hroot hid, signalFrom_eq]
      exact add_pos_of_nonneg_of_pos (causedVariance_nonneg hparents) (noiseBeside_pos _ hpos hlt)

/-! ## 5. Calibrated nodes -/

/-- The noise of a node leaves the signal of its parents the target share, which the node scores.
Where there is no signal the noise is one, and the score is zero. -/
structure Calibrated (target : K) (g : CausalGraph K) (variance : String → K) (id : String)
    (noise score : K) : Prop where
  total : variance id = causedVariance g variance id + noise
  live : (∃ p ∈ g.parents id, coefficient g id p ≠ 0) → 0 < causedVariance g variance id ∧
    causedVariance g variance id / (causedVariance g variance id + noise) = target ∧ score = target
  dead : (∀ p ∈ g.parents id, coefficient g id p = 0) → causedVariance g variance id = 0 ∧
    noise = 1 ∧ score = 0

theorem calibrated_inner (hg : g.WellFormed) (hpos : 0 < target) (hlt : target < 1)
    (hne : g.parents id ≠ []) (hid : id ∈ g.ids) :
    Calibrated target g (impliedVariance target g) id
      (noiseBeside target (signalFrom g (impliedVariance target g) id))
      (scoreOf target (signalFrom g (impliedVariance target g) id)) := by
  have hparents : ∀ p ∈ g.parents id, 0 < impliedVariance target g p := fun p hp =>
    impliedVariance_pos hg hpos hlt ((CausalGraph.mem_parents.mp hp).source_mem hg.known)
  have htotal := impliedVariance_of_parents target hg hne hid
  rw [signalFrom_eq] at htotal ⊢
  refine ⟨htotal, ?_, fun hzero => ?_⟩
  · rintro ⟨p, hp, hcoefficient⟩
    have hsignal : 0 < causedVariance g (impliedVariance target g) id :=
      (causedVariance_nonneg hparents).lt_of_ne' fun hzero =>
        hcoefficient ((causedVariance_eq_zero_iff hparents).mp hzero p hp)
    exact ⟨hsignal, share_of_signal hpos.ne' hsignal, by rw [scoreOf_eq, if_pos hsignal]⟩
  · have hsignal := (causedVariance_eq_zero_iff hparents).mpr hzero
    rw [noiseBeside_eq, scoreOf_eq, hsignal, if_neg (lt_irrefl _), if_neg (lt_irrefl _)]
    exact ⟨rfl, rfl, rfl⟩

omit [IsStrictOrderedRing K] in
/-- The root of a positive number is positive. -/
theorem root_pos (hroot : ∀ v : K, 0 ≤ v → 0 ≤ RootExp.root v ∧ RootExp.root v ^ 2 = v) {v : K}
    (hv : 0 < v) : 0 < RootExp.root v := by
  obtain ⟨hnonneg, hsq⟩ := hroot v hv.le
  refine hnonneg.lt_of_ne' fun hzero => hv.ne ?_
  rw [← hsq, hzero, sq, zero_mul]

/-- **Every node of a static fit has the target share of its variance from its parents.** The
target is what the settings ask for, moved into its bounds. Each root has variance one, each other
node what its parents cause and its noise beside it; the variance of every parent is there when the
node is fitted. The score of the model is the mean over the nodes with parents. -/
theorem static_fits_are_calibrated {ρ : Type} [Noise ρ K] {nodes : List Element}
    {edges : List (Edge K)} (hg : CausalGraph.ofParts nodes edges = .ok g)
    (hroot : ∀ v : K, 0 ≤ v → 0 ≤ RootExp.root v ∧ RootExp.root v ^ 2 = v)
    (settings : FitSettings K) (now : Instant) {traces : Option (TraceTable K)} {staticOnly : Bool}
    (hstatic : traces = none ∨ staticOnly = true) :
    settings.target = max (5 / 100) (min (settings.staticTarget.getD (6 / 10)) (95 / 100)) ∧
      (∀ e ∈ g.edges, coefficient g e.target e.source = e.gain) ∧
      ∃ (m : Model K) (variance score : String → K),
        fit ρ settings now g traces staticOnly = .ok m ∧
        (∀ id ∈ g.ids, 0 < variance id) ∧
        (∀ id ∈ g.ids, g.parents id = [] → variance id = 1 ∧
          m.mechanism? id = some ⟨[], .continuous, .staticPrior 0 1⟩ ∧
          m.metadata.nodeScores.get? id = none) ∧
        (∀ id ∈ g.ids, g.parents id ≠ [] → ∃ std > 0,
          m.mechanism? id = some ⟨g.parents id, .continuous,
            .linearStatic 0 ((g.parents id).map (coefficient g id)) std⟩ ∧
          m.metadata.nodeScores.get? id = some (score id) ∧
          Calibrated settings.target g variance id (std ^ 2) (score id)) ∧
        (∀ before id after, g.topologicalOrder = before ++ id :: after →
          m.mechanism? id = some (staticNode settings.target g
            (varianceTable settings.target g [] before) id).1.mechanism ∧
          ∀ p ∈ g.parents id,
            (varianceTable settings.target g [] before).lookup p = some (variance p)) ∧
        m.metadata.score =
          if g.ids.filter (fun id => g.parents id ≠ []) = [] then 1
          else ((g.ids.filter fun id => g.parents id ≠ []).map score).sum /
            (g.ids.filter fun id => g.parents id ≠ []).length := by
  have hwf := CausalGraph.wellFormed_of_ofParts hg
  have htarget := target_eq settings
  have hpos : 0 < settings.target := by
    rw [htarget]
    exact lt_max_of_lt_left (by norm_num)
  have hlt : settings.target < 1 := by
    rw [htarget]
    exact max_lt (by norm_num) ((min_le_right _ _).trans_lt (by norm_num))
  have hscores : ∀ id ∈ g.ids, g.parents id ≠ [] →
      (fitStatic settings now g).metadata.nodeScores.get? id =
        some (scoreOf settings.target (signalFrom g (impliedVariance settings.target g) id)) :=
    fun id hid hne => (fitStatic_inner hwf settings now hne hid).2
  refine ⟨htarget, fun e he => ?_, fitStatic settings now g, impliedVariance settings.target g,
    fun id => scoreOf settings.target (signalFrom g (impliedVariance settings.target g) id),
    Model.fit_of_static hstatic, fun id hid => impliedVariance_pos hwf hpos hlt hid,
    fun id hid hnil => ?_, fun id hid hne => ?_, fun before id after ho => ?_, ?_⟩
  · rw [CausalGraph.coefficient_eq_gain hwf ⟨e, he, rfl, rfl⟩, CausalGraph.gain_of_mem hwf he]
  · obtain ⟨hmechanism, hscore⟩ := fitStatic_root hwf settings now hnil hid
    refine ⟨(impliedVariance_of_root _ hwf hnil hid).trans Scalar.ofNat_one, ?_, hscore⟩
    rw [hmechanism, ← Scalar.ofNat_zero (K := K), ← Scalar.ofNat_one (K := K)]
    rfl
  · have hnoise :=
      noiseBeside_pos (signalFrom g (impliedVariance settings.target g) id) hpos hlt
    refine ⟨_, root_pos hroot hnoise, ?_, hscores id hid hne, ?_⟩
    · rw [(fitStatic_inner hwf settings now hne hid).1, ← Scalar.ofNat_zero (K := K)]
      rfl
    · rw [(hroot _ hnoise.le).2]
      exact calibrated_inner hwf hpos hlt hne hid
  · exact ⟨mechanism?_fitStatic hwf ho settings now, fun p hp => lookup_parent hwf ho hp⟩
  · have hinner : ∀ id, id ∈ g.ids.filter (fun id => g.parents id ≠ []) ↔
        id ∈ g.ids ∧ g.parents id ≠ [] := fun id => by
      rw [List.mem_filter, decide_eq_true_iff]
    refine meanScore_eq (hwf.distinctNodes.filter _) (fun id => ?_) fun id hid => ?_
    · rw [hinner]
      exact contains_nodeScores_fitStatic hwf settings now id
    · obtain ⟨hid, hne⟩ := (hinner id).mp hid
      exact hscores id hid hne

end Positive

end Exact

/-- Noise that is never there, for what draws none. -/
inductive Silence where
  | silence

noncomputable instance : Noise Silence ℝ where
  start _ _ := .silence
  uniform r := (0, r)
  gaussian _ r := (0, r)
  position _ r := (0, r)
  choice _ r := (0, r)

/-- A node whose only cause does not count, and a node that it causes. -/
noncomputable def deadEnd : CausalGraph ℝ :=
  .of [.of "a" .function [], .of "b" .function [], .of "c" .function []]
    [⟨"a", "b", .dataFlow, some 0⟩, ⟨"b", "c", .dataFlow, some 2⟩]

/-- The node without signal scores zero, the node after it the default target. -/
theorem static_fits_are_calibrated_dead_end : ∃ m : Model ℝ,
    fit Silence {} ⟨0, 0⟩ deadEnd none false = .ok m ∧
      m.metadata.nodeScores.get? "b" = some 0 ∧ m.metadata.nodeScores.get? "c" = some (6 / 10) ∧
      m.metadata.score = 3 / 10 := by
  have hparts : CausalGraph.ofParts deadEnd.nodes deadEnd.edges = .ok deadEnd := by cbv
  have hroot : ∀ v : ℝ, 0 ≤ v → 0 ≤ RootExp.root v ∧ RootExp.root v ^ 2 = v := fun v hv =>
    ⟨Real.sqrt_nonneg v, Real.sq_sqrt hv⟩
  have hstatic : (none : Option (TraceTable ℝ)) = none ∨ false = true := .inl rfl
  obtain ⟨htarget, hgain, m, variance, score, hfit, -, -, hnodes, -, hmean⟩ :=
    static_fits_are_calibrated (ρ := Silence) hparts hroot {} ⟨0, 0⟩ hstatic
  have hb : deadEnd.parents "b" = ["a"] := by cbv
  have hc : deadEnd.parents "c" = ["b"] := by cbv
  have hinner : deadEnd.ids.filter (fun id => deadEnd.parents id ≠ []) = ["b", "c"] := by cbv
  have hab : coefficient deadEnd "b" "a" = 0 := hgain _ (.head _)
  have hbc : coefficient deadEnd "c" "b" = 2 := hgain _ (.tail _ (.head _))
  obtain ⟨_, -, -, hscoreB, hcalibratedB⟩ :=
    hnodes "b" (.tail _ (.head _)) (hb ▸ List.cons_ne_nil _ _)
  obtain ⟨_, -, -, hscoreC, hcalibratedC⟩ :=
    hnodes "c" (.tail _ (.tail _ (.head _))) (hc ▸ List.cons_ne_nil _ _)
  have hzero : score "b" = 0 := by
    refine (hcalibratedB.dead ?_).2.2
    rw [hb, List.forall_mem_singleton]
    exact hab
  have hsix : score "c" = 6 / 10 := by
    rw [(hcalibratedC.live ⟨"b", hc ▸ .head _, by rw [hbc]; exact two_ne_zero⟩).2.2, htarget]
    norm_num
  refine ⟨m, hfit, hzero ▸ hscoreB, hsix ▸ hscoreC, ?_⟩
  rw [hmean, hinner, if_neg (List.cons_ne_nil _ _)]
  norm_num [hzero, hsix]

end CodeCausality
