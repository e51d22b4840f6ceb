import Mathlib.Data.List.Forall2
import CodeCausality.Graph.Build
import CodeCausality.Proofs.Numeric.Order
import CodeCausality.Proofs.Graph.Construction

/-!
# One edge a pair

Merging folds the given edges into a list one after another. What the list then holds is said by
what was given, without the order it was given in:

* `mergeAll` -- the edges alone of a folding (`Folding.edges_ofRelations`), and `Folding.counted` --
  **each relation makes an edge or is counted**;
* `pairs_mergeAll` -- **the pairs of the list are those given, each once**;
* `SumsUp` -- an edge has, of the edges given for its pair, the strongest kind and the largest
  weight; `sumsUp_of_mem_mergeAll`: every edge of the list does;
* `SumsUp.agrees` -- two edges that sum up the same agree: same ends, same kind, and weights that
  are one number.
-/

namespace CodeCausality

/-! ## 1. The stronger kind and the larger weight -/

namespace EdgeKind

theorem strength_injective {a b : EdgeKind} (h : a.strength = b.strength) : a = b := by
  cases a <;> cases b <;> cases h <;> rfl

theorem stronger_eq_or (a b : EdgeKind) : a.stronger b = a ∨ a.stronger b = b := by
  unfold stronger
  split
  · exact .inr rfl
  · exact .inl rfl

theorem strength_stronger (a b : EdgeKind) :
    (a.stronger b).strength = max a.strength b.strength := by
  unfold stronger
  split <;> omega

end EdgeKind

section LargerWeight

variable {α : Type} [Scalar α]

theorem eq_some_of_largerWeight {a b : Option α} {w : α} (h : largerWeight a b = some w) :
    a = some w ∨ b = some w := by
  cases a with
  | none => exact .inr h
  | some u =>
    cases b with
    | none => exact .inl h
    | some v =>
      obtain rfl := Option.some.inj h
      exact (Scalar.maxNum_eq_or u v).imp (fun e => by rw [e]) fun e => by rw [e]

variable [Scalar.Ordered α]

theorem le_largerWeight_left {a b : Option α} (hb : ∀ w, b = some w → Scalar.isFinite w = true)
    {u : α} (ha : a = some u) (hu : Scalar.isFinite u = true) :
    ∃ w, largerWeight a b = some w ∧ u ≤ w := by
  subst ha
  cases b with
  | none => exact ⟨u, rfl, Scalar.Ordered.le_refl hu⟩
  | some v => exact ⟨_, rfl, Scalar.le_maxNum_left hu (hb v rfl)⟩

theorem le_largerWeight_right {a b : Option α} (ha : ∀ w, a = some w → Scalar.isFinite w = true)
    {v : α} (hb : b = some v) (hv : Scalar.isFinite v = true) :
    ∃ w, largerWeight a b = some w ∧ v ≤ w := by
  subst hb
  cases a with
  | none => exact ⟨v, rfl, Scalar.Ordered.le_refl hv⟩
  | some u => exact ⟨_, rfl, Scalar.le_maxNum_right (ha u rfl) hv⟩

end LargerWeight

namespace Edge

variable {α : Type}

/-! ## 2. Pairs -/

/-- The ends of an edge. -/
def pair (e : Edge α) : String × String := (e.source, e.target)

theorem pair_eq_iff {a b : Edge α} :
    a.pair = b.pair ↔ a.source = b.source ∧ a.target = b.target := by
  rw [pair, pair, Prod.mk.injEq]

theorem samePair_iff_pair_eq {a b : Edge α} : a.samePair b = true ↔ a.pair = b.pair :=
  samePair_iff.trans pair_eq_iff.symm

section Scalar

variable [Scalar α]

/-- What an edge becomes when another of its pair is merged into it. -/
def join (d e : Edge α) : Edge α :=
  ⟨d.source, d.target, d.kind.stronger e.kind, largerWeight d.weight e.weight⟩

theorem merge_cons_of_pair_eq {d e : Edge α} {rest : List (Edge α)} (h : d.pair = e.pair) :
    e.merge (d :: rest) = d.join e :: rest := by
  rw [merge, if_pos (samePair_iff_pair_eq.mpr h), join]

theorem merge_cons_of_pair_ne {d e : Edge α} {rest : List (Edge α)} (h : d.pair ≠ e.pair) :
    e.merge (d :: rest) = d :: e.merge rest := by
  rw [merge, if_neg fun hs => h (samePair_iff_pair_eq.mp hs)]

/-- A new pair comes last, and a known one changes nothing about the pairs. -/
theorem pairs_merge (e : Edge α) (ms : List (Edge α)) :
    (e.merge ms).map pair =
      if e.pair ∈ ms.map pair then ms.map pair else ms.map pair ++ [e.pair] := by
  induction ms with
  | nil => rfl
  | cons d rest ih =>
    by_cases h : d.pair = e.pair
    · rw [merge_cons_of_pair_eq h, if_pos (List.mem_map.mpr ⟨d, List.mem_cons_self, h⟩)]
      rfl
    · have hmem : e.pair ∈ (d :: rest).map pair ↔ e.pair ∈ rest.map pair := by
        rw [List.map_cons, List.mem_cons]
        exact or_iff_right (Ne.symm h)
      rw [merge_cons_of_pair_ne h, List.map_cons, ih, List.map_cons]
      simp only [List.map_cons] at hmem
      split
      · rename_i he
        rw [if_pos (hmem.mpr he)]
      · rename_i he
        rw [if_neg fun h => he (hmem.mp h)]
        rfl

/-- What merging an edge leaves: edges of other pairs, the joined edge of its pair, or, for a new
pair, the edge itself. -/
theorem mem_merge {d e : Edge α} {ms : List (Edge α)} (hnd : (ms.map pair).Nodup)
    (hd : d ∈ e.merge ms) :
    (d ∈ ms ∧ d.pair ≠ e.pair) ∨ (∃ c ∈ ms, c.pair = e.pair ∧ d = c.join e) ∨
      (e.pair ∉ ms.map pair ∧ d = e) := by
  induction ms with
  | nil => exact .inr (.inr ⟨List.not_mem_nil, List.mem_singleton.mp hd⟩)
  | cons c rest ih =>
    obtain ⟨hc, hrest⟩ := List.nodup_cons.mp hnd
    by_cases h : c.pair = e.pair
    · rw [merge_cons_of_pair_eq h] at hd
      rcases List.mem_cons.mp hd with rfl | hd
      · exact .inr (.inl ⟨c, List.mem_cons_self, h, rfl⟩)
      · exact .inl ⟨List.mem_cons_of_mem _ hd, fun hde =>
          hc (h.trans hde.symm ▸ List.mem_map_of_mem hd)⟩
    · rw [merge_cons_of_pair_ne h] at hd
      rcases List.mem_cons.mp hd with rfl | hd
      · exact .inl ⟨List.mem_cons_self, h⟩
      · rcases ih hrest hd with ⟨hmem, hne⟩ | ⟨b, hb, hbe, rfl⟩ | ⟨hnew, rfl⟩
        · exact .inl ⟨List.mem_cons_of_mem _ hmem, hne⟩
        · exact .inr (.inl ⟨b, List.mem_cons_of_mem _ hb, hbe, rfl⟩)
        · refine .inr (.inr ⟨fun hmem => ?_, rfl⟩)
          rcases List.mem_cons.mp hmem with he | hmem
          · exact h he.symm
          · exact hnew hmem

theorem length_merge (e : Edge α) (ms : List (Edge α)) :
    (e.merge ms).length = if ms.any (·.samePair e) then ms.length else ms.length + 1 := by
  have hany : ms.any (·.samePair e) = true ↔ e.pair ∈ ms.map pair := by
    rw [List.any_eq_true, List.mem_map]
    exact exists_congr fun d => and_congr_right fun _ => samePair_iff_pair_eq
  rw [← List.length_map pair, pairs_merge]
  simp only [hany]
  split
  · exact List.length_map _
  · rw [List.length_append, List.length_map, List.length_singleton]

/-- All edges merged into one another, in the order given. -/
def mergeAll (es : List (Edge α)) : List (Edge α) := es.foldl (fun merged e => e.merge merged) []

theorem mergeAll_concat (es : List (Edge α)) (e : Edge α) :
    mergeAll (es ++ [e]) = e.merge (mergeAll es) := by
  rw [mergeAll, List.foldl_append]
  rfl

/-- **The pairs of the merged edges are those given, each once.** -/
theorem pairs_mergeAll (es : List (Edge α)) :
    ((mergeAll es).map pair).Nodup ∧ ∀ p, p ∈ (mergeAll es).map pair ↔ p ∈ es.map pair := by
  induction es using List.reverseRecOn with
  | nil => exact ⟨List.nodup_nil, fun p => Iff.rfl⟩
  | append_singleton es e ih =>
    obtain ⟨hnd, hmem⟩ := ih
    rw [mergeAll_concat, pairs_merge, List.map_append, List.map_singleton]
    split
    · rename_i he
      refine ⟨hnd, fun p => ?_⟩
      rw [hmem, List.mem_append, List.mem_singleton]
      exact ⟨.inl, fun h => h.elim id fun hp => hp ▸ (hmem e.pair).mp he⟩
    · rename_i he
      refine ⟨List.concat_eq_append ▸ hnd.concat he, fun p => ?_⟩
      rw [List.mem_append, List.mem_append, hmem]

end Scalar

end Edge

namespace Folding

variable [Scalar α]

theorem ofRelations_concat (rs : List (Relation α)) (r : Relation α) :
    ofRelations (rs ++ [r]) = (ofRelations rs).add r := by
  rw [ofRelations, List.foldl_append]
  rfl

theorem edges_ofRelations (rs : List (Relation α)) :
    (ofRelations rs).edges = Edge.mergeAll (rs.filterMap Relation.edge?) := by
  induction rs using List.reverseRecOn with
  | nil => rfl
  | append_singleton rs r ih =>
    rw [ofRelations_concat, List.filterMap_append, add]
    cases he : r.edge? with
    | none => rw [List.filterMap_cons_none he, List.filterMap_nil, List.append_nil, ← ih]
    | some e => rw [List.filterMap_cons_some he, List.filterMap_nil, Edge.mergeAll_concat, ← ih]

/-- One relation more is one edge more, or is counted. -/
theorem counted_add (f : Folding α) (r : Relation α) :
    (f.add r).nonCausal + (f.add r).merged + (f.add r).edges.length =
      f.nonCausal + f.merged + f.edges.length + 1 := by
  unfold add
  split
  · dsimp only
    omega
  · dsimp only
    rw [Edge.length_merge]
    split
    · omega
    · omega

/-- **Each relation makes an edge or is counted.** -/
theorem counted (rs : List (Relation α)) :
    (ofRelations rs).nonCausal + (ofRelations rs).merged + (ofRelations rs).edges.length =
      rs.length := by
  induction rs using List.reverseRecOn with
  | nil => rfl
  | append_singleton rs r ih =>
    rw [ofRelations_concat, counted_add, ih, List.length_append, List.length_singleton]

end Folding

namespace Edge

/-! ## 3. What a merged edge sums up -/

/-- Of the edges given for its pair an edge has the strongest kind and the largest weight, or no
weight where none has one. -/
structure SumsUp [Scalar α] (given : Edge α → Prop) (d : Edge α) : Prop where
  kind_given : ∃ e, given e ∧ e.pair = d.pair ∧ e.kind = d.kind
  kind_strongest : ∀ e, given e → e.pair = d.pair → e.kind.strength ≤ d.kind.strength
  weight_given : ∀ w, d.weight = some w → ∃ e, given e ∧ e.pair = d.pair ∧ e.weight = some w
  weight_largest : ∀ e, given e → e.pair = d.pair → ∀ w, e.weight = some w →
    ∃ v, d.weight = some v ∧ w ≤ v

/-- The same ends and kind, and weights that are one number or both missing. -/
structure Agrees [Scalar α] (a b : Edge α) : Prop where
  source : a.source = b.source
  target : a.target = b.target
  kind : a.kind = b.kind
  weight : Option.Rel (fun v w => (v == w) = true) a.weight b.weight

/-- All weights are finite. -/
def FiniteWeights [Scalar α] (given : Edge α → Prop) : Prop :=
  ∀ e, given e → ∀ w, e.weight = some w → Scalar.isFinite w = true

namespace SumsUp

variable [Scalar α] {given given' : Edge α → Prop} {c d e : Edge α}

theorem congr (h : SumsUp given d) (hgiven : ∀ e, given e ↔ given' e) : SumsUp given' d := by
  have heq : given = given' := funext fun e => propext (hgiven e)
  exact heq ▸ h

theorem isFinite (h : SumsUp given d) (hf : FiniteWeights given) {w : α} (hw : d.weight = some w) :
    Scalar.isFinite w = true := by
  obtain ⟨e, he, -, hew⟩ := h.weight_given w hw
  exact hf e he w hew

/-- An edge of another pair does not matter. -/
theorem or_of_pair_ne (h : SumsUp given d) (hne : d.pair ≠ e.pair) :
    SumsUp (fun x => given x ∨ x = e) d := by
  have hold {x : Edge α} (hx : given x ∨ x = e) (hxd : x.pair = d.pair) : given x :=
    hx.resolve_right fun hxe => hne (hxe ▸ hxd.symm)
  exact {
    kind_given := h.kind_given.imp fun x hx => ⟨.inl hx.1, hx.2⟩
    kind_strongest := fun x hx hxd => h.kind_strongest x (hold hx hxd) hxd
    weight_given := fun w hw => (h.weight_given w hw).imp fun x hx => ⟨.inl hx.1, hx.2⟩
    weight_largest := fun x hx hxd => h.weight_largest x (hold hx hxd) hxd }

/-- The first edge of a pair sums up itself. -/
theorem first [Scalar.Ordered α] (hnew : ∀ x, given x → x.pair ≠ e.pair)
    (hf : ∀ w, e.weight = some w → Scalar.isFinite w = true) :
    SumsUp (fun x => given x ∨ x = e) e := by
  have hself {x : Edge α} (hx : given x ∨ x = e) (hxe : x.pair = e.pair) : x = e :=
    hx.resolve_left fun hg => hnew x hg hxe
  exact {
    kind_given := ⟨e, .inr rfl, rfl, rfl⟩
    kind_strongest := fun x hx hxe => by rw [hself hx hxe]
    weight_given := fun w hw => ⟨e, .inr rfl, rfl, hw⟩
    weight_largest := fun x hx hxe w hw => by
      obtain rfl := hself hx hxe
      exact ⟨w, hw, Scalar.Ordered.le_refl (hf w hw)⟩ }

/-- **Merging an edge of the pair adds it to what is summed up.** -/
theorem join [Scalar.Ordered α] (h : SumsUp given c) (hce : c.pair = e.pair)
    (hf : FiniteWeights fun x => given x ∨ x = e) :
    SumsUp (fun x => given x ∨ x = e) (c.join e) := by
  have hold : ∀ w, c.weight = some w → Scalar.isFinite w = true := fun w =>
    h.isFinite fun x hx => hf x (.inl hx)
  have hnew : ∀ w, e.weight = some w → Scalar.isFinite w = true := hf e (.inr rfl)
  have hkind : (c.join e).kind.strength = max c.kind.strength e.kind.strength :=
    EdgeKind.strength_stronger _ _
  refine ⟨?_, ?_, ?_, ?_⟩
  · rcases EdgeKind.stronger_eq_or c.kind e.kind with hk | hk
    · obtain ⟨x, hx, hxc, hxk⟩ := h.kind_given
      exact ⟨x, .inl hx, hxc, hxk.trans hk.symm⟩
    · exact ⟨e, .inr rfl, hce.symm, hk.symm⟩
  · intro x hx hxc
    rw [hkind]
    rcases hx with hx | rfl
    · exact le_max_of_le_left (h.kind_strongest x hx hxc)
    · exact le_max_right _ _
  · intro w hw
    rcases eq_some_of_largerWeight hw with hcw | hew
    · obtain ⟨x, hx, hxw⟩ := h.weight_given w hcw
      exact ⟨x, .inl hx, hxw⟩
    · exact ⟨e, .inr rfl, hce.symm, hew⟩
  · intro x hx hxc w hw
    rcases hx with hx | rfl
    · -- what was the largest so far is at most the larger of it and the new one
      obtain ⟨v, hv, hwv⟩ := h.weight_largest x hx hxc w hw
      obtain ⟨u, hu, hvu⟩ := le_largerWeight_left hnew hv (hold v hv)
      have hfin : Scalar.isFinite u = true :=
        (eq_some_of_largerWeight hu).elim (hold u) (hnew u)
      exact ⟨u, hu, Scalar.Ordered.le_trans (hf x (.inl hx) w hw) (hold v hv) hfin hwv hvu⟩
    · exact le_largerWeight_right hold hw (hnew w hw)

theorem strength_le (hc : SumsUp given c) (hd : SumsUp given d) (h : c.pair = d.pair) :
    c.kind.strength ≤ d.kind.strength := by
  obtain ⟨x, hx, hxc, hxk⟩ := hc.kind_given
  exact hxk ▸ hd.kind_strongest x hx (hxc.trans h)

theorem weight_le (hc : SumsUp given c) (hd : SumsUp given d) (h : c.pair = d.pair) {v : α}
    (hv : c.weight = some v) : ∃ w, d.weight = some w ∧ v ≤ w := by
  obtain ⟨x, hx, hxc, hxv⟩ := hc.weight_given v hv
  exact hd.weight_largest x hx (hxc.trans h) v hxv

/-- **What sums up the same agrees**: either is at most as strong and as large as the other. -/
theorem agrees [Scalar.Ordered α] (hf : FiniteWeights given) (hc : SumsUp given c)
    (hd : SumsUp given d) (h : c.pair = d.pair) : c.Agrees d := by
  obtain ⟨hs, ht⟩ := pair_eq_iff.mp h
  have hstrength : c.kind.strength = d.kind.strength :=
    Nat.le_antisymm (hc.strength_le hd h) (hd.strength_le hc h.symm)
  refine ⟨hs, ht, EdgeKind.strength_injective hstrength, ?_⟩
  cases hcw : c.weight with
  | none =>
    cases hdw : d.weight with
    | none => exact .none
    | some w =>
      obtain ⟨v, hv, -⟩ := hd.weight_le hc h.symm hdw
      rw [hcw] at hv
      cases hv
  | some v =>
    obtain ⟨w, hdw, hvw⟩ := hc.weight_le hd h hcw
    obtain ⟨v', hcw', hwv⟩ := hd.weight_le hc h.symm hdw
    obtain rfl := Option.some.inj (hcw.symm.trans hcw')
    have hequal : (v == w) = true :=
      (Scalar.Ordered.beq_iff (hc.isFinite hf hcw) (hd.isFinite hf hdw)).mpr ⟨hvw, hwv⟩
    rw [hdw]
    exact .some hequal

end SumsUp

/-- **Every merged edge sums up the edges given for its pair.** -/
theorem sumsUp_of_mem_mergeAll [Scalar α] [Scalar.Ordered α] {es : List (Edge α)}
    (hf : FiniteWeights (· ∈ es)) {d : Edge α} (hd : d ∈ mergeAll es) : SumsUp (· ∈ es) d := by
  induction es using List.reverseRecOn generalizing d with
  | nil => exact absurd hd List.not_mem_nil
  | append_singleton es e ih =>
    have hmem (x : Edge α) : x ∈ es ∨ x = e ↔ x ∈ es ++ [e] := by
      rw [List.mem_append, List.mem_singleton]
    have hfin : FiniteWeights fun x => x ∈ es ∨ x = e := fun x hx => hf x ((hmem x).mp hx)
    have hold {c : Edge α} (hc : c ∈ mergeAll es) : SumsUp (· ∈ es) c :=
      ih (fun x hx => hfin x (.inl hx)) hc
    obtain ⟨hnd, hpairs⟩ := pairs_mergeAll es
    rw [mergeAll_concat] at hd
    refine SumsUp.congr ?_ hmem
    rcases mem_merge hnd hd with ⟨hd, hne⟩ | ⟨c, hc, hce, rfl⟩ | ⟨hnew, rfl⟩
    · exact (hold hd).or_of_pair_ne hne
    · exact (hold hc).join hce hfin
    · refine SumsUp.first (fun x hx hxe => hnew ?_) (hfin d (.inr rfl))
      exact (hpairs d.pair).mpr (List.mem_map.mpr ⟨x, hx, hxe⟩)

end Edge

end CodeCausality
