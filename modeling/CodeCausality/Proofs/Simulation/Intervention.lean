import CodeCausality.Proofs.Model.Grounded
import CodeCausality.Simulation.Impact

/-!
# Which interventions are refused

* `Refuses` -- why an intervention is refused, the first reason that applies;
* `mem_affectedNodes` -- the nodes that an intervention affects;
* `encodeClamps_eq_error_iff` -- of the values without a code the one at the smallest node is
  reported (`FirstLacking`);
* `checkIntervention_eq_error_iff`, `checkIntervention_eq_ok_iff` -- **an intervention is refused
  for the first reason that applies, and accepted if none does**;
* `lookup_encodeClamps` -- the codes of an accepted intervention, node by node.
-/

namespace CodeCausality

namespace Simulation

variable {α : Type} {m : Model α}

/-! ## 1. Intervened nodes -/

section Known

variable {i : Intervention α}

theorem find?_unknown_iff {id : String} :
    (i.keys.find? fun id => !m.graph.contains id) = some id ↔
      id ∈ i.keys ∧ id ∉ m.graph.ids ∧ ∀ k ∈ i.keys, k ∉ m.graph.ids → id ≤ k := by
  have hunknown (k : String) : (!m.graph.contains k) = true ↔ k ∉ m.graph.ids := by
    rw [Bool.not_eq_true', ← Bool.not_eq_true, CausalGraph.contains_iff]
  simp only [find?_increasing_iff i.keys_increasing, hunknown]

theorem find?_known_iff :
    (i.keys.find? fun id => !m.graph.contains id) = none ↔ ∀ k ∈ i.keys, k ∈ m.graph.ids := by
  rw [List.find?_eq_none]
  refine forall₂_congr fun k _ => ?_
  rw [Bool.not_eq_true, Bool.not_eq_false', CausalGraph.contains_iff]

/-- **An intervention affects what its nodes reach, but not its nodes.** -/
theorem mem_affectedNodes (hk : m.graph.KnownEnds) {id : String} :
    id ∈ affectedNodes m i ↔ (∃ x ∈ i.keys, m.graph.Reaches x id) ∧ id ∉ i.keys := by
  have hkey : (!i.contains id) = true ↔ id ∉ i.keys := by
    rw [Bool.not_eq_true', ← Bool.not_eq_true, i.contains_iff]
  rw [affectedNodes, List.mem_filter, mem_sortedIds, List.mem_flatMap, hkey]
  refine and_congr_left fun hid => exists_congr fun x => and_congr_right fun hx => ?_
  rw [CausalGraph.mem_descendants hk]
  exact and_iff_left fun e => hid (e ▸ hx)

theorem affectedNodes_increasing : (affectedNodes m i).Pairwise (· < ·) :=
  (sortedIds_increasing _).filter _

end Known

variable [Scalar α]

/-! ## 2. Codes -/

/-- The value at the node has no code in the node's domain. -/
def LacksCode (m : Model α) (id : String) (v : Value α) : Prop :=
  ∃ n, m.mechanism? id = some n ∧ n.domain.encode? v = none

/-- The smallest node of the list whose value has no code, and that value. -/
def FirstLacking (m : Model α) (es : List (String × Value α)) (id : String) (v : Value α) : Prop :=
  (id, v) ∈ es ∧ LacksCode m id v ∧ ∀ k w, (k, w) ∈ es → LacksCode m k w → id ≤ k

theorem firstLacking_cons_of_lacks {es : List (String × Value α)} {j id : String} {u v : Value α}
    (hes : Entries.Increasing ((j, u) :: es)) (hu : LacksCode m j u) :
    FirstLacking m ((j, u) :: es) id v ↔ id = j ∧ v = u := by
  obtain ⟨hj, -⟩ := List.pairwise_cons.mp hes
  constructor
  · rintro ⟨hmem, -, hmin⟩
    rcases List.mem_cons.mp hmem with heq | hmem
    · exact Prod.mk.inj heq
    · exact absurd (hmin j u List.mem_cons_self hu) (not_le_of_gt (hj (id, v) hmem))
  · rintro ⟨rfl, rfl⟩
    refine ⟨List.mem_cons_self, hu, fun k w hk _ => ?_⟩
    rcases List.mem_cons.mp hk with heq | hk
    · rw [(Prod.mk.inj heq).1]
    · exact (hj (k, w) hk).le

theorem firstLacking_cons_of_not_lacks {es : List (String × Value α)} {j id : String}
    {u v : Value α} (hu : ¬ LacksCode m j u) :
    FirstLacking m ((j, u) :: es) id v ↔ FirstLacking m es id v := by
  have hmem {k : String} {w : Value α} (hw : LacksCode m k w) :
      (k, w) ∈ (j, u) :: es ↔ (k, w) ∈ es := by
    refine ⟨fun h => (List.mem_cons.mp h).resolve_left fun heq => ?_, List.mem_cons_of_mem _⟩
    obtain ⟨rfl, rfl⟩ := Prod.mk.inj heq
    exact hu hw
  constructor
  · rintro ⟨h, hv, hmin⟩
    exact ⟨(hmem hv).mp h, hv, fun k w hk hw => hmin k w ((hmem hw).mpr hk) hw⟩
  · rintro ⟨h, hv, hmin⟩
    exact ⟨(hmem hv).mpr h, hv, fun k w hk hw => hmin k w ((hmem hw).mp hk) hw⟩

/-- An intervention on nodes with mechanisms is refused for the smallest node whose value has no
code. -/
theorem encodeClamps_eq_error_iff {es : List (String × Value α)} (hes : Entries.Increasing es)
    (hn : ∀ e ∈ es, ∃ n, m.mechanism? e.1 = some n) {x : ImpactError α} :
    encodeClamps m es = .error x ↔
      ∃ id v n, FirstLacking m es id v ∧ m.mechanism? id = some n ∧
        x = .incompatibleValue id n.domain v := by
  induction es with
  | nil =>
    exact iff_of_false (fun h => (nomatch h)) fun ⟨_, _, _, h, _⟩ => absurd h.1 List.not_mem_nil
  | cons e es ih =>
    obtain ⟨j, u⟩ := e
    obtain ⟨n, hmech⟩ : ∃ n, m.mechanism? j = some n := hn (j, u) List.mem_cons_self
    rw [encodeClamps, hmech]
    dsimp only
    cases hcode : n.domain.encode? u with
    | none =>
      have hlacks : LacksCode m j u := ⟨n, hmech, hcode⟩
      simp only [firstLacking_cons_of_lacks hes hlacks]
      constructor
      · exact fun h => ⟨j, u, n, ⟨rfl, rfl⟩, hmech, (Except.error.inj h).symm⟩
      · rintro ⟨_, _, n', ⟨rfl, rfl⟩, hmech', rfl⟩
        obtain rfl := Option.some.inj (hmech.symm.trans hmech')
        rfl
    | some code =>
      have hlacks : ¬ LacksCode m j u := by
        rintro ⟨n', hmech', hnone⟩
        obtain rfl := Option.some.inj (hmech.symm.trans hmech')
        exact nomatch hcode.symm.trans hnone
      simp only [firstLacking_cons_of_not_lacks hlacks, map_eq_error_iff]
      exact ih (List.pairwise_cons.mp hes).2 fun e he => hn e (List.mem_cons_of_mem _ he)

/-- The codes of an intervention, node by node. -/
theorem lookup_encodeClamps {es : List (String × Value α)} {clamps : List (String × α)}
    (h : encodeClamps m es = .ok clamps) (id : String) :
    clamps.lookup id = (es.lookup id).bind fun v =>
      (m.mechanism? id).bind fun n => n.domain.encode? v := by
  induction es generalizing clamps with
  | nil =>
    cases h
    rfl
  | cons e es ih =>
    obtain ⟨k, v⟩ := e
    rw [encodeClamps] at h
    split at h
    · exact nomatch h
    · rename_i n hn
      split at h
      · exact nomatch h
      · rename_i code hcode
        obtain ⟨rest, hrest, rfl⟩ := map_eq_ok_iff.mp h
        rw [List.lookup_cons, List.lookup_cons]
        by_cases hk : id = k
        · subst hk
          rw [beq_self_eq_true]
          dsimp only
          rw [Option.bind_some, hn, Option.bind_some, hcode]
        · rw [beq_false_of_ne hk]
          exact ih hrest

/-! ## 3. Refusals -/

/-- Why an intervention is refused, the first reason that applies. -/
inductive Refuses (m : Model α) (i : Intervention α) (n : Nat) : ImpactError α → Prop where
  | empty (hi : i.keys = []) : Refuses m i n .emptyIntervention
  | few (hi : i.keys ≠ []) (hn : n < 2) : Refuses m i n (.tooFewSamples n)
  | unknown {id : String} (hi : i.keys ≠ []) (hn : 2 ≤ n) (hid : id ∈ i.keys)
      (hunknown : id ∉ m.graph.ids) (hmin : ∀ k ∈ i.keys, k ∉ m.graph.ids → id ≤ k) :
      Refuses m i n (.unknownNode id)
  | unfitted {ids : List String} (hi : i.keys ≠ []) (hn : 2 ≤ n)
      (hknown : ∀ k ∈ i.keys, k ∈ m.graph.ids) (hids : ids ≠ [])
      (hinc : ids.Pairwise (· < ·))
      (hmem : ∀ id, id ∈ ids ↔ id ∈ m.graph.ids ∧ m.mechanism? id = none) :
      Refuses m i n (.unfitted ids)
  | incompatible {id : String} {v : Value α} {mech : NodeMechanism α} (hi : i.keys ≠ [])
      (hn : 2 ≤ n) (hknown : ∀ k ∈ i.keys, k ∈ m.graph.ids)
      (hfitted : ∀ k ∈ m.graph.ids, m.mechanism? k ≠ none) (hv : i.get? id = some v)
      (hmech : m.mechanism? id = some mech) (hcode : mech.domain.encode? v = none)
      (hmin : ∀ k w, i.get? k = some w → LacksCode m k w → id ≤ k) :
      Refuses m i n (.incompatibleValue id mech.domain v)

section Check

variable {i : Intervention α} {n : Nat}

/-- What an intervention that forces something is asked next. -/
theorem checkIntervention_of_enough (hi : i.keys ≠ []) (hn : 2 ≤ n) :
    checkIntervention m i n =
      match i.keys.find? fun id => !m.graph.contains id with
      | some id => .error (.unknownNode id)
      | none =>
        match m.missingMechanisms with
        | [] => encodeClamps m i.entries
        | missing => .error (.unfitted missing) := by
  have hforced : ¬ i.isEmpty = true := fun he => hi (i.isEmpty_iff.mp he)
  have henough : ¬ n < 2 := by omega
  exact (if_neg hforced).trans (if_neg henough)

theorem checkIntervention_of_known (hi : i.keys ≠ []) (hn : 2 ≤ n)
    (hknown : ∀ k ∈ i.keys, k ∈ m.graph.ids) :
    checkIntervention m i n =
      match m.missingMechanisms with
      | [] => encodeClamps m i.entries
      | missing => .error (.unfitted missing) := by
  rw [checkIntervention_of_enough hi hn, find?_known_iff.mpr hknown]

theorem checkIntervention_of_fitted (hi : i.keys ≠ []) (hn : 2 ≤ n)
    (hknown : ∀ k ∈ i.keys, k ∈ m.graph.ids) (hmissing : m.missingMechanisms = []) :
    checkIntervention m i n = encodeClamps m i.entries := by
  rw [checkIntervention_of_known hi hn hknown, hmissing]

omit [Scalar α] in
theorem exists_mechanism_of_known (hknown : ∀ k ∈ i.keys, k ∈ m.graph.ids)
    (hmissing : m.missingMechanisms = []) :
    ∀ e ∈ i.entries, ∃ mech, m.mechanism? e.1 = some mech :=
  fun e he => Model.exists_mechanism hmissing (hknown e.1 (List.mem_map_of_mem he))

theorem refuses_of_checkIntervention {x : ImpactError α}
    (h : checkIntervention m i n = .error x) : Refuses m i n x := by
  by_cases hi : i.keys = []
  · rw [checkIntervention, if_pos (i.isEmpty_iff.mpr hi)] at h
    cases h
    exact .empty hi
  by_cases hn : n < 2
  · rw [checkIntervention, if_neg fun he => hi (i.isEmpty_iff.mp he), if_pos hn] at h
    cases h
    exact .few hi hn
  have hn' : 2 ≤ n := by omega
  rw [checkIntervention_of_enough hi hn'] at h
  split at h
  · rename_i id hid
    cases h
    obtain ⟨hmem, hunknown, hmin⟩ := find?_unknown_iff.mp hid
    exact .unknown hi hn' hmem hunknown hmin
  · rename_i hfind
    have hknown := find?_known_iff.mp hfind
    split at h
    · rename_i hmissing
      obtain ⟨id, v, mech, ⟨hv, ⟨mech', hid', hcode⟩, hmin⟩, hid, rfl⟩ :=
        (encodeClamps_eq_error_iff i.increasing (exists_mechanism_of_known hknown hmissing)).mp h
      obtain rfl := Option.some.inj (hid.symm.trans hid')
      exact .incompatible hi hn' hknown (Model.missingMechanisms_eq_nil_iff.mp hmissing)
        (i.get?_eq_some_iff.mpr hv) hid hcode fun k w hk => hmin k w (i.get?_eq_some_iff.mp hk)
    · rename_i missing hne
      cases h
      exact .unfitted hi hn' hknown hne (sortedIds_increasing _) fun id =>
        Model.mem_missingMechanisms

theorem checkIntervention_of_refuses {x : ImpactError α} (h : Refuses m i n x) :
    checkIntervention m i n = .error x := by
  cases h with
  | empty hi => rw [checkIntervention, if_pos (i.isEmpty_iff.mpr hi)]
  | few hi hn => rw [checkIntervention, if_neg fun he => hi (i.isEmpty_iff.mp he), if_pos hn]
  | unknown hi hn hid hunknown hmin =>
    rw [checkIntervention_of_enough hi hn, find?_unknown_iff.mpr ⟨hid, hunknown, hmin⟩]
  | @unfitted ids hi hn hknown hids hinc hmem =>
    have hmissing : m.missingMechanisms = ids :=
      eq_of_increasing (sortedIds_increasing _) hinc fun id => by
        rw [Model.mem_missingMechanisms, hmem]
    rw [checkIntervention_of_known hi hn hknown, hmissing]
    cases ids with
    | nil => exact absurd rfl hids
    | cons id ids => rfl
  | incompatible hi hn hknown hfitted hv hid hcode hmin =>
    have hmissing := Model.missingMechanisms_eq_nil_iff.mpr hfitted
    rw [checkIntervention_of_fitted hi hn hknown hmissing,
      encodeClamps_eq_error_iff i.increasing (exists_mechanism_of_known hknown hmissing)]
    exact ⟨_, _, _, ⟨i.get?_eq_some_iff.mp hv, ⟨_, hid, hcode⟩, fun k w hk =>
      hmin k w (i.get?_eq_some_iff.mpr hk)⟩, hid, rfl⟩

/-- **An intervention is refused exactly for the first reason that applies.** -/
theorem checkIntervention_eq_error_iff {x : ImpactError α} :
    checkIntervention m i n = .error x ↔ Refuses m i n x :=
  ⟨refuses_of_checkIntervention, checkIntervention_of_refuses⟩

/-- What an accepted intervention satisfies. -/
theorem checkIntervention_eq_ok_iff {clamps : List (String × α)} :
    checkIntervention m i n = .ok clamps ↔
      i.keys ≠ [] ∧ 2 ≤ n ∧ (∀ k ∈ i.keys, k ∈ m.graph.ids) ∧ m.missingMechanisms = [] ∧
        encodeClamps m i.entries = .ok clamps := by
  constructor
  · intro h
    have hno (x : ImpactError α) : ¬ Refuses m i n x := fun hx => by
      rw [← checkIntervention_eq_error_iff, h] at hx
      exact nomatch hx
    have hi : i.keys ≠ [] := fun hi => hno _ (.empty hi)
    have hn : 2 ≤ n := Nat.le_of_not_lt fun hn => hno _ (.few hi hn)
    have hknown : ∀ k ∈ i.keys, k ∈ m.graph.ids := by
      rw [← find?_known_iff]
      cases hfind : i.keys.find? fun id => !m.graph.contains id with
      | none => rfl
      | some id =>
        obtain ⟨hmem, hunknown, hmin⟩ := find?_unknown_iff.mp hfind
        exact absurd (.unknown hi hn hmem hunknown hmin) (hno _)
    have hmissing : m.missingMechanisms = [] := Classical.byContradiction fun hne =>
      hno _ (.unfitted hi hn hknown hne (sortedIds_increasing _) fun _ =>
        Model.mem_missingMechanisms)
    refine ⟨hi, hn, hknown, hmissing, ?_⟩
    rw [← h, checkIntervention_of_fitted hi hn hknown hmissing]
  · rintro ⟨hi, hn, hknown, hmissing, hclamps⟩
    rw [checkIntervention_of_fitted hi hn hknown hmissing, hclamps]

/-- A static fit accepts finite numbers at any of its nodes. -/
theorem exists_clamps_fitStatic {g : CausalGraph α} (hg : g.WellFormed) {settings : FitSettings α}
    {now : Instant} (hi : i.keys ≠ []) (hn : 2 ≤ n) (hknown : ∀ k ∈ i.keys, k ∈ g.ids)
    (hnumber : ∀ k v, i.get? k = some v → ∃ x, v = .number x ∧ Scalar.isFinite x = true) :
    ∃ clamps, checkIntervention (fitStatic settings now g) i n = .ok clamps := by
  cases h : checkIntervention (fitStatic settings now g) i n with
  | ok clamps => exact ⟨clamps, rfl⟩
  | error e =>
    cases checkIntervention_eq_error_iff.mp h with
    | empty he => exact absurd he hi
    | few _ hlt => omega
    | unknown _ _ hid hunknown _ => exact absurd (hknown _ hid) hunknown
    | @unfitted ids _ _ _ hids _ hmem =>
      obtain ⟨id, hid⟩ := List.exists_mem_of_ne_nil ids hids
      have hmissing := Model.mem_missingMechanisms.mpr ((hmem id).mp hid)
      rw [Model.missingMechanisms_fitStatic hg] at hmissing
      exact absurd hmissing List.not_mem_nil
    | incompatible _ _ _ _ hv hmech hcode _ =>
      obtain ⟨x, rfl, hx⟩ := hnumber _ _ hv
      rw [Model.domain_fitStatic hmech, Domain.encode?, if_pos hx] at hcode
      exact nomatch hcode

end Check

end Simulation

end CodeCausality
