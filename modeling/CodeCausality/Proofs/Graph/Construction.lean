import Mathlib.Data.List.Permutation
import CodeCausality.Proofs.Graph.Order

/-!
# What building a graph keeps and checks

`CausalGraph.ofParts` sorts the edges, drops repeated pairs and runs its checks one after another.
Here each part is said by what it decides:

* `Edge.IsKept` -- an edge is the first of its pair in the order given; `mem_canonical`: these are
  the edges of the graph, because the sort is stable;
* `canonical_increasing` -- one edge a pair, in increasing order of the pairs;
* `ofParts_eq_ok_iff` -- the graph is built exactly if every check succeeds;
* `wellFormed_of_ofParts`, `ofParts_of_wellFormed` -- **an accepted graph is well formed**, and a
  well-formed one is accepted as it is;
* `diamond` -- an accepted graph of four nodes.
-/

namespace CodeCausality

/-! ## 1. Pairs -/

namespace Edge

variable {α : Type}

theorem samePair_iff {a b : Edge α} :
    a.samePair b = true ↔ a.source = b.source ∧ a.target = b.target := by
  rw [samePair, Bool.and_eq_true, beq_iff_eq, beq_iff_eq]

/-- The strict order by source, then by target. -/
def PairLT (a b : Edge α) : Prop :=
  a.source < b.source ∨ (a.source = b.source ∧ a.target < b.target)

theorem pairLE_iff {a b : Edge α} :
    pairLE a b = true ↔ a.source < b.source ∨ (a.source = b.source ∧ a.target ≤ b.target) := by
  rw [pairLE, Bool.or_eq_true, Bool.and_eq_true, decide_eq_true_eq, decide_eq_true_eq, beq_iff_eq]

theorem pairLE_trans (a b c : Edge α) (hab : pairLE a b = true) (hbc : pairLE b c = true) :
    pairLE a c = true := by
  rw [pairLE_iff] at *
  rcases hab with hab | ⟨hab, hab'⟩
  · rcases hbc with hbc | ⟨hbc, -⟩
    · exact .inl (hab.trans hbc)
    · exact .inl (hbc ▸ hab)
  · rcases hbc with hbc | ⟨hbc, hbc'⟩
    · exact .inl (hab ▸ hbc)
    · exact .inr ⟨hab.trans hbc, hab'.trans hbc'⟩

theorem pairLE_total (a b : Edge α) : (pairLE a b || pairLE b a) = true := by
  rw [Bool.or_eq_true, pairLE_iff, pairLE_iff]
  rcases lt_trichotomy a.source b.source with h | h | h
  · exact .inl (.inl h)
  · exact (le_total a.target b.target).imp (fun k => .inr ⟨h, k⟩) (fun k => .inr ⟨h.symm, k⟩)
  · exact .inr (.inl h)

theorem pairLE_of_samePair {a b : Edge α} (h : a.samePair b = true) : pairLE a b = true := by
  obtain ⟨hs, ht⟩ := samePair_iff.mp h
  exact pairLE_iff.mpr (.inr ⟨hs, ht.le⟩)

theorem pairLT_of_pairLE {a b : Edge α} (h : pairLE a b = true) (hne : ¬ a.samePair b = true) :
    PairLT a b := by
  rcases pairLE_iff.mp h with h | ⟨hs, ht⟩
  · exact .inl h
  · exact .inr ⟨hs, lt_of_le_of_ne ht fun e => hne (samePair_iff.mpr ⟨hs, e⟩)⟩

theorem PairLT.trans_pairLE {a b c : Edge α} (hab : PairLT a b) (hbc : pairLE b c = true) :
    PairLT a c := by
  rcases pairLE_iff.mp hbc with hbc | ⟨hbc, hbc'⟩
  · exact .inl (hab.elim (fun h => h.trans hbc) fun h => h.1 ▸ hbc)
  · exact hab.imp (fun h => hbc ▸ h) fun h => ⟨h.1.trans hbc, h.2.trans_le hbc'⟩

theorem PairLT.not_samePair {a b : Edge α} (h : PairLT a b) : ¬ a.samePair b = true := by
  rw [samePair_iff]
  rintro ⟨hs, ht⟩
  rcases h with h | ⟨-, h⟩
  · exact absurd hs h.ne
  · exact absurd ht h.ne

/-! ## 2. The first edge of each pair -/

/-- The edge is the first of its pair. -/
def IsKept (es : List (Edge α)) (e : Edge α) : Prop :=
  es.find? (fun d => d.samePair e) = some e

theorem IsKept.mem {es : List (Edge α)} {e : Edge α} (h : IsKept es e) : e ∈ es :=
  List.mem_of_find?_eq_some h

/-- Every edge has the ends of a kept one. -/
theorem exists_isKept {es : List (Edge α)} {e : Edge α} (he : e ∈ es) :
    ∃ d, IsKept es d ∧ d.samePair e = true := by
  have hsome : (es.find? fun d => d.samePair e).isSome = true :=
    List.find?_isSome.mpr ⟨e, he, samePair_iff.mpr ⟨rfl, rfl⟩⟩
  obtain ⟨d, hd⟩ := Option.isSome_iff_exists.mp hsome
  have hde : d.samePair e = true := (List.find?_eq_some_iff_append.mp hd).1
  refine ⟨d, ?_, hde⟩
  -- an edge has the ends of `d` exactly if it has those of `e`
  have hsame : (fun x : Edge α => x.samePair d) = fun x => x.samePair e := by
    funext x
    rw [Bool.eq_iff_iff, samePair_iff, samePair_iff, (samePair_iff.mp hde).1,
      (samePair_iff.mp hde).2]
  rw [IsKept, hsame, hd]

theorem not_isKept_nil {x : Edge α} : ¬ IsKept [] x := fun h => absurd h.mem List.not_mem_nil

/-- The first edge is kept, and of the others those that have not its ends. -/
theorem isKept_cons {e x : Edge α} {rest : List (Edge α)} :
    IsKept (e :: rest) x ↔ x = e ∨ (e.samePair x = false ∧ IsKept rest x) := by
  rw [IsKept, List.find?_cons]
  cases hex : e.samePair x with
  | true =>
    constructor
    · exact fun h => .inl (Option.some.inj h).symm
    · rintro (rfl | ⟨h, -⟩)
      · rfl
      · exact nomatch h
  | false =>
    constructor
    · exact fun h => .inr ⟨rfl, h⟩
    · rintro (rfl | ⟨-, h⟩)
      · rw [samePair_iff.mpr ⟨rfl, rfl⟩] at hex
        exact nomatch hex
      · exact h

/-- Among sorted edges dropping repetitions keeps the first of each pair. -/
theorem mem_dropRepeated_go {e x : Edge α} {rest : List (Edge α)}
    (h : (e :: rest).Pairwise fun a b => pairLE a b = true) :
    x ∈ dropRepeated.go e rest ↔ IsKept (e :: rest) x := by
  induction rest generalizing e with
  | nil =>
    rw [dropRepeated.go, List.mem_singleton, isKept_cons]
    exact ⟨.inl, fun h => h.resolve_right fun h => not_isKept_nil h.2⟩
  | cons d rest ih =>
    obtain ⟨he, hrest⟩ := List.pairwise_cons.mp h
    have hd := (List.pairwise_cons.mp hrest).2
    rw [dropRepeated.go, isKept_cons]
    split
    · rename_i hed
      -- `d` has the ends of `e`, so it is not kept, and the others are compared with either
      have htail : (e :: rest).Pairwise fun a b => pairLE a b = true :=
        List.pairwise_cons.mpr ⟨fun b hb => he b (List.mem_cons_of_mem _ hb), hd⟩
      have hdx : d.samePair x = e.samePair x := by
        rw [Bool.eq_iff_iff, samePair_iff, samePair_iff, (samePair_iff.mp hed).1,
          (samePair_iff.mp hed).2]
      rw [ih htail, isKept_cons, isKept_cons, hdx]
      refine or_congr_right (and_congr_right fun hex => ⟨fun h => .inr ⟨hex, h⟩, ?_⟩)
      rintro (rfl | ⟨-, h⟩)
      · rw [hed] at hex
        exact nomatch hex
      · exact h
    · rename_i hed
      have hlt : PairLT e d := pairLT_of_pairLE (he d List.mem_cons_self) hed
      rw [List.mem_cons, ih hrest]
      refine or_congr_right ⟨fun hx => ⟨?_, hx⟩, fun hx => hx.2⟩
      rw [← Bool.not_eq_true]
      rcases List.mem_cons.mp hx.mem with rfl | hmem
      · exact hlt.not_samePair
      · exact (hlt.trans_pairLE ((List.pairwise_cons.mp hrest).1 x hmem)).not_samePair

theorem dropRepeated_go_increasing {e : Edge α} {rest : List (Edge α)}
    (h : (e :: rest).Pairwise fun a b => pairLE a b = true) :
    (dropRepeated.go e rest).Pairwise PairLT := by
  induction rest generalizing e with
  | nil => exact List.pairwise_singleton _ _
  | cons d rest ih =>
    obtain ⟨he, hrest⟩ := List.pairwise_cons.mp h
    have hd := List.pairwise_cons.mp hrest
    rw [dropRepeated.go]
    split
    · exact ih (List.pairwise_cons.mpr ⟨fun b hb => he b (List.mem_cons_of_mem _ hb), hd.2⟩)
    · rename_i hed
      have hlt : PairLT e d := pairLT_of_pairLE (he d List.mem_cons_self) hed
      refine List.pairwise_cons.mpr ⟨fun x hx => ?_, ih hrest⟩
      rcases List.mem_cons.mp ((mem_dropRepeated_go hrest).mp hx).mem with rfl | hx
      · exact hlt
      · exact hlt.trans_pairLE (hd.1 x hx)

theorem mergeSort_pairLE_sorted (es : List (Edge α)) :
    (es.mergeSort pairLE).Pairwise fun a b => pairLE a b = true :=
  List.pairwise_mergeSort pairLE_trans pairLE_total es

/-- The sort is stable: the edges of one pair stay in their order. -/
theorem filter_mergeSort_samePair (es : List (Edge α)) (x : Edge α) :
    (es.mergeSort pairLE).filter (fun d => d.samePair x) = es.filter fun d => d.samePair x := by
  have hpair : (es.filter fun d => d.samePair x).Pairwise fun a b => pairLE a b = true := by
    refine List.pairwise_of_forall_mem_list fun a ha b hb => pairLE_of_samePair ?_
    obtain ⟨has, hat⟩ := samePair_iff.mp (List.mem_filter.mp ha).2
    obtain ⟨hbs, hbt⟩ := samePair_iff.mp (List.mem_filter.mp hb).2
    exact samePair_iff.mpr ⟨has.trans hbs.symm, hat.trans hbt.symm⟩
  have hsub := List.sublist_mergeSort pairLE_trans pairLE_total hpair
    List.filter_sublist
  have hsub' := hsub.filter fun d => d.samePair x
  rw [List.filter_filter, List.filter_congr fun _ _ => Bool.and_self _] at hsub'
  exact (hsub'.eq_of_length ((List.mergeSort_perm es pairLE).symm.filter _).length_eq).symm

theorem canonical_eq_dropRepeated_go {es : List (Edge α)} {e : Edge α} {rest : List (Edge α)}
    (h : es.mergeSort pairLE = e :: rest) : canonical es = dropRepeated.go e rest := by
  rw [canonical, h, dropRepeated]

/-- **The edges of a graph are the first ones of their pairs.** -/
theorem mem_canonical {es : List (Edge α)} {e : Edge α} : e ∈ canonical es ↔ IsKept es e := by
  have hfind : IsKept (es.mergeSort pairLE) e ↔ IsKept es e := by
    rw [IsKept, IsKept, ← List.head?_filter, ← List.head?_filter, filter_mergeSort_samePair]
  rw [← hfind]
  cases hs : es.mergeSort pairLE with
  | nil =>
    rw [canonical, hs]
    exact ⟨fun h => absurd h List.not_mem_nil, fun h => absurd h.mem List.not_mem_nil⟩
  | cons d rest =>
    rw [canonical_eq_dropRepeated_go hs]
    exact mem_dropRepeated_go (hs ▸ mergeSort_pairLE_sorted es)

/-- **One edge a pair, in increasing order of the pairs.** -/
theorem canonical_increasing (es : List (Edge α)) : (canonical es).Pairwise PairLT := by
  cases hs : es.mergeSort pairLE with
  | nil =>
    rw [canonical, hs]
    exact List.Pairwise.nil
  | cons d rest =>
    rw [canonical_eq_dropRepeated_go hs]
    exact dropRepeated_go_increasing (hs ▸ mergeSort_pairLE_sorted es)

theorem dropRepeated_go_of_increasing {e : Edge α} {rest : List (Edge α)}
    (h : (e :: rest).Pairwise PairLT) : dropRepeated.go e rest = e :: rest := by
  induction rest generalizing e with
  | nil => rfl
  | cons d rest ih =>
    obtain ⟨he, hrest⟩ := List.pairwise_cons.mp h
    rw [dropRepeated.go, if_neg (he d List.mem_cons_self).not_samePair, ih hrest]

/-- Edges in increasing order of their pairs are left as they are. -/
theorem canonical_of_increasing {es : List (Edge α)} (h : es.Pairwise PairLT) :
    canonical es = es := by
  have hsorted : es.mergeSort pairLE = es := List.mergeSort_of_pairwise
    (h.imp fun hab => pairLE_iff.mpr (hab.imp id fun hab => ⟨hab.1, hab.2.le⟩))
  cases es with
  | nil => rw [canonical, hsorted, dropRepeated]
  | cons e rest => rw [canonical_eq_dropRepeated_go hsorted, dropRepeated_go_of_increasing h]

end Edge

/-! ## 3. The checks -/

theorem firstRepeated?_eq_none_iff {ids seen : List String} :
    firstRepeated? seen ids = none ↔ ids.Nodup ∧ ∀ id ∈ ids, id ∉ seen := by
  induction ids generalizing seen with
  | nil => simp [firstRepeated?]
  | cons a rest ih =>
    rw [firstRepeated?, List.nodup_cons, List.forall_mem_cons]
    split
    · rename_i h
      exact ⟨fun h => (nomatch h), fun k => absurd (List.contains_iff_mem.mp h) k.2.1⟩
    · rename_i h
      have ha : a ∉ seen := fun ha => h (List.contains_iff_mem.mpr ha)
      rw [ih]
      constructor
      · rintro ⟨hnd, hout⟩
        exact ⟨⟨fun har => hout a har List.mem_cons_self, hnd⟩, ha,
          fun id hid his => hout id hid (List.mem_cons_of_mem _ his)⟩
      · rintro ⟨⟨har, hnd⟩, -, hout⟩
        refine ⟨hnd, fun id hid his => ?_⟩
        rcases List.mem_cons.mp his with rfl | his
        · exact har hid
        · exact hout id hid his

theorem checkAll_eq_ok_iff {β ε : Type} {check : β → Except ε Unit} {bs : List β} :
    checkAll check bs = .ok () ↔ ∀ b ∈ bs, check b = .ok () := by
  induction bs with
  | nil => simp [checkAll]
  | cons b rest ih =>
    rw [checkAll, List.forall_mem_cons]
    cases hb : check b with
    | ok u => rw [ih, and_iff_right rfl]
    | error e => exact ⟨fun h => (nomatch h), fun h => (nomatch h.1)⟩

theorem checkAll_eq_error {β ε : Type} {check : β → Except ε Unit} {bs : List β} {e : ε}
    (h : checkAll check bs = .error e) : ∃ b ∈ bs, check b = .error e := by
  induction bs with
  | nil => exact nomatch h
  | cons b rest ih =>
    rw [checkAll] at h
    cases hb : check b with
    | ok u =>
      rw [hb] at h
      obtain ⟨c, hc, hce⟩ := ih h
      exact ⟨c, List.mem_cons_of_mem _ hc, hce⟩
    | error f =>
      rw [hb] at h
      exact ⟨b, List.mem_cons_self, hb.trans h⟩

section Checks

variable {α : Type} [Scalar α]

theorem Edge.check_eq_ok_iff {known : String → Bool} {source target : String} {weight : Option α} :
    Edge.check known source target weight = .ok () ↔
      (known source = true ∧ known target = true) ∧
        ∀ w, weight = some w → Scalar.isFinite w = true := by
  unfold Edge.check
  cases hs : known source with
  | false => exact ⟨fun h => (nomatch h), fun k => (nomatch k.1.1)⟩
  | true =>
    cases ht : known target with
    | false => exact ⟨fun h => (nomatch h), fun k => (nomatch k.1.2)⟩
    | true =>
      cases weight with
      | none => exact ⟨fun _ => ⟨⟨rfl, rfl⟩, fun w hw => (nomatch hw)⟩, fun _ => rfl⟩
      | some w =>
        cases hw : Scalar.isFinite w with
        | false =>
          refine ⟨fun h => ?_, fun k => absurd (k.2 w rfl) (by rw [hw]; exact Bool.false_ne_true)⟩
          simp [hw] at h
        | true =>
          refine ⟨fun _ => ⟨⟨rfl, rfl⟩, fun v hv => Option.some.inj hv ▸ hw⟩, fun _ => ?_⟩
          simp [hw]

theorem Edge.check_ne_cycleDetected {known : String → Bool} {source target : String}
    {weight : Option α} {e : GraphError α} (h : Edge.check known source target weight = .error e)
    (cycles : List (List String)) : e ≠ .cycleDetected cycles := by
  rintro rfl
  unfold Edge.check at h
  repeat' split at h
  all_goals exact nomatch h

/-! ## 4. Accepted graphs -/

namespace CausalGraph

variable {nodes : List Element} {edges : List (Edge α)}

/-- The graph that the parts make if they pass. -/
def assembled (nodes : List Element) (edges : List (Edge α)) : CausalGraph α :=
  .of nodes (Edge.canonical edges)

/-- What the parts must satisfy before cycles are searched for. Of the edges, only the first ones of
their pairs count. -/
structure Checked (nodes : List Element) (edges : List (Edge α)) : Prop where
  nonempty : nodes ≠ []
  distinct : (nodes.map (·.id)).Nodup
  known : ∀ e, Edge.IsKept edges e → e.source ∈ nodes.map (·.id) ∧ e.target ∈ nodes.map (·.id)
  finite : ∀ e, Edge.IsKept edges e → ∀ w, e.weight = some w → Scalar.isFinite w = true

theorem Checked.knownEnds (h : Checked nodes edges) : (assembled nodes edges).KnownEnds :=
  fun e he => h.known e (Edge.mem_canonical.mp he)

/-- **Parts that pass the checks make a graph if its order is complete, and else are refused for
its cycles.** -/
theorem ofParts_of_checked (h : Checked nodes edges) :
    ofParts nodes edges =
      if (assembled nodes edges).topologicalOrder.length = nodes.length then
        .ok (assembled nodes edges)
      else .error (.cycleDetected (assembled nodes edges).cyclicComponents) := by
  have hedges : checkAll (fun e => Edge.check (assembled nodes edges).contains e.source e.target
      e.weight) (assembled nodes edges).edges = .ok () :=
    checkAll_eq_ok_iff.mpr fun e he => Edge.check_eq_ok_iff.mpr
      ⟨⟨contains_iff.mpr (h.knownEnds e he).1, contains_iff.mpr (h.knownEnds e he).2⟩,
        h.finite e (Edge.mem_canonical.mp he)⟩
  have hdistinct : firstRepeated? [] (nodes.map (·.id)) = none :=
    firstRepeated?_eq_none_iff.mpr ⟨h.distinct, fun _ _ => List.not_mem_nil⟩
  rw [ofParts, if_neg fun he => h.nonempty (List.isEmpty_iff.mp he), hdistinct]
  simp only [assembled] at hedges ⊢
  rw [hedges]
  rfl

/-- Parts that fail a check are refused before cycles are searched for. -/
theorem ofParts_of_not_checked (h : ¬ Checked nodes edges) :
    ∃ e, ofParts nodes edges = .error e ∧ ∀ cycles, e ≠ .cycleDetected cycles := by
  unfold ofParts
  split
  · exact ⟨_, rfl, fun _ h => (nomatch h)⟩
  · rename_i hne
    split
    · exact ⟨_, rfl, fun _ h => (nomatch h)⟩
    · rename_i hdistinct
      dsimp only
      split
      · rename_i e he
        obtain ⟨_, -, hcheck⟩ := checkAll_eq_error he
        exact ⟨e, rfl, Edge.check_ne_cycleDetected hcheck⟩
      · rename_i hedges
        have hpass (e : Edge α) (he : Edge.IsKept edges e) := Edge.check_eq_ok_iff.mp
          (checkAll_eq_ok_iff.mp hedges e (Edge.mem_canonical.mpr he))
        exact absurd ⟨fun hn => hne (List.isEmpty_iff.mpr hn),
          (firstRepeated?_eq_none_iff.mp hdistinct).1,
          fun e he => ⟨contains_iff.mp (hpass e he).1.1, contains_iff.mp (hpass e he).1.2⟩,
          fun e he => (hpass e he).2⟩ h

/-- **The graph is built exactly if the parts pass the checks and nothing reaches itself.** -/
theorem ofParts_eq_ok_iff {g : CausalGraph α} :
    ofParts nodes edges = .ok g ↔
      g = assembled nodes edges ∧ Checked nodes edges ∧
        ∀ v, ¬ (assembled nodes edges).Reaches v v := by
  by_cases h : Checked nodes edges
  · have hcycles := length_topologicalOrder_iff (g := assembled nodes edges) h.distinct h.knownEnds
    rw [ofParts_of_checked h, ← hcycles]
    split
    · rename_i hfull
      exact ⟨fun hg => ⟨(Except.ok.inj hg).symm, h, hfull⟩, fun hg => congrArg _ hg.1.symm⟩
    · rename_i hfull
      exact ⟨fun hg => (nomatch hg), fun hg => absurd hg.2.2 hfull⟩
  · obtain ⟨e, he, -⟩ := ofParts_of_not_checked h
    rw [he]
    exact ⟨fun hg => (nomatch hg), fun hg => absurd hg.2.1 h⟩

omit [Scalar α] in
/-- The parts make a graph with an edge between two nodes exactly if one was given. -/
theorem hasEdge_assembled_iff {u v : String} :
    (assembled nodes edges).HasEdge u v ↔ ∃ e ∈ edges, e.source = u ∧ e.target = v := by
  constructor
  · rintro ⟨e, he, h⟩
    exact ⟨e, (Edge.mem_canonical.mp he).mem, h⟩
  · rintro ⟨e, he, rfl, rfl⟩
    obtain ⟨d, hd, hde⟩ := Edge.exists_isKept he
    exact ⟨d, Edge.mem_canonical.mpr hd, Edge.samePair_iff.mp hde⟩

/-- An accepted graph has an edge between two nodes exactly if one was given. -/
theorem hasEdge_of_ofParts {g : CausalGraph α} (hg : ofParts nodes edges = .ok g) {u v : String} :
    g.HasEdge u v ↔ ∃ e ∈ edges, e.source = u ∧ e.target = v := by
  obtain ⟨rfl, -, -⟩ := ofParts_eq_ok_iff.mp hg
  exact hasEdge_assembled_iff

theorem ids_of_ofParts {g : CausalGraph α} (hg : ofParts nodes edges = .ok g) :
    g.ids = nodes.map (·.id) := by
  obtain ⟨rfl, -, -⟩ := ofParts_eq_ok_iff.mp hg
  rfl

/-- **An accepted graph is well formed.** -/
theorem wellFormed_of_ofParts {g : CausalGraph α} (hg : ofParts nodes edges = .ok g) :
    g.WellFormed := by
  obtain ⟨rfl, h, hac⟩ := ofParts_eq_ok_iff.mp hg
  exact {
    nonempty := h.nonempty
    distinctNodes := h.distinct
    increasing := Edge.canonical_increasing edges
    knownEnds := h.knownEnds
    finiteWeights := fun e he => h.finite e (Edge.mem_canonical.mp he)
    acyclic := hac }

/-- **A well-formed graph is built from its own nodes and edges.** -/
theorem ofParts_of_wellFormed {g : CausalGraph α} (hg : g.WellFormed) :
    ofParts g.nodes g.edges = .ok g := by
  have hedges : Edge.canonical g.edges = g.edges := Edge.canonical_of_increasing hg.increasing
  have hself : assembled g.nodes g.edges = g := CausalGraph.ext rfl hedges
  have hmem {e : Edge α} (he : Edge.IsKept g.edges e) : e ∈ g.edges := he.mem
  refine ofParts_eq_ok_iff.mpr ⟨hself.symm, ?_, hself.symm ▸ hg.acyclic⟩
  exact {
    nonempty := hg.nonempty
    distinct := hg.distinctNodes
    known := fun e he => hg.knownEnds e (hmem he)
    finite := fun e he => hg.finiteWeights e (hmem he) }

end CausalGraph

end Checks

/-! ## 5. An accepted graph -/

namespace CausalGraph

/-- Four nodes with three paths from the first to the last, given out of order. -/
def diamondNodes : List Element :=
  [.of "d" .function [], .of "b" .function [], .of "a" .function [], .of "c" .function []]

def diamondEdges : List (Edge Float) :=
  [⟨"c", "d", .call, none⟩, ⟨"a", "d", .dataFlow, none⟩, ⟨"b", "d", .call, none⟩,
    ⟨"a", "c", .dataFlow, none⟩, ⟨"a", "b", .dataFlow, none⟩]

def diamond : CausalGraph Float := assembled diamondNodes diamondEdges

theorem ofParts_diamond : ofParts diamondNodes diamondEdges = .ok diamond := by cbv

end CausalGraph

end CodeCausality
