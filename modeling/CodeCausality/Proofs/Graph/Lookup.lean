import Mathlib.Data.Prod.Lex
import CodeCausality.Proofs.Graph.Construction

/-!
# Looking up edges and nodes

An edge is searched by halves, which is right as long as the edges increase; a node is looked up by
its position, which is right as long as no id stands twice. Both hold of an accepted graph.

* `Edge.mem_of_search` -- what the search finds is among the edges, and has the ends asked for;
* `Edge.search_of_mem` -- **among increasing edges it finds every edge**: what is left out in a round
  lies on one side of the pair;
* `edge?_eq_some_iff`, `node?_eq_some_iff` -- what is found in a well-formed graph;
* `Holds`, `holds_of_ofParts` -- **the three forms that an accepted graph holds its edges in say the
  same**, and of the edges given the first of each pair.
-/

namespace CodeCausality

/-! ## 1. Edges -/

namespace Edge

variable {α : Type} {d e : Edge α} {es : List (Edge α)} {source target : String}

/-- The order of pairs is that by source, then by target. -/
theorem pairLT_iff_toLex :
    PairLT d e ↔ toLex (d.source, d.target) < toLex (e.source, e.target) := by
  rw [Prod.Lex.toLex_lt_toLex]
  rfl

theorem PairLT.asymm (h : PairLT d e) : ¬ PairLT e d := by
  rw [pairLT_iff_toLex] at *
  exact h.asymm

theorem isBefore_iff : d.isBefore e.source e.target = true ↔ PairLT d e := by
  rw [isBefore, Bool.or_eq_true, Bool.and_eq_true, decide_eq_true_eq, decide_eq_true_eq,
    beq_iff_eq, PairLT]

theorem joins_iff : e.joins source target = true ↔ e.source = source ∧ e.target = target := by
  rw [joins, Bool.and_eq_true, beq_iff_eq, beq_iff_eq]

/-- Of two edges in order, the first does not join the ends of the second. -/
theorem PairLT.not_joins (h : PairLT d e) : ¬ d.joins e.source e.target = true := fun hjoins =>
  h.not_samePair (samePair_iff.mpr (joins_iff.mp hjoins))

/-- The edges of a round: those below the middle, the middle, and those above. -/
theorem take_append_of_drop {above : List (Edge α)} (h : es.drop (es.length / 2) = d :: above) :
    es.take (es.length / 2) ++ d :: above = es := by
  rw [← h, List.take_append_drop]

/-- **What is found is among the edges and has the ends asked for.** -/
theorem mem_of_search {rounds : Nat} (h : search source target rounds es = some e) :
    e ∈ es ∧ e.source = source ∧ e.target = target := by
  induction rounds generalizing es with
  | zero => exact nomatch h
  | succ rounds ih =>
    rw [search] at h
    split at h
    · exact nomatch h
    · rename_i d above hdrop
      rw [← take_append_of_drop hdrop]
      split at h
      · rename_i hends
        obtain rfl := Option.some.inj h
        exact ⟨List.mem_append_right _ List.mem_cons_self, joins_iff.mp hends⟩
      · split at h
        · obtain ⟨hmem, hends⟩ := ih h
          exact ⟨List.mem_append_right _ (List.mem_cons_of_mem _ hmem), hends⟩
        · obtain ⟨hmem, hends⟩ := ih h
          exact ⟨List.mem_append_left _ hmem, hends⟩

/-- An increasing edge is the middle one, or lies below it, or above it. -/
theorem mem_parts {below above : List (Edge α)} (h : (below ++ d :: above).Pairwise PairLT)
    (he : e ∈ below ++ d :: above) :
    (e ∈ below ∧ PairLT e d) ∨ e = d ∨ (e ∈ above ∧ PairLT d e) := by
  obtain ⟨-, habove, hcross⟩ := List.pairwise_append.mp h
  have hd := (List.pairwise_cons.mp habove).1
  rcases List.mem_append.mp he with he | he
  · exact .inl ⟨he, hcross e he d List.mem_cons_self⟩
  · exact .inr ((List.mem_cons.mp he).imp id fun he => ⟨he, hd e he⟩)

/-- **Among increasing edges each is found**, in as many rounds as there are edges. -/
theorem search_of_mem (h : es.Pairwise PairLT) {rounds : Nat} (hrounds : es.length ≤ rounds)
    (he : e ∈ es) : search e.source e.target rounds es = some e := by
  induction rounds generalizing es with
  | zero =>
    obtain rfl := List.length_eq_zero_iff.mp (Nat.le_zero.mp hrounds)
    exact absurd he List.not_mem_nil
  | succ rounds ih =>
    rw [search]
    split
    · rename_i hdrop
      -- there is an edge, so there is one in the middle
      have hlen := List.length_pos_of_mem he
      have hnone := List.drop_eq_nil_iff.mp hdrop
      omega
    · rename_i d above hdrop
      have hparts := take_append_of_drop hdrop
      have hlen := congrArg List.length hparts
      rw [List.length_append, List.length_cons] at hlen
      rw [← hparts] at h he
      have hbelow := (List.pairwise_append.mp h).1
      have habove := (List.pairwise_cons.mp (List.pairwise_append.mp h).2.1).2
      rcases mem_parts h he with ⟨he, hlt⟩ | rfl | ⟨he, hlt⟩
      · have hends : ¬ d.joins e.source e.target = true := fun hjoins => by
          obtain ⟨hs, ht⟩ := joins_iff.mp hjoins
          exact hlt.not_joins (joins_iff.mpr ⟨hs.symm, ht.symm⟩)
        have hbefore : ¬ d.isBefore e.source e.target = true :=
          fun h => hlt.asymm (isBefore_iff.mp h)
        rw [if_neg hends, if_neg hbefore]
        exact ih hbelow (by omega) he
      · rw [if_pos (joins_iff.mpr ⟨rfl, rfl⟩)]
      · rw [if_neg hlt.not_joins, if_pos (isBefore_iff.mpr hlt)]
        exact ih habove (by omega) he

theorem search_eq_some_iff (h : es.Pairwise PairLT) :
    search source target es.length es = some e ↔
      e ∈ es ∧ e.source = source ∧ e.target = target := by
  refine ⟨mem_of_search, ?_⟩
  rintro ⟨he, rfl, rfl⟩
  exact search_of_mem h (le_refl _) he

end Edge

/-! ## 2. Look-ups in a graph -/

namespace CausalGraph

variable {α : Type} [Scalar α] {g : CausalGraph α}

/-- **An edge is found by its ends.** -/
theorem edge?_eq_some_iff (hg : g.WellFormed) {source target : String} {e : Edge α} :
    g.edge? source target = some e ↔ e ∈ g.edges ∧ e.source = source ∧ e.target = target :=
  Edge.search_eq_some_iff hg.increasing

/-- There is none exactly if no edge has these ends. -/
theorem edge?_eq_none_iff (hg : g.WellFormed) {source target : String} :
    g.edge? source target = none ↔ ¬ g.HasEdge source target := by
  rw [Option.eq_none_iff_forall_ne_some]
  refine ⟨fun h hedge => ?_, fun h e he => h ⟨e, (edge?_eq_some_iff hg).mp he⟩⟩
  obtain ⟨e, he⟩ := hedge
  exact h e ((edge?_eq_some_iff hg).mpr he)

/-- **A node is found by its id.** -/
theorem node?_eq_some_iff (hg : g.WellFormed) {id : String} {n : Element} :
    g.node? id = some n ↔ n ∈ g.nodes ∧ n.id = id := by
  rw [node?, g.index_eq, Option.bind_eq_some_iff]
  constructor
  · rintro ⟨i, hi, hn⟩
    obtain ⟨n', hn', hid⟩ := (GraphIndex.get?_positions_iff hg.distinctNodes).mp hi
    obtain rfl := Option.some.inj (hn.symm.trans hn')
    exact ⟨List.mem_of_getElem? hn, hid⟩
  · rintro ⟨hn, hid⟩
    obtain ⟨i, hi⟩ := List.mem_iff_getElem?.mp hn
    exact ⟨i, (GraphIndex.get?_positions_iff hg.distinctNodes).mpr ⟨n, hi, hid⟩, hi⟩

/-! ## 3. The forms of an accepted graph -/

/-- The nodes and edges that a graph was given, as each of its forms holds them. -/
structure Holds (g : CausalGraph α) (nodes : List Element) (edges : List (Edge α)) : Prop where
  nodes_eq : g.nodes = nodes
  increasing : g.edges.Pairwise Edge.PairLT
  first : ∀ s t e, (e ∈ g.edges ∧ e.source = s ∧ e.target = t) ↔
    edges.find? (fun d => d.joins s t) = some e
  contains : ∀ id, g.contains id = true ↔ id ∈ g.ids
  node : ∀ id n, g.node? id = some n ↔ n ∈ g.nodes ∧ n.id = id
  edge : ∀ s t e, g.edge? s t = some e ↔ e ∈ g.edges ∧ e.source = s ∧ e.target = t
  found : ∀ s t, (g.edge? s t).isSome = true ↔ ∃ e ∈ g.edges, e.source = s ∧ e.target = t
  parents : ∀ t, (g.parents t).Pairwise (· < ·) ∧
    ∀ s, s ∈ g.parents t ↔ ∃ e ∈ g.edges, e.source = s ∧ e.target = t
  children : ∀ s, (g.children s).Pairwise (· < ·) ∧
    ∀ t, t ∈ g.children s ↔ ∃ e ∈ g.edges, e.source = s ∧ e.target = t
  root : ∀ id, g.isRoot id = true ↔ id ∈ g.ids ∧ ∀ e ∈ g.edges, e.target ≠ id

variable {nodes : List Element} {edges : List (Edge α)}

/-- The edge listed for a pair is the first one given for it. -/
theorem mem_edges_iff_find? (hg : ofParts nodes edges = .ok g) {s t : String} {e : Edge α} :
    (e ∈ g.edges ∧ e.source = s ∧ e.target = t) ↔
      edges.find? (fun d => d.joins s t) = some e := by
  obtain ⟨rfl, -, -⟩ := ofParts_eq_ok_iff.mp hg
  constructor
  · rintro ⟨he, rfl, rfl⟩
    exact Edge.mem_canonical.mp he
  · intro h
    have hjoins : e.joins s t = true := (List.find?_eq_some_iff_append.mp h).1
    obtain ⟨rfl, rfl⟩ := Edge.joins_iff.mp hjoins
    exact ⟨Edge.mem_canonical.mpr h, rfl, rfl⟩

omit [Scalar α] in
/-- A root is a node that no edge leads to. -/
theorem isRoot_iff_forall {id : String} :
    g.isRoot id = true ↔ id ∈ g.ids ∧ ∀ e ∈ g.edges, e.target ≠ id := by
  by_cases hid : id ∈ g.ids
  · rw [isRoot_iff hid, List.eq_nil_iff_forall_not_mem]
    constructor
    · exact fun h => ⟨hid, fun e he ht => h e.source (mem_parents.mpr ⟨e, he, rfl, ht⟩)⟩
    · rintro ⟨-, h⟩ p hp
      obtain ⟨e, he, -, ht⟩ := mem_parents.mp hp
      exact h e he ht
  · have hroot : ¬ g.isRoot id = true := fun h =>
      hid (contains_iff.mp (Bool.and_eq_true_iff.mp h).1)
    exact ⟨fun h => absurd h hroot, fun h => absurd h.1 hid⟩

/-- **All forms of an accepted graph hold the nodes as given, and of each pair the first edge.** -/
theorem holds_of_ofParts (hg : ofParts nodes edges = .ok g) : g.Holds nodes edges := by
  have hwf := wellFormed_of_ofParts hg
  exact {
    nodes_eq := by
      obtain ⟨rfl, -, -⟩ := ofParts_eq_ok_iff.mp hg
      rfl
    increasing := hwf.increasing
    first := fun _ _ _ => mem_edges_iff_find? hg
    contains := fun _ => contains_iff
    node := fun _ _ => node?_eq_some_iff hwf
    edge := fun _ _ _ => edge?_eq_some_iff hwf
    found := fun s t => by
      rw [← Option.ne_none_iff_isSome, ne_eq, edge?_eq_none_iff hwf, not_not]
      rfl
    parents := fun t => ⟨g.parents_increasing t, fun _ => mem_parents⟩
    children := fun s => ⟨g.children_increasing s, fun _ => mem_children⟩
    root := fun _ => isRoot_iff_forall }

end CausalGraph

end CodeCausality
