import CodeCausality.Proofs.Graph.Paths

/-!
# The calls of the path search

A call of the search extends a path by a number of edges. The distances that it goes by are the
fewest and the most edges to the target; whether there is a path of the very number that is left
they do not say, as some number between the two may be missing.

* `extendNoting`, `lengthsNoting`, `pathsNoting` -- the search with a note of each call, and **its
  paths are those of the search** (`fst_pathsNoting`);
* `walks_distance_ne_nil` -- both distances are numbers of edges of walks to the target;
* `Charged` -- what a call of the search for paths of one length is good for, and
  `charged_of_mem_extendNoting` that each call is;
* `calls_serve_the_answer` -- **each call has a completion with no more edges than are left, one
  with no fewer, and an answer that begins with the path it extends** (`Serves`), so the work is
  bounded by the answer;
* `call_without_completion` -- but **a call need not have a completion of the very number**.
-/

namespace CodeCausality

/-- A call of the search: the path that it extends and the number of edges that is left. -/
@[ext] structure PathCall where
  path : List String
  remaining : Nat
  deriving Repr, DecidableEq

/-- The call seen from one node earlier. -/
def PathCall.after (v : String) (call : PathCall) : PathCall :=
  { call with path := v :: call.path }

namespace PathSearch

/-! ## 1. The search with a note of its calls -/

/-- One child more: it is searched if there is room for a path and its distances fit. -/
def noteChild (s : PathSearch) (remaining limit : Nat) (v : String)
    (search : Nat → String → List (List String) × List PathCall)
    (state : List (List String) × List PathCall) (c : String) :
    List (List String) × List PathCall :=
  if state.1.length < limit ∧ s.fits c remaining then
    let inner := search (limit - state.1.length) c
    (state.1 ++ inner.1.map (v :: ·), state.2 ++ inner.2.map (.after v))
  else state

/-- `extend`, with all calls that it makes, itself the first. -/
def extendNoting (s : PathSearch) : Nat → Nat → String → List (List String) × List PathCall
  | 0, limit, v => (if v = s.target ∧ 0 < limit then [[v]] else [], [⟨[v], 0⟩])
  | remaining + 1, limit, v =>
    let run := (s.children v).foldl
      (s.noteChild remaining limit v (s.extendNoting remaining)) ([], [])
    (run.1, ⟨[v], remaining + 1⟩ :: run.2)

/-- `lengths`, with all calls of `extend`. -/
def lengthsNoting (s : PathSearch) (v : String) :
    Nat → List Nat → List (List String) × List PathCall
  | _, [] => ([], [])
  | limit, n :: rest =>
    let first := s.extendNoting n limit v
    if limit ≤ first.1.length then first
    else
      let others := s.lengthsNoting v (limit - first.1.length) rest
      (first.1 ++ others.1, first.2 ++ others.2)

end PathSearch

/-- `paths`, with all calls of `extend`. -/
def CausalGraph.pathsNoting {α : Type} (g : CausalGraph α) (source target : String) (limit : Nat) :
    Except PathError (List (List String) × List PathCall) :=
  if !g.contains source then .error (.nodeNotFound source)
  else if !g.contains target then .error (.nodeNotFound target)
  else if limit = 0 then .ok ([], [])
  else
    let s := g.search target
    match s.distances.lookup source with
    | none => .ok ([], [])
    | some d =>
      .ok (s.lengthsNoting source limit (List.range' d.shortest (d.longest + 1 - d.shortest)))

namespace PathSearch

variable {s : PathSearch}

theorem fst_extendNoting (n limit : Nat) (v : String) :
    (s.extendNoting n limit v).1 = s.extend n limit v := by
  induction n generalizing limit v with
  | zero => rfl
  | succ n ih =>
    rw [extendNoting, extend]
    refine (List.foldl_hom Prod.fst fun state c => ?_).symm
    by_cases h : state.1.length < limit ∧ s.fits c n
    · rw [if_pos h, noteChild, if_pos h, ← ih]
    · rw [if_neg h, noteChild, if_neg h]

theorem fst_lengthsNoting (v : String) (limit : Nat) (ns : List Nat) :
    (s.lengthsNoting v limit ns).1 = s.lengths v limit ns := by
  induction ns generalizing limit with
  | nil => rfl
  | cons n rest ih =>
    rw [lengthsNoting, lengths, ← fst_extendNoting, ← ih]
    exact apply_ite Prod.fst _ _ _

end PathSearch

/-- **The search is the same without the notes.** -/
theorem CausalGraph.fst_pathsNoting {α : Type} (g : CausalGraph α) (source target : String)
    (limit : Nat) :
    (g.pathsNoting source target limit).map Prod.fst = g.paths source target limit := by
  rw [pathsNoting, paths]
  split
  · rfl
  · split
    · rfl
    · split
      · rfl
      · dsimp only
        cases (g.search target).distances.lookup source with
        | none => rfl
        | some d => exact congrArg _ (PathSearch.fst_lengthsNoting ..)

/-! ## 2. Both distances are those of walks -/

namespace Distance

/-- What each joining takes from one of the two comes from one of all. -/
theorem exists_mem_foldl_join {f : Distance → Nat}
    (hf : ∀ a b : Distance, f (a.join b) = f a ∨ f (a.join b) = f b) (ds : List Distance)
    (d : Distance) : ∃ e ∈ d :: ds, f (ds.foldl join d) = f e := by
  induction ds generalizing d with
  | nil => exact ⟨d, List.mem_cons_self, rfl⟩
  | cons c ds ih =>
    obtain ⟨e, he, hjoin⟩ := ih (d.join c)
    rw [List.foldl_cons, hjoin]
    rcases List.mem_cons.mp he with rfl | he
    · rcases hf d c with hd | hc
      · exact ⟨d, List.mem_cons_self, hd⟩
      · exact ⟨c, List.mem_cons_of_mem _ List.mem_cons_self, hc⟩
    · exact ⟨e, List.mem_cons_of_mem _ (List.mem_cons_of_mem _ he), rfl⟩

/-- The distances over the next nodes are one more than those of two of them. -/
theorem exists_of_over {known : List (String × Distance)} {next : List String} {d : Distance}
    (h : Distance.over known next = some d) :
    (∃ c ∈ next, ∃ e, known.lookup c = some e ∧ d.shortest = e.shortest + 1) ∧
      ∃ c ∈ next, ∃ e, known.lookup c = some e ∧ d.longest = e.longest + 1 := by
  rw [Distance.over] at h
  split at h
  · cases h
  · rename_i first others heq
    obtain rfl := Option.some.inj h
    have hmem (e : Distance) (he : e ∈ first :: others) :
        ∃ c ∈ next, known.lookup c = some e := List.mem_filterMap.mp (heq ▸ he)
    obtain ⟨e, he, hshort⟩ := exists_mem_foldl_join (f := shortest)
      (fun _ _ => min_choice _ _) others first
    obtain ⟨e', he', hlong⟩ := exists_mem_foldl_join (f := longest)
      (fun _ _ => max_choice _ _) others first
    obtain ⟨c, hc, hlookup⟩ := hmem e he
    obtain ⟨c', hc', hlookup'⟩ := hmem e' he'
    exact ⟨⟨c, hc, e, hlookup, congrArg Nat.succ hshort⟩,
      ⟨c', hc', e', hlookup', congrArg Nat.succ hlong⟩⟩

end Distance

namespace CausalGraph

variable {α : Type} {g : CausalGraph α} {target : String}

theorem walks_succ_ne_nil {u c : String} {n : Nat} (hc : c ∈ g.children u)
    (h : (g.search target).walks n c ≠ []) : (g.search target).walks (n + 1) u ≠ [] := by
  obtain ⟨q, hq⟩ := List.exists_mem_of_ne_nil _ h
  exact List.ne_nil_of_mem (PathSearch.mem_walks_succ.mpr ⟨c, hc, q, hq, rfl⟩)

/-- **The distances that a node has are numbers of edges of walks to the target.** The induction is
on the part of the order that is done. -/
theorem walks_distance_ne_nil {suf : List String} {u : String} {d : Distance}
    (h : (distancesTo g.children target suf).lookup u = some d) :
    (g.search target).walks d.shortest u ≠ [] ∧ (g.search target).walks d.longest u ≠ [] := by
  induction suf generalizing u d with
  | nil => exact nomatch h
  | cons v suf ih =>
    by_cases huv : u = v
    · subst huv
      rw [distancesTo_cons] at h
      split at h
      · rename_i htarget
        rw [List.lookup_cons, beq_self_eq_true] at h
        obtain rfl := Option.some.inj h
        have hself : (g.search target).walks 0 u = [[u]] := if_pos htarget
        simp only [hself]
        exact ⟨List.cons_ne_nil _ _, List.cons_ne_nil _ _⟩
      · split at h
        · rename_i d' hover
          rw [List.lookup_cons, beq_self_eq_true] at h
          obtain rfl := Option.some.inj h
          obtain ⟨⟨c, hc, e, he, hshort⟩, c', hc', e', he', hlong⟩ := Distance.exists_of_over hover
          rw [hshort, hlong]
          exact ⟨walks_succ_ne_nil hc (ih he).1, walks_succ_ne_nil hc' (ih he').2⟩
        · exact ih h
    · rw [lookup_distancesTo_cons_of_ne huv] at h
      exact ih h

end CausalGraph

/-! ## 3. What a call is good for -/

namespace PathSearch

variable {s : PathSearch}

/-- `path` follows the children from `v` to `u`. -/
inductive Leads (s : PathSearch) : String → List String → String → Prop where
  | here (v : String) : s.Leads v [v] v
  | step {v c u : String} {path : List String} (hc : c ∈ s.children v) (h : s.Leads c path u) :
      s.Leads v (v :: path) u

/-- A walk from where a path ends continues it. -/
theorem Leads.append {v u : String} {path q : List String} (h : s.Leads v path u) {m n : Nat}
    (hq : q ∈ s.walks m u) (hn : path.length + m = n + 1) : ∃ p ∈ s.walks n v, path <+: p := by
  induction h generalizing n with
  | here v =>
    rw [List.length_singleton, Nat.add_comm] at hn
    obtain rfl := Nat.succ.inj hn
    obtain ⟨t, rfl⟩ := head_of_mem_walks hq
    exact ⟨v :: t, hq, List.prefix_append [v] t⟩
  | @step v c u path hc h ih =>
    have hpos : 0 < path.length := by cases h <;> exact Nat.succ_pos _
    rw [List.length_cons] at hn
    obtain ⟨n, rfl⟩ : ∃ k, n = k + 1 := ⟨n - 1, by omega⟩
    have hn : path.length + m = n + 1 := by omega
    obtain ⟨p, hp, hprefix⟩ := ih hq hn
    exact ⟨v :: p, mem_walks_succ.mpr ⟨c, hc, p, hp, rfl⟩, (List.prefix_cons_inj v).mpr hprefix⟩

/-- A call of the search for paths of `n` edges from `v` that finds `found`: the path it extends
ends at a node with fitting distances, and is continued in `found` if the number of edges that is
left is possible. -/
structure Charged (s : PathSearch) (v : String) (n : Nat) (found : List (List String))
    (call : PathCall) (u : String) : Prop where
  leads : s.Leads v call.path u
  edges : call.path.length + call.remaining = n + 1
  fits : s.fits u call.remaining = true
  continued : s.walks call.remaining u ≠ [] → ∃ p ∈ found, call.path <+: p ∧ p ∈ s.walks n v

theorem Charged.mono {v u : String} {n : Nat} {found more : List (List String)} {call : PathCall}
    (h : s.Charged v n found call u) (hsub : found ⊆ more) : s.Charged v n more call u where
  leads := h.leads
  edges := h.edges
  fits := h.fits
  continued hw :=
    let ⟨p, hp, hcontinued⟩ := h.continued hw
    ⟨p, hsub hp, hcontinued⟩

theorem Charged.after {v c u : String} {n : Nat} {found : List (List String)} {call : PathCall}
    (h : s.Charged c n found call u) (hc : c ∈ s.children v) :
    s.Charged v (n + 1) (found.map (v :: ·)) (call.after v) u where
  leads := .step hc h.leads
  edges := by
    have := h.edges
    simp only [PathCall.after, List.length_cons]
    omega
  fits := h.fits
  continued hw :=
    let ⟨p, hp, hprefix, hwalk⟩ := h.continued hw
    ⟨v :: p, List.mem_map_of_mem hp, (List.prefix_cons_inj v).mpr hprefix,
      mem_walks_succ.mpr ⟨c, hc, p, hwalk, rfl⟩⟩

/-- The first call of a search that has room finds a path if there is one. -/
theorem charged_self (hs : s.Admits) {n limit : Nat} {v : String} (hfits : s.fits v n = true)
    (hlimit : 0 < limit) : s.Charged v n (s.extend n limit v) ⟨[v], n⟩ v where
  leads := .here v
  edges := Nat.add_comm 1 n
  fits := hfits
  continued hw := by
    obtain ⟨p, rest, hwalks⟩ := List.exists_cons_of_ne_nil hw
    have hp : p ∈ s.walks n v := hwalks ▸ List.mem_cons_self
    obtain ⟨t, rfl⟩ := head_of_mem_walks hp
    refine ⟨v :: t, ?_, List.prefix_append [v] t, hp⟩
    obtain ⟨k, rfl⟩ := Nat.exists_eq_succ_of_ne_zero hlimit.ne'
    rw [extend_eq_take hs, hwalks, List.take_succ_cons]
    exact List.mem_cons_self

/-- **Each call of the search for paths of one length is charged to what the search finds.** -/
theorem charged_of_mem_extendNoting (hs : s.Admits) {n limit : Nat} {v : String}
    (hfits : s.fits v n = true) (hlimit : 0 < limit) :
    ∀ call ∈ (s.extendNoting n limit v).2, ∃ u,
      s.Charged v n (s.extendNoting n limit v).1 call u := by
  induction n generalizing limit v with
  | zero =>
    intro call hcall
    obtain rfl := List.mem_singleton.mp hcall
    exact ⟨v, charged_self hs hfits hlimit⟩
  | succ n ih =>
    intro call hcall
    have hself := charged_self hs hfits hlimit
    rw [← fst_extendNoting] at hself
    rcases List.mem_cons.mp hcall with rfl | hchild
    · exact ⟨v, hself⟩
    · -- the calls of the children tried so far are charged to what is found so far
      clear hcall hself
      revert call
      refine List.foldlRecOn (motive := fun state : List (List String) × List PathCall =>
        ∀ call ∈ state.2, ∃ u, s.Charged v (n + 1) state.1 call u) (s.children v) _ ?_ ?_
      · exact fun call hcall => absurd hcall List.not_mem_nil
      · intro state hstate c hc call hcall
        rw [noteChild] at hcall ⊢
        split at hcall
        · rename_i hroom
          rw [if_pos hroom]
          rcases List.mem_append.mp hcall with hcall | hcall
          · obtain ⟨u, hu⟩ := hstate call hcall
            exact ⟨u, hu.mono (List.subset_append_left _ _)⟩
          · obtain ⟨inner, hinner, rfl⟩ := List.mem_map.mp hcall
            obtain ⟨u, hu⟩ := ih hroom.2 (Nat.sub_pos_of_lt hroom.1) inner hinner
            exact ⟨u, (hu.after hc).mono (List.subset_append_right _ _)⟩
        · rename_i hfull
          rw [if_neg hfull]
          exact hstate call hcall

theorem Leads.exists_eq_cons {v u : String} {path : List String} (h : s.Leads v path u) :
    ∃ t, path = v :: t := by
  cases h with
  | here => exact ⟨[], rfl⟩
  | step _ h => exact ⟨_, rfl⟩

/-- The calls noted are different, and each extends a path through a child that is not among the
given ones. -/
structure NotedBefore (v : String) (cs : List String) (calls : List PathCall) : Prop where
  nodup : calls.Nodup
  through : ∀ call ∈ calls, ∃ d t, call.path = v :: d :: t ∧ d ∉ cs

theorem NotedBefore.append {v c : String} {cs : List String} {calls inner : List PathCall}
    (h : NotedBefore v (c :: cs) calls) (hc : c ∉ cs) (hnodup : inner.Nodup)
    (hinner : ∀ call ∈ inner, ∃ t, call.path = c :: t) :
    NotedBefore v cs (calls ++ inner.map (.after v)) where
  nodup := by
    have hinjective : Function.Injective (PathCall.after v) := fun a b hab => by
      obtain ⟨hpath, hremaining⟩ := PathCall.mk.inj hab
      exact PathCall.ext (List.cons.inj hpath).2 hremaining
    refine List.nodup_append.mpr ⟨h.nodup, hnodup.map hinjective, ?_⟩
    rintro call hcall _ hmem rfl
    obtain ⟨call', hcall', rfl⟩ := List.mem_map.mp hmem
    obtain ⟨d, t, hpath, hd⟩ := h.through _ hcall
    obtain ⟨t', hpath'⟩ := hinner call' hcall'
    rw [PathCall.after, hpath'] at hpath
    obtain ⟨rfl, -⟩ := List.cons.inj (List.cons.inj hpath).2
    exact hd List.mem_cons_self
  through call hcall := by
    rcases List.mem_append.mp hcall with hcall | hcall
    · obtain ⟨d, t, hpath, hd⟩ := h.through call hcall
      exact ⟨d, t, hpath, fun hmem => hd (List.mem_cons_of_mem _ hmem)⟩
    · obtain ⟨call', hcall', rfl⟩ := List.mem_map.mp hcall
      obtain ⟨t, hpath⟩ := hinner call' hcall'
      exact ⟨c, t, congrArg (v :: ·) hpath, hc⟩

/-- **No call of the search for paths of one length is made twice.** -/
theorem nodup_extendNoting (hs : s.Admits) (hchildren : ∀ v, (s.children v).Nodup) {n limit : Nat}
    {v : String} (hfits : s.fits v n = true) (hlimit : 0 < limit) :
    (s.extendNoting n limit v).2.Nodup := by
  induction n generalizing limit v with
  | zero => exact List.nodup_singleton _
  | succ n ih =>
    have hfold (cs : List String) (state : List (List String) × List PathCall) (hcs : cs.Nodup)
        (hstate : NotedBefore v cs state.2) :
        NotedBefore v [] (cs.foldl (s.noteChild n limit v (s.extendNoting n)) state).2 := by
      induction cs generalizing state with
      | nil => exact hstate
      | cons c cs ihcs =>
        obtain ⟨hc, hcs⟩ := List.nodup_cons.mp hcs
        refine ihcs _ hcs ?_
        rw [noteChild]
        split
        · rename_i hroom
          have hroom' := Nat.sub_pos_of_lt hroom.1
          refine hstate.append hc (ih hroom.2 hroom') fun call hcall => ?_
          obtain ⟨u, hu⟩ := charged_of_mem_extendNoting hs hroom.2 hroom' call hcall
          exact hu.leads.exists_eq_cons
        · exact ⟨hstate.nodup, fun call hcall =>
            let ⟨d, t, hpath, hd⟩ := hstate.through call hcall
            ⟨d, t, hpath, fun hmem => hd (List.mem_cons_of_mem _ hmem)⟩⟩
    have hrun := hfold (s.children v) ([], []) (hchildren v)
      ⟨List.nodup_nil, fun _ h => absurd h List.not_mem_nil⟩
    refine List.nodup_cons.mpr ⟨fun hmem => ?_, hrun.nodup⟩
    obtain ⟨d, t, hpath, -⟩ := hrun.through _ hmem
    exact nomatch hpath

/-- **Each call of the search of one length after another is charged to what is found**, and when it
is made all walks of the lengths before are found. -/
theorem charged_of_mem_lengthsNoting (hs : s.Admits) {v : String} {ns : List Nat}
    (hfits : ∀ n ∈ ns, s.fits v n = true) {limit : Nat} (hlimit : 0 < limit) :
    ∀ call ∈ (s.lengthsNoting v limit ns).2, ∃ before n after u, ns = before ++ n :: after ∧
      (∀ m ∈ before, s.walks m v ⊆ (s.lengthsNoting v limit ns).1) ∧
      s.Charged v n (s.lengthsNoting v limit ns).1 call u := by
  induction ns generalizing limit with
  | nil => exact fun call hcall => absurd hcall List.not_mem_nil
  | cons n rest ih =>
    have hfirst := charged_of_mem_extendNoting hs (hfits n List.mem_cons_self) hlimit
    intro call hcall
    rw [lengthsNoting] at hcall ⊢
    dsimp only at hcall ⊢
    by_cases hfull : limit ≤ (s.extendNoting n limit v).1.length
    · rw [if_pos hfull] at hcall ⊢
      obtain ⟨u, hu⟩ := hfirst call hcall
      exact ⟨[], n, rest, u, rfl, fun _ hm => absurd hm List.not_mem_nil, hu⟩
    · rw [if_neg hfull] at hcall ⊢
      rcases List.mem_append.mp hcall with hcall | hcall
      · obtain ⟨u, hu⟩ := hfirst call hcall
        exact ⟨[], n, rest, u, rfl, fun _ hm => absurd hm List.not_mem_nil,
          hu.mono (List.subset_append_left _ _)⟩
      · obtain ⟨before, m, after, u, rfl, hbefore, hu⟩ :=
          ih (fun k hk => hfits k (List.mem_cons_of_mem _ hk)) (by omega) call hcall
        refine ⟨n :: before, m, after, u, rfl, ?_, hu.mono (List.subset_append_right _ _)⟩
        refine List.forall_mem_cons.mpr ⟨?_, fun k hk =>
          List.Subset.trans (hbefore k hk) (List.subset_append_right _ _)⟩
        -- the limit was not reached, so nothing of this length was left out
        have hall : s.walks n v ⊆ (s.extendNoting n limit v).1 := by
          rw [fst_extendNoting, extend_eq_take hs, List.length_take] at hfull
          rw [fst_extendNoting, extend_eq_take hs, List.take_of_length_le (by omega)]
          exact List.Subset.refl _
        exact List.Subset.trans hall (List.subset_append_left _ _)

/-- Nor is one made for two lengths. -/
theorem nodup_lengthsNoting (hs : s.Admits) (hchildren : ∀ v, (s.children v).Nodup) {v : String}
    {ns : List Nat} (hns : ns.Nodup) (hfits : ∀ n ∈ ns, s.fits v n = true) {limit : Nat}
    (hlimit : 0 < limit) : (s.lengthsNoting v limit ns).2.Nodup := by
  induction ns generalizing limit with
  | nil => exact List.nodup_nil
  | cons n rest ih =>
    obtain ⟨hn, hrest⟩ := List.nodup_cons.mp hns
    have hfirst := hfits n List.mem_cons_self
    have hothers : ∀ m ∈ rest, s.fits v m = true := fun m hm => hfits m (List.mem_cons_of_mem _ hm)
    rw [lengthsNoting]
    dsimp only
    split
    · exact nodup_extendNoting hs hchildren hfirst hlimit
    · rename_i hroom
      refine List.nodup_append.mpr ⟨nodup_extendNoting hs hchildren hfirst hlimit,
        ih hrest hothers (by omega), ?_⟩
      rintro call hcall _ hmem rfl
      obtain ⟨u, hu⟩ := charged_of_mem_extendNoting hs hfirst hlimit call hcall
      obtain ⟨before, m, after, u', rfl, -, hu'⟩ :=
        charged_of_mem_lengthsNoting hs hothers (by omega) call hmem
      obtain rfl : n = m := Nat.succ.inj (hu.edges.symm.trans hu'.edges)
      exact hn (List.mem_append_right _ List.mem_cons_self)

end PathSearch

/-! ## 4. The calls in an accepted graph -/

namespace CausalGraph

variable {α : Type} {g : CausalGraph α} {source target : String}

theorem isWalk_of_leads (hk : g.KnownEnds) {v u : String} {path : List String} (hv : v ∈ g.ids)
    (h : (g.search target).Leads v path u) :
    g.IsWalk path ∧ path.head? = some v ∧ path.getLast? = some u := by
  induction h with
  | here v => exact ⟨hv, rfl, rfl⟩
  | @step v c u path hc h ih =>
    have hvc : g.HasEdge v c := mem_children.mp hc
    obtain ⟨hwalk, hhead, hlast⟩ := ih (hvc.target_mem hk)
    match path, hhead with
    | d :: rest, hhead =>
      obtain rfl := Option.some.inj hhead
      exact ⟨isWalk_cons_cons.mpr ⟨hvc, hwalk⟩, rfl, by rw [List.getLast?_cons_cons, hlast]⟩

/-- Where a call has fitting distances there is a walk with no more edges, and one with no fewer. -/
theorem walks_of_fits {v : String} {n : Nat} (h : (g.search target).fits v n = true) :
    ∃ shortest longest, shortest ≤ n ∧ n ≤ longest ∧ (g.search target).walks shortest v ≠ [] ∧
      (g.search target).walks longest v ≠ [] := by
  rw [PathSearch.fits] at h
  split at h
  · rename_i d hd
    rw [Bool.and_eq_true, decide_eq_true_iff, decide_eq_true_iff] at h
    obtain ⟨hshort, hlong⟩ := walks_distance_ne_nil hd
    exact ⟨d.shortest, d.longest, h.1, h.2, hshort, hlong⟩
  · cases h

theorem target_mem_of_pathsNoting {limit : Nat} {run : List (List String) × List PathCall}
    (hrun : g.pathsNoting source target limit = .ok run) : target ∈ g.ids := by
  rw [pathsNoting] at hrun
  split at hrun
  · cases hrun
  · split at hrun
    · cases hrun
    · rename_i ht
      simpa using ht

/-- A path of `n` edges leads from where the call's path ends to the target. -/
def Completes (g : CausalGraph α) (target : String) (call : PathCall) (n : Nat) : Prop :=
  ∃ u p, call.path.getLast? = some u ∧ g.IsPath u target p ∧ p.length = n + 1

/-- What a call is good for: its path comes from the source, is completed by a path of no more edges
than are left and by one of no fewer, and an answer begins with it, which has the very number of
edges wherever that is possible. -/
structure Serves (g : CausalGraph α) (source target : String) (found : List (List String))
    (call : PathCall) : Prop where
  walk : g.IsWalk call.path
  start : call.path.head? = some source
  short : ∃ fewest ≤ call.remaining, g.Completes target call fewest
  long : ∃ most ≥ call.remaining, g.Completes target call most
  answered : ∃ answer ∈ found, call.path <+: answer ∧
    answer.length ≤ call.path.length + call.remaining
  exact : g.Completes target call call.remaining → ∃ answer ∈ found, call.path <+: answer ∧
    answer.length = call.path.length + call.remaining

section Accepted

variable [Scalar α] (hg : g.WellFormed) (ht : target ∈ g.ids)

include hg ht

theorem completes_iff {call : PathCall} {u : String} (hu : call.path.getLast? = some u) {n : Nat} :
    g.Completes target call n ↔ (g.search target).walks n u ≠ [] := by
  constructor
  · rintro ⟨u', p, hu', ⟨hwalk, -, hhead, hlast⟩, hlength⟩
    obtain rfl := Option.some.inj (hu.symm.trans hu')
    exact List.ne_nil_of_mem ((mem_walks_iff ht).mpr ⟨hwalk, hlength, hhead, hlast⟩)
  · intro hw
    obtain ⟨p, hp⟩ := List.exists_mem_of_ne_nil _ hw
    obtain ⟨hwalk, hlength, hhead, hlast⟩ := (mem_walks_iff ht).mp hp
    exact ⟨u, p, hu, ⟨hwalk, hwalk.nodup hg, hhead, hlast⟩, hlength⟩

omit ht in
/-- The lengths that are tried. -/
theorem pathsNoting_eq {limit : Nat} {run : List (List String) × List PathCall}
    (hrun : g.pathsNoting source target limit = .ok run) : run = ([], []) ∨
      ∃ ns, 0 < limit ∧ source ∈ g.ids ∧ ns.Pairwise (· < ·) ∧
        (∀ n ∈ ns, (g.search target).fits source n = true) ∧
        (∀ n, (g.search target).walks n source ≠ [] → n ∈ ns) ∧
        (g.search target).lengthsNoting source limit ns = run := by
  rw [pathsNoting] at hrun
  split at hrun
  · cases hrun
  · rename_i hs
    replace hs : source ∈ g.ids := by simpa using hs
    split at hrun
    · cases hrun
    · split at hrun
      · exact .inl (Except.ok.inj hrun).symm
      · rename_i hlimit
        dsimp only at hrun
        split at hrun
        · exact .inl (Except.ok.inj hrun).symm
        · rename_i d hd
          refine .inr ⟨_, Nat.pos_of_ne_zero hlimit, hs, List.pairwise_lt_range', fun n hn => ?_,
            fun n hn => ?_, Except.ok.inj hrun⟩
          · rw [List.mem_range'_1] at hn
            rw [PathSearch.fits, hd, Bool.and_eq_true, decide_eq_true_iff, decide_eq_true_iff]
            omega
          · obtain ⟨e, he, hshort, hlong⟩ := exists_distance_of_walk hg (List.nil_append _).symm
              (hg.mem_order.mpr hs) hn
            obtain rfl : d = e := Option.some.inj (hd.symm.trans he)
            rw [List.mem_range'_1]
            omega

/-- **Each call is charged to the answer**, and when it is made all shorter paths are found. -/
theorem charged_of_mem_pathsNoting {limit : Nat} {found : List (List String)}
    {calls : List PathCall} (hrun : g.pathsNoting source target limit = .ok (found, calls))
    {call : PathCall} (hcall : call ∈ calls) : source ∈ g.ids ∧
      ∃ n u, (g.search target).Charged source n found call u ∧
        ∀ m < n, (g.search target).walks m source ⊆ found := by
  rcases pathsNoting_eq hg hrun with hnone | ⟨ns, hlimit, hs, hns, hfits, hall, hlengths⟩
  · obtain rfl := congrArg Prod.snd hnone
    exact absurd hcall List.not_mem_nil
  · obtain ⟨before, n, after, u, rfl, hbefore, hu⟩ := PathSearch.charged_of_mem_lengthsNoting
      (search_admits hg ht) hfits hlimit call (hlengths ▸ hcall)
    rw [hlengths] at hbefore hu
    refine ⟨hs, n, u, hu, fun m hm p hp => hbefore m ?_ hp⟩
    rcases List.mem_append.mp (hall m (List.ne_nil_of_mem hp)) with hmem | hmem
    · exact hmem
    · -- the lengths after `n` are greater
      rcases List.mem_cons.mp hmem with rfl | hmem
      · exact absurd hm (lt_irrefl _)
      · exact absurd ((List.pairwise_cons.mp (List.pairwise_append.mp hns).2.1).1 m hmem) hm.asymm

theorem nodup_calls {limit : Nat} {found : List (List String)} {calls : List PathCall}
    (hrun : g.pathsNoting source target limit = .ok (found, calls)) : calls.Nodup := by
  rcases pathsNoting_eq hg hrun with hnone | ⟨ns, hlimit, -, hns, hfits, -, hlengths⟩
  · obtain rfl := congrArg Prod.snd hnone
    exact List.nodup_nil
  · have hnodup := PathSearch.nodup_lengthsNoting (search_admits hg ht)
      (fun v => (children_increasing g v).imp ne_of_lt) (hns.imp ne_of_lt) hfits hlimit
    rwa [hlengths] at hnodup

/-- **Each call of a search in an accepted graph serves the answer.** -/
theorem serves_of_mem_pathsNoting {limit : Nat} {found : List (List String)}
    {calls : List PathCall} (hrun : g.pathsNoting source target limit = .ok (found, calls))
    {call : PathCall} (hcall : call ∈ calls) : g.Serves source target found call := by
  obtain ⟨hs, n, u, hu, hshorter⟩ := charged_of_mem_pathsNoting hg ht hrun hcall
  obtain ⟨hwalk, hhead, hlast⟩ := isWalk_of_leads hg.known hs hu.leads
  obtain ⟨fewest, most, hfewest, hmost, hshort, hlong⟩ := walks_of_fits hu.fits
  have hedges := hu.edges
  have hexact (hw : (g.search target).walks call.remaining u ≠ []) :
      ∃ answer ∈ found, call.path <+: answer ∧
        answer.length = call.path.length + call.remaining := by
    obtain ⟨p, hp, hprefix, hpwalk⟩ := hu.continued hw
    exact ⟨p, hp, hprefix, by rw [PathSearch.length_of_mem_walks hpwalk, hedges]⟩
  refine ⟨hwalk, hhead, ⟨fewest, hfewest, (completes_iff hg ht hlast).mpr hshort⟩,
    ⟨most, hmost, (completes_iff hg ht hlast).mpr hlong⟩, ?_,
    fun h => hexact ((completes_iff hg ht hlast).mp h)⟩
  rcases hfewest.eq_or_lt with rfl | hlt
  · obtain ⟨answer, hanswer, hprefix, hlength⟩ := hexact hshort
    exact ⟨answer, hanswer, hprefix, hlength.le⟩
  · -- the path with the fewest edges is shorter, so it was found before
    obtain ⟨q, hq⟩ := List.exists_mem_of_ne_nil _ hshort
    have hpos : 0 < call.path.length := List.length_pos_of_mem (List.mem_of_head? hhead)
    obtain ⟨k, hk⟩ : ∃ k, call.path.length + fewest = k + 1 :=
      ⟨_, (Nat.succ_pred (by omega)).symm⟩
    obtain ⟨p, hp, hprefix⟩ := hu.leads.append hq hk
    refine ⟨p, hshorter k (by omega) hp, hprefix, ?_⟩
    rw [PathSearch.length_of_mem_walks hp]
    omega

end Accepted

section Cost

theorem length_inits_tail (p : List String) : p.inits.tail.length = p.length := by
  rw [List.length_tail, List.length_inits, Nat.add_sub_cancel]

theorem mem_inits_tail {p q : List String} (h : p <+: q) (hp : p ≠ []) : p ∈ q.inits.tail := by
  cases q with
  | nil => exact absurd (List.prefix_nil.mp h) hp
  | cons v q =>
    obtain ⟨u, p, rfl⟩ := List.exists_cons_of_ne_nil hp
    obtain ⟨rfl, hprefix⟩ := List.cons_prefix_cons.mp h
    exact List.mem_map_of_mem ((List.mem_inits _ _).mpr hprefix)

/-- Different calls that extend beginnings of answers are no more than the answers have nodes, for
each number of edges that is left. -/
theorem length_calls_le {calls : List PathCall} {found : List (List String)} {bound : Nat}
    (hnodup : calls.Nodup) (hcalls : ∀ call ∈ calls, call.path ≠ [] ∧ call.remaining < bound ∧
      ∃ answer ∈ found, call.path <+: answer) :
    calls.length ≤ bound * (found.map List.length).sum := by
  let places := List.range bound ×ˢ found.flatMap fun p => p.inits.tail
  have hlength : places.length = bound * (found.map List.length).sum := by
    rw [List.length_product, List.length_range, List.length_flatMap]
    simp only [length_inits_tail]
  have hinjective : Function.Injective fun call : PathCall => (call.remaining, call.path) :=
    fun a b hab => PathCall.ext (Prod.ext_iff.mp hab).2 (Prod.ext_iff.mp hab).1
  have hsub : (calls.map fun call => (call.remaining, call.path)) ⊆ places := by
    intro place hplace
    obtain ⟨call, hcall, rfl⟩ := List.mem_map.mp hplace
    obtain ⟨hne, hremaining, answer, hanswer, hprefix⟩ := hcalls call hcall
    exact List.mem_product.mpr ⟨List.mem_range.mpr hremaining,
      List.mem_flatMap.mpr ⟨answer, hanswer, mem_inits_tail hprefix hne⟩⟩
  have hle := ((hnodup.map hinjective).subperm hsub).length_le
  rwa [List.length_map, hlength] at hle

end Cost

section Order

variable [Scalar α]

/-- **The calls of a search in an accepted graph serve its answer**, and are no more than the
answers have nodes, for each number of edges that may be left. -/
theorem calls_serve_the_answer {nodes : List Element} {edges : List (Edge α)}
    (hg : ofParts nodes edges = .ok g) {limit : Nat} {found : List (List String)}
    {calls : List PathCall} (hrun : g.pathsNoting source target limit = .ok (found, calls)) :
    g.paths source target limit = .ok found ∧
    (∀ call ∈ calls, g.Serves source target found call) ∧
    calls.length ≤ g.ids.length * (found.map List.length).sum := by
  have hwf := wellFormed_of_ofParts hg
  have ht := target_mem_of_pathsNoting hrun
  have hpaths : g.paths source target limit = .ok found := by
    rw [← fst_pathsNoting, hrun]
    rfl
  have hcalls (call : PathCall) (hcall : call ∈ calls) :=
    serves_of_mem_pathsNoting hwf ht hrun hcall
  refine ⟨hpaths, hcalls, length_calls_le (nodup_calls hwf ht hrun) fun call hcall => ?_⟩
  have hserves := hcalls call hcall
  obtain ⟨most, hmost, u, p, -, ⟨hwalk, hnodup, -⟩, hlength⟩ := hserves.long
  have hle : p.length ≤ g.ids.length :=
    (hnodup.subperm (hwalk.subset_ids hwf.known)).length_le
  obtain ⟨answer, hanswer, hprefix, -⟩ := hserves.answered
  exact ⟨List.ne_nil_of_mem (List.mem_of_head? hserves.start), by omega, answer, hanswer, hprefix⟩

/-- All paths of the diamond, and seven calls for them. -/
theorem calls_serve_the_answer_diamond :
    ofParts diamondNodes diamondEdges = .ok diamond ∧ ∃ found calls,
      diamond.pathsNoting "a" "d" 3 = .ok (found, calls) ∧ calls.length = 7 ∧
        ∀ call ∈ calls, diamond.Serves "a" "d" found call := by
  obtain ⟨found, calls, hrun, hlength⟩ : ∃ found calls,
      diamond.pathsNoting "a" "d" 3 = .ok (found, calls) ∧ calls.length = 7 :=
    ⟨_, _, by cbv, rfl⟩
  exact ⟨ofParts_diamond, found, calls, hrun, hlength,
    (calls_serve_the_answer ofParts_diamond hrun).2.1⟩

/-- A node `a` that is one edge or three from the target, but not two. -/
def gapNodes : List Element :=
  [.of "s" .function [], .of "a" .function [], .of "b" .function [], .of "c" .function [],
    .of "t" .function []]

def gapEdges : List (Edge Float) :=
  [⟨"s", "a", .dataFlow, none⟩, ⟨"s", "b", .dataFlow, none⟩, ⟨"a", "t", .dataFlow, none⟩,
    ⟨"a", "b", .dataFlow, none⟩, ⟨"b", "c", .dataFlow, none⟩, ⟨"c", "t", .dataFlow, none⟩]

def gap : CausalGraph Float := assembled gapNodes gapEdges

theorem ofParts_gap : ofParts gapNodes gapEdges = .ok gap := by cbv

/-- **A call need not have a completion of the very number of edges**: of the paths of three edges
from `s`, one is looked for through `a`, where two edges are left. -/
theorem call_without_completion :
    ofParts gapNodes gapEdges = .ok gap ∧ ∃ found calls,
      gap.pathsNoting "s" "t" 10 = .ok (found, calls) ∧
        ∃ call ∈ calls, ¬ gap.Completes "t" call call.remaining := by
  obtain ⟨found, calls, hrun, hmem⟩ : ∃ found calls,
      gap.pathsNoting "s" "t" 10 = .ok (found, calls) ∧ ⟨["s", "a"], 2⟩ ∈ calls :=
    ⟨_, _, by cbv, by decide⟩
  refine ⟨ofParts_gap, found, calls, hrun, _, hmem, ?_⟩
  rw [completes_iff (wellFormed_of_ofParts ofParts_gap) (by decide) rfl, not_not]
  cbv

end Order

end CausalGraph

end CodeCausality
