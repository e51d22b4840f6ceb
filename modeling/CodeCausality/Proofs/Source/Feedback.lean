import CodeCausality.Proofs.Graph.Loops
import CodeCausality.Proofs.Source.Passes

/-!
# Which programs have causal cycles

A function has one element for each parameter and one for its return, whatever calls it. So a value
that comes out of one call of a function and goes into another call of it runs in a cycle, though no
function calls itself. Without recursion this is the only way:

* `Circuit` -- elements each of which has a step from one and a step to one of them;
* `Circuit.exists_caller`, `Circuit.function_not_mem` -- a function is among them only with one of
  its callers, so none is where no function calls itself;
* `Circuit.exists_deepest` -- of the functions that have elements among them, one calls none of the
  others;
* `Circuit.parameter_mem`, `Circuit.return_mem` -- **of that one, a parameter and the return are
  among them**;
* `nested`, `cycle_without_recursion` -- a program without recursion that has a cycle;
* `FedBack`, `cycles_feed_results_back` -- **every causal cycle of a program without recursion feeds
  the result of a function back into it, and where that happens there is one.**
-/

namespace CodeCausality

namespace Source

variable {α : Type} {units : List SourceUnit} {c : List String}

/-! ## 1. Circuits -/

/-- A walk notes a step from one id to the other. -/
def Flows (α : Type) (units : List SourceUnit) (u v : String) : Prop :=
  ∃ x d f, ∃ w : Walk α, Walked units x d f w ∧
    Walk.Step (settingOf units x f) f.params (CalledIn units x d) w.ids u v

/-- Two walks have found an element of one id. -/
def Shared (α : Type) (units : List SourceUnit) (id : String) : Prop :=
  ∃ w ∈ walks (α := α) units, ∃ w' ∈ walks units, w ≠ w' ∧ id ∈ w.ids ∧ id ∈ w'.ids

/-- Elements, none of them shared, each of which has a step from one and a step to one of them. -/
structure Circuit (α : Type) (units : List SourceUnit) (c : List String) : Prop where
  nonempty : c ≠ []
  known : ∀ id ∈ c, ∃ w ∈ walks (α := α) units, id ∈ w.ids
  next : ∀ u ∈ c, ∃ v ∈ c, Flows α units u v
  previous : ∀ v ∈ c, ∃ u ∈ c, Flows α units u v
  apart : ∀ id ∈ c, ¬ Shared α units id

/-- The function has an element in the list. -/
def HasElement (α : Type) (units : List SourceUnit) (c : List String) (function : String) : Prop :=
  ∃ x d f, ∃ w : Walk α, Walked units x d f w ∧ f.id = function ∧ ∃ id ∈ c, id ∈ w.ids

section Owners

variable {x x' : SourceUnit} {d d' : Definition} {f f' g : Signature} {w w' : Walk α} {id : String}

/-- What a function is called by is an edge of the call graph. -/
theorem Walked.calls (h : Walked units x d f w) (hg : CalledIn units x d g) :
    Calls units f.id g.id := calls_iff.mpr ⟨x, d, f, g, h.toIndexed, rfl, hg, rfl⟩

theorem Walked.parameter_mem_ids (h : Walked units x d f w) {p : String} (hp : some p ∈ f.params) :
    within f.id p ∈ w.ids := h.sound.parameters p hp

theorem Walked.return_mem_ids (h : Walked units x d f w) (hreturn : f.hasReturn = true) :
    within f.id "return" ∈ w.ids := h.sound.last hreturn

/-- A function that is called is walked. -/
theorem CalledIn.exists_walked (hg : CalledIn units x d g) :
    ∃ y e, ∃ v : Walk α, Walked units y e g v := by
  obtain ⟨y, e, hindexed⟩ := hg.exists_indexed
  exact ⟨y, e, _, hindexed.walked⟩

theorem CalledIn.hasElement_parameter (hg : CalledIn units x d g) {p : String}
    (hp : some p ∈ g.params) (hid : within g.id p ∈ c) : HasElement α units c g.id := by
  obtain ⟨y, e, v, hwalked⟩ := hg.exists_walked (α := α)
  exact ⟨y, e, g, v, hwalked, rfl, _, hid, hwalked.parameter_mem_ids hp⟩

theorem CalledIn.hasElement_return (hg : CalledIn units x d g) (hreturn : g.hasReturn = true)
    (hid : within g.id "return" ∈ c) : HasElement α units c g.id := by
  obtain ⟨y, e, v, hwalked⟩ := hg.exists_walked (α := α)
  exact ⟨y, e, g, v, hwalked, rfl, _, hid, hwalked.return_mem_ids hreturn⟩

variable (hc : Circuit α units c)

include hc

/-- An element belongs to one walk. -/
theorem Circuit.owner (hid : id ∈ c) (h : Walked units x d f w) (h' : Walked units x' d' f' w')
    (hw : id ∈ w.ids) (hw' : id ∈ w'.ids) : w' = w ∧ f' = f := by
  have heq : w' = w := by
    by_contra hne
    exact hc.apart id hid
      ⟨w, mem_walks.mpr ⟨x, d, f, h⟩, w', mem_walks.mpr ⟨x', d', f', h'⟩, Ne.symm hne, hw, hw'⟩
  subst heq
  exact ⟨rfl, h'.signature_eq h⟩

/-- A parameter among the elements is one of the function that it belongs to. -/
theorem Circuit.eq_of_parameter (hg : CalledIn units x d g) {p : String}
    (hp : some p ∈ g.params) (hid : within g.id p ∈ c) (h : Walked units x' d' f w)
    (hw : within g.id p ∈ w.ids) : g = f := by
  obtain ⟨y, e, v, hwalked⟩ := hg.exists_walked (α := α)
  exact (hc.owner hid h hwalked hw (hwalked.parameter_mem_ids hp)).2

theorem Circuit.eq_of_return (hg : CalledIn units x d g) (hreturn : g.hasReturn = true)
    (hid : within g.id "return" ∈ c) (h : Walked units x' d' f w)
    (hw : within g.id "return" ∈ w.ids) : g = f := by
  obtain ⟨y, e, v, hwalked⟩ := hg.exists_walked (α := α)
  exact (hc.owner hid h hwalked hw (hwalked.return_mem_ids hreturn)).2

/-! ## 2. Functions -/

/-- Only a caller has a step to a function. -/
theorem Circuit.exists_caller (h : Walked units x d f w) (hmem : f.id ∈ c) :
    ∃ x' d' f', ∃ w' : Walk α, Walked units x' d' f' w' ∧ f'.id ∈ c ∧ Calls units f'.id f.id := by
  obtain ⟨u, hu, x', d', f', w', h', hstep⟩ := hc.previous f.id hmem
  have hhome : f.id ∈ w.ids := h.sound.home_mem
  generalize htarget : f.id = target at hstep
  cases hstep with
  | @parameter p hp =>
    have hp' : within f'.id p ∈ w.ids := htarget ▸ hhome
    obtain ⟨-, rfl⟩ := hc.owner (htarget ▸ hmem) h h' hp' (h'.parameter_mem_ids hp)
    exact absurd htarget.symm (within_ne _ _)
  | invoke hg => exact ⟨x', d', f', w', h', hu, h'.calls hg⟩
  | value _ hhome' hnew hv =>
    have hmem' : f.id ∈ w'.ids := htarget ▸ hv.subset List.mem_cons_self
    obtain ⟨-, rfl⟩ := hc.owner hmem h h' hhome hmem'
    exact absurd (htarget ▸ hhome') hnew
  | giveBack _ hreturn =>
    have hp' : within f'.id "return" ∈ w.ids := htarget ▸ hhome
    obtain ⟨-, rfl⟩ := hc.owner (htarget ▸ hmem) h h' hp' (h'.return_mem_ids hreturn)
    exact absurd htarget.symm (within_ne _ _)
  | @argument g p _ _ hg hp =>
    obtain rfl := hc.eq_of_parameter hg hp (htarget ▸ hmem) h (htarget ▸ hhome)
    exact absurd htarget.symm (within_ne _ _)

variable (hcalls : ∀ a, ¬ Relation.TransGen (Calls units) a a)

include hcalls

/-- **No function is among the elements**: its callers would be too, and theirs. -/
theorem Circuit.function_not_mem (h : Walked units x d f w) : f.id ∉ c := by
  intro hmem
  have hfinite : {k | k ∈ c ∧ ∃ x d f, ∃ w : Walk α, Walked units x d f w ∧ f.id = k}.Finite :=
    c.finite_toSet.subset fun k hk => hk.1
  obtain ⟨k, -, hcycle⟩ := exists_cycle_of_successors (R := Function.swap (Calls units)) hfinite
    ⟨f.id, hmem, x, d, f, w, h, rfl⟩ (by
      rintro k ⟨hk, x, d, f, w, h, rfl⟩
      obtain ⟨x', d', f', w', h', hmem', hcall⟩ := hc.exists_caller h hk
      exact ⟨f'.id, ⟨hmem', x', d', f', w', h', rfl⟩, hcall⟩)
  exact hcalls k (Relation.transGen_swap.mp hcycle)

/-- **One of the functions calls none of the others.** -/
theorem Circuit.exists_deepest : ∃ x d f, ∃ w : Walk α, Walked units x d f w ∧
    (∃ id ∈ c, id ∈ w.ids) ∧ ∀ g, Calls units f.id g → ¬ HasElement α units c g := by
  by_contra hnone
  have hfinite : {k | HasElement α units c k}.Finite := by
    refine (units.flatMap fun u => u.definitions.map Definition.id).finite_toSet.subset ?_
    rintro k ⟨x, d, f, w, h, rfl, -⟩
    rw [h.id_eq]
    exact List.mem_flatMap.mpr ⟨x, h.unit, List.mem_map_of_mem h.definition⟩
  have hnonempty : {k | HasElement α units c k}.Nonempty := by
    obtain ⟨id, hid⟩ := List.exists_mem_of_ne_nil c hc.nonempty
    obtain ⟨w, hw, hmem⟩ := hc.known id hid
    obtain ⟨x, d, f, h⟩ := mem_walks.mp hw
    exact ⟨f.id, x, d, f, w, h, rfl, id, hid, hmem⟩
  obtain ⟨k, -, hcycle⟩ := exists_cycle_of_successors (R := Calls units) hfinite hnonempty (by
    rintro k ⟨x, d, f, w, h, rfl, hid⟩
    by_contra hlast
    exact hnone ⟨x, d, f, w, h, hid, fun g hg helement => hlast ⟨g, helement, hg⟩⟩)
  exact hcalls k hcycle

end Owners

/-! ## 3. The deepest function -/

/-- What is created later stands later in the order of creation. -/
theorem idxOf_lt_of_suffix {ids earlier : List String} {u v : String} (hu : u ∈ earlier)
    (hv : v ∉ earlier) (h : (v :: earlier) <:+ ids) :
    ids.reverse.idxOf u < ids.reverse.idxOf v := by
  obtain ⟨later, rfl⟩ := h
  have hu' : u ∈ earlier.reverse := List.mem_reverse.mpr hu
  have hv' : v ∉ earlier.reverse := fun hmem => hv (List.mem_reverse.mp hmem)
  rw [List.reverse_append, List.reverse_cons, List.append_assoc, List.idxOf_append_of_mem hu',
    List.idxOf_append_of_notMem hv']
  exact Nat.lt_of_lt_of_le (List.idxOf_lt_length_iff.mpr hu') (Nat.le_add_right _ _)

theorem idxOf_reverse_lt {ids : List String} {u : String} (hu : u ∈ ids) :
    ids.reverse.idxOf u < ids.length := by
  have hlt := List.idxOf_lt_length_iff.mpr (List.mem_reverse.mpr hu)
  rwa [List.length_reverse] at hlt

/-- The order in which elements get their values: that of creation, but the return of the function,
which is there from the start, comes last. -/
def rankIn (f : Signature) (ids : List String) (id : String) : Nat :=
  if f.hasReturn = true ∧ id = within f.id "return" then ids.length else ids.reverse.idxOf id

theorem idxOf_le_rankIn (f : Signature) {ids : List String} {id : String} (hid : id ∈ ids) :
    ids.reverse.idxOf id ≤ rankIn f ids id := by
  have hlt := idxOf_reverse_lt hid
  unfold rankIn
  split
  · omega
  · omega

section Deepest

variable {x : SourceUnit} {d : Definition} {f : Signature} {w : Walk α}
  (hc : Circuit α units c) (hcalls : ∀ a, ¬ Relation.TransGen (Calls units) a a)
  (h : Walked units x d f w) (hid : ∃ id ∈ c, id ∈ w.ids)
  (hdeepest : ∀ g, Calls units f.id g → ¬ HasElement α units c g)

include hc hcalls h hid hdeepest

/-- **The first of its elements is a parameter**: all others have a step from an earlier one. -/
theorem Circuit.parameter_mem : ∃ p, some p ∈ f.params ∧ within f.id p ∈ c := by
  by_contra hnone
  obtain ⟨v, ⟨hv, hmem⟩, hfirst⟩ :=
    (measure (rankIn f w.ids)).wf.has_min {id | id ∈ c ∧ id ∈ w.ids} hid
  have hown {y : SourceUnit} {ids : List String} {u : String} (hu : u ∈ c)
      (hown : Walk.Own (settingOf units y f) f.params ids u) :
      rankIn f w.ids u = w.ids.reverse.idxOf u := by
    unfold rankIn
    refine if_neg fun hlast => ?_
    obtain ⟨hreturn, rfl⟩ := hlast
    exact hnone ⟨"return", hown.ordinary rfl hreturn, hu⟩
  have hresult {y : SourceUnit} {e : Definition} {g : Signature} (h : Walked units y e f w)
      (hg : CalledIn units y e g) (hreturn : g.hasReturn = true)
      (hu : within g.id "return" ∈ c) : False :=
    hdeepest _ (h.calls hg) (hg.hasElement_return hreturn hu)
  obtain ⟨u, hu, x', d', f', w', h', hstep⟩ := hc.previous v hv
  cases hstep with
  | parameter _ => exact hc.function_not_mem hcalls h' hu
  | invoke _ => exact hc.function_not_mem hcalls h' hu
  | value horigin _ hnew hsuffix =>
    obtain ⟨rfl, rfl⟩ := hc.owner hv h h' hmem (hsuffix.subset List.mem_cons_self)
    cases horigin with
    | own hvalue =>
      have hgrown := hvalue.mono ((List.suffix_cons v _).trans hsuffix)
      refine hfirst u ⟨hu, hgrown.mem⟩ ?_
      show rankIn _ _ u < rankIn _ _ v
      rw [hown hu hgrown]
      exact Nat.lt_of_lt_of_le (idxOf_lt_of_suffix hvalue.mem hnew hsuffix) (idxOf_le_rankIn _ hmem)
    | result hg hreturn => exact hresult h' hg hreturn hu
  | giveBack horigin hreturn =>
    obtain ⟨rfl, rfl⟩ := hc.owner hv h h' hmem (h'.return_mem_ids hreturn)
    cases horigin with
    | own hvalue =>
      refine hfirst u ⟨hu, hvalue.mem⟩ ?_
      have hlast : rankIn f' w'.ids (within f'.id "return") = w'.ids.length := if_pos ⟨hreturn, rfl⟩
      show rankIn _ _ u < rankIn _ _ (within f'.id "return")
      rw [hown hu hvalue, hlast]
      exact idxOf_reverse_lt hvalue.mem
    | result hg hreturn' => exact hresult h' hg hreturn' hu
  | argument _ hg hp =>
    obtain rfl := hc.eq_of_parameter hg hp hv h hmem
    exact hnone ⟨_, hp, hv⟩

/-- **The last of its elements is its return**: all others have a step to a later one. -/
theorem Circuit.return_mem : f.hasReturn = true ∧ within f.id "return" ∈ c := by
  by_contra hnone
  obtain ⟨v, ⟨hv, hmem⟩, hlast⟩ := (measure fun id => w.ids.length - w.ids.reverse.idxOf id).wf.has_min
    {id | id ∈ c ∧ id ∈ w.ids} hid
  have hresult {y : SourceUnit} {e : Definition} {g : Signature} (hg : CalledIn units y e g)
      (hreturn : g.hasReturn = true) (hv : within g.id "return" ∈ c)
      (hmem : within g.id "return" ∈ w.ids) : False := by
    obtain rfl := hc.eq_of_return hg hreturn hv h hmem
    exact hnone ⟨hreturn, hv⟩
  obtain ⟨t, ht, x', d', f', w', h', hstep⟩ := hc.next v hv
  cases hstep with
  | parameter _ => exact hc.function_not_mem hcalls h' hv
  | invoke _ => exact hc.function_not_mem hcalls h' hv
  | value horigin _ hnew hsuffix =>
    cases horigin with
    | own hvalue =>
      have hgrown := hvalue.mono ((List.suffix_cons t _).trans hsuffix)
      obtain ⟨rfl, rfl⟩ := hc.owner hv h h' hmem hgrown.mem
      have hmem' : t ∈ w'.ids := hsuffix.subset List.mem_cons_self
      have hlater := idxOf_lt_of_suffix hvalue.mem hnew hsuffix
      have hbound := idxOf_reverse_lt hmem'
      refine hlast t ⟨ht, hmem'⟩ ?_
      show w'.ids.length - w'.ids.reverse.idxOf t < w'.ids.length - w'.ids.reverse.idxOf v
      omega
    | result hg hreturn => exact hresult hg hreturn hv hmem
  | giveBack horigin hreturn =>
    cases horigin with
    | own hvalue =>
      obtain ⟨rfl, rfl⟩ := hc.owner hv h h' hmem hvalue.mem
      exact hnone ⟨hreturn, ht⟩
    | result hg hreturn' => exact hresult hg hreturn' hv hmem
  | argument horigin hg hp =>
    cases horigin with
    | own hvalue =>
      obtain ⟨rfl, rfl⟩ := hc.owner hv h h' hmem hvalue.mem
      exact hdeepest _ (h'.calls hg) (hg.hasElement_parameter hp ht)
    | result hg' hreturn => exact hresult hg' hreturn hv hmem

end Deepest

/-! ## 4. Programs -/

/-- The return of a function leads to one of its parameters, and that leads to the return. -/
structure FedBack (p : ProgramStructure α) (units : List SourceUnit) (f : Signature) (x : String) :
    Prop where
  indexed : (FunctionIndex.ofUnits units).get? f.id = some f
  returns : f.hasReturn = true
  parameter : some x ∈ f.params
  back : p.Leads (within f.id "return") (within f.id x)
  through : p.Leads (within f.id x) (within f.id "return")

theorem flows_of_gives {u v : String} (h : (merged (walks (α := α) units)).Gives u v) :
    Flows α units u v := by
  obtain ⟨e, he, hpair⟩ := h
  obtain ⟨rfl, rfl⟩ := Prod.mk.inj hpair
  exact exists_walked_of_given he

/-- **What leads to each other is a circuit**, if no id is shared. -/
theorem circuit_of_leads [Scalar α] (hne : c ≠ [])
    (hmem : ∀ u ∈ c, ∀ v, v ∈ c ↔ (merged (walks (α := α) units)).Leads u v ∧
      (merged (walks (α := α) units)).Leads v u)
    (hapart : ∀ id ∈ c, ¬ Shared α units id) : Circuit α units c where
  nonempty := hne
  known id hid := by
    obtain ⟨v, ⟨e, he, hpair⟩, -⟩ := Relation.TransGen.head'_iff.mp ((hmem id hid id).mp hid).1
    obtain ⟨rfl, -⟩ := Prod.mk.inj hpair
    exact mem_ids_merged.mp (wellGiven_merged.known_of_given he).1
  next u hu := by
    have hloop := ((hmem u hu u).mp hu).1
    obtain ⟨v, huv, hvu⟩ := Relation.TransGen.head'_iff.mp hloop
    exact ⟨v, (hmem u hu v).mpr ⟨.single huv, hloop.trans_right hvu⟩, flows_of_gives huv⟩
  previous v hv := by
    have hloop := ((hmem v hv v).mp hv).1
    obtain ⟨u, hvu, huv⟩ := Relation.TransGen.tail'_iff.mp hloop
    exact ⟨u, (hmem v hv u).mpr ⟨hloop.trans_left hvu, .single huv⟩, flows_of_gives huv⟩
  apart := hapart

/-- **A circuit of a program without recursion has the return and a parameter of one function.** -/
theorem Circuit.return_and_parameter_mem (hc : Circuit α units c)
    (hcalls : ∀ a, ¬ Relation.TransGen (Calls units) a a) :
    ∃ f x, (FunctionIndex.ofUnits units).get? f.id = some f ∧ f.hasReturn = true ∧
      some x ∈ f.params ∧ within f.id "return" ∈ c ∧ within f.id x ∈ c := by
  obtain ⟨u, d, f, w, h, hid, hdeepest⟩ := hc.exists_deepest hcalls
  obtain ⟨x, hx, hparameter⟩ := hc.parameter_mem hcalls h hid hdeepest
  obtain ⟨hreturn, hlast⟩ := hc.return_mem hcalls h hid hdeepest
  exact ⟨f, x, h.id_eq ▸ h.found, hreturn, hx, hlast, hparameter⟩

/-- No id is shared if no two walks have found one in common. -/
theorem not_shared_of_pairwise
    (h : (walks (α := α) units).Pairwise fun w w' => ∀ id ∈ w.ids, id ∉ w'.ids) (id : String) :
    ¬ Shared α units id := by
  rintro ⟨w, hw, w', hw', hne, hid, hid'⟩
  have hsymm : Std.Symm fun w w' : Walk α => ∀ id ∈ w.ids, id ∉ w'.ids :=
    ⟨fun _ _ hdisjoint a ha ha' => hdisjoint a ha' ha⟩
  exact h.forall hw hw' hne id hid hid'

/-! ## 5. A program without recursion -/

/-- A call stands in the argument of another call of the same function. -/
def nested : SourceFile where
  package := "m"
  path := "src/m.rs"
  content := "fn next(n: u64) -> u64 { n + 1 } fn twice() { next(next(1)); }"

def nestedUnit : SourceUnit where
  path := "src/m.rs"
  definitions := [
    ⟨"m", false, ⟨"next", 1, [some "n"], true, [.run (.operation (.name "n") (.parts [])) false]⟩⟩,
    ⟨"m", false, ⟨"twice", 1, [], false,
      [.run (.call [] (.name "next") [.call [] (.name "next") [.parts []] 1] 1) true]⟩⟩]

/-- The function that is called twice. -/
def nestedCallee : Signature := ⟨"m::next", "next", [some "n"], true, false, ⟨"src/m.rs", 1⟩⟩

/-- The names and lines in what has been read, if it has the shape of `nested`. Equality of syntax
trees is not decidable, but that of names and lines is. -/
def leaves? : Except Unreadable (List SourceUnit) → Option (List String × List Nat)
  | .ok [⟨path, [
      ⟨outer, false, ⟨callee, line, [some x], true,
        [.run (.operation (.name y) (.parts [])) false]⟩⟩,
      ⟨outer', false, ⟨caller, line', [], false,
        [.run (.call [] (.name f) [.call [] (.name g) [.parts []] inner] whole) true]⟩⟩]⟩] =>
    some ([path, outer, callee, x, y, outer', caller, f, g], [line, line', inner, whole])
  | _ => none

theorem readFiles_nested : readFiles true [nested] = .ok [nestedUnit] := by
  have hleaves : leaves? (readFiles true [nested]) =
      some (["src/m.rs", "m", "next", "n", "n", "m", "twice", "next", "next"], [1, 1, 1, 1]) := by
    decide +kernel
  unfold leaves? at hleaves
  split at hleaves
  · rename_i hread
    simp only [Option.some.injEq, Prod.mk.injEq, List.cons.injEq, and_true] at hleaves
    obtain ⟨⟨rfl, rfl, rfl, rfl, rfl, rfl, rfl, rfl, rfl⟩, rfl, rfl, rfl, rfl⟩ := hleaves
    exact hread
  · cases hleaves

/-- No function of it calls itself, directly or through others. -/
theorem not_recursive_nested (f : String) : ¬ Relation.TransGen (Calls [nestedUnit]) f f := by
  have hedges : callEdges [nestedUnit] = [("m::twice", "m::next"), ("m::twice", "m::next")] := by
    cbv
  have hcalls {a b : String} (h : Calls [nestedUnit] a b) : a = "m::twice" ∧ b = "m::next" := by
    unfold Calls at h
    rw [hedges] at h
    simpa using h
  intro hloop
  obtain ⟨_, hfirst, -⟩ := Relation.TransGen.head'_iff.mp hloop
  obtain ⟨_, -, hlast⟩ := Relation.TransGen.tail'_iff.mp hloop
  have hne : "m::twice" ≠ "m::next" := by decide
  exact hne ((hcalls hfirst).1.symm.trans (hcalls hlast).2)

theorem fedBack_nested :
    FedBack (merged (walks (α := Float) [nestedUnit])) [nestedUnit] nestedCallee "n" where
  indexed := by decide +kernel
  returns := rfl
  parameter := by decide
  back := by
    have hgives : (merged (walks (α := Float) [nestedUnit])).Gives
        (within nestedCallee.id "return") (within nestedCallee.id "n") := by decide +kernel
    exact .single hgives
  through := by
    have hgives : (merged (walks (α := Float) [nestedUnit])).Gives
        (within nestedCallee.id "n") (within nestedCallee.id "return") := by decide +kernel
    exact .single hgives

theorem not_shared_nested (id : String) : ¬ Shared Float [nestedUnit] id :=
  not_shared_of_pairwise (by decide +kernel) id

/-- **Without recursion there can be a cycle**: what a call gives goes into another call of the same
function. -/
theorem cycle_without_recursion : readFiles true [nested] = .ok [nestedUnit] ∧
    (∀ f, ¬ Relation.TransGen (Calls [nestedUnit]) f f) ∧
    ∃ p : ProgramStructure Float, extract true [nested] = .ok p ∧ ∀ isPure, ∃ cycles,
      build isPure p.elements p.relations p.controls = .error (.cycleDetected cycles) :=
  ⟨readFiles_nested, not_recursive_nested, _, extract_of_readFiles readFiles_nested, fun _ =>
    (ProgramStructure.cycleDetected_iff wellGiven_merged).mpr
      ⟨_, fedBack_nested.back.trans fedBack_nested.through⟩⟩

/-! ## 6. Programs without recursion -/

/-- **Without recursion, every causal cycle of a program feeds the result of a function back into
one of its parameters**, unless two functions share an id in it; and where a result is fed back
there is a cycle. -/
theorem cycles_feed_results_back [Scalar α] [Scalar.Ordered α] {strict : Bool}
    {files : List SourceFile} (hread : readFiles strict files = .ok units)
    (hcalls : ∀ f, ¬ Relation.TransGen (Calls units) f f) :
    ∃ p : ProgramStructure α, extract strict files = .ok p ∧ ∀ isPure,
      (∀ cycles, build isPure p.elements p.relations p.controls = .error (.cycleDetected cycles) →
        ∀ c ∈ cycles,
          (∃ f x, FedBack p units f x ∧ within f.id "return" ∈ c ∧ within f.id x ∈ c) ∨
            ∃ id ∈ c, Shared α units id) ∧
      ((∃ f x, FedBack p units f x) → ∃ cycles,
        build isPure p.elements p.relations p.controls = .error (.cycleDetected cycles)) := by
  refine ⟨merged (walks units), extract_of_readFiles hread, fun isPure => ⟨?_, ?_⟩⟩
  · intro cycles hbuild c hc
    obtain ⟨hne, hmem⟩ := ProgramStructure.mem_cycle_iff wellGiven_merged hbuild hc
    by_cases hshared : ∃ id ∈ c, Shared α units id
    · exact .inr hshared
    · have hapart : ∀ id ∈ c, ¬ Shared α units id := fun id hid h => hshared ⟨id, hid, h⟩
      obtain ⟨f, x, hindexed, hreturns, hx, hlast, hparameter⟩ :=
        (circuit_of_leads hne hmem hapart).return_and_parameter_mem hcalls
      obtain ⟨hback, hthrough⟩ := (hmem _ hlast _).mp hparameter
      exact .inl ⟨f, x, ⟨hindexed, hreturns, hx, hback, hthrough⟩, hlast, hparameter⟩
  · rintro ⟨f, x, h⟩
    exact (ProgramStructure.cycleDetected_iff wellGiven_merged).mpr ⟨_, h.back.trans h.through⟩

theorem cycles_feed_results_back_nested :
    ∃ p : ProgramStructure Float, extract true [nested] = .ok p ∧ ∀ isPure, ∃ cycles,
      build isPure p.elements p.relations p.controls = .error (.cycleDetected cycles) ∧
        ∀ c ∈ cycles, ∃ f x, FedBack p [nestedUnit] f x ∧ within f.id "return" ∈ c ∧
          within f.id x ∈ c := by
  obtain ⟨p, hp, hcycles⟩ :=
    cycles_feed_results_back (α := Float) readFiles_nested not_recursive_nested
  have heq : merged (walks [nestedUnit]) = p :=
    Except.ok.inj ((extract_of_readFiles readFiles_nested).symm.trans hp)
  refine ⟨p, hp, fun isPure => ?_⟩
  obtain ⟨hreported, hfound⟩ := hcycles isPure
  obtain ⟨cycles, hbuild⟩ := hfound ⟨nestedCallee, "n", heq ▸ fedBack_nested⟩
  refine ⟨cycles, hbuild, fun c hc => (hreported cycles hbuild c hc).resolve_right ?_⟩
  rintro ⟨id, -, hshared⟩
  exact not_shared_nested id hshared

end Source

end CodeCausality
