import CodeCausality.Proofs.Source.Creation
import CodeCausality.Proofs.Source.Feedback
import CodeCausality.Proofs.Source.Grammar.File

/-!
# A walk goes forward

What the walk through a function notes between its own elements goes from an element that was there
to a new one, or into the return of the function, which leads nowhere. The only ids that a walk takes
from other functions are those of their parameters and returns, and none of these is one of its own:

* `Walked.grown` -- all ids after those of the parameters are new and the function's own;
* `Walked.eq_of_within_mem` -- **so a name inside of a called function is no element of the walk**,
  unless it is the function itself;
* `Inner` -- the edges between elements of the walk, those from arguments to parameters aside;
* `Walked.forward`, `Walked.not_emits_return` -- where these go, case by case of the steps;
* `walk_goes_forward` -- the conclusion, with the order of creation as a rank.
-/

namespace CodeCausality

namespace Source

variable {α : Type} {units : List SourceUnit} {u : SourceUnit} {d : Definition} {f g : Signature}
  {w : Walk α}

/-! ## 1. The ids of a walk -/

/-- The ids with which a walk starts: the function, and its named parameters. The latest stands
first. -/
def entered (f : Signature) : List String :=
  ((f.params.filterMap id).map (within f.id)).reverse ++ [f.id]

theorem mem_entered {id : String} :
    id ∈ entered f ↔ (∃ x, some x ∈ f.params ∧ id = within f.id x) ∨ id = f.id := by
  unfold entered
  simp [eq_comm]

theorem Walk.ids_enter (s : Setting) (f : Signature) :
    (Walk.enter s f Walk.start : Walk α).ids =
      if f.hasReturn then within f.id "return" :: entered f else entered f := by
  have hparams (xs : List String) (w : Walk α) : (xs.foldl (fun w x =>
      { ((w.element s (within f.id x) .namedValue f.place.line).relate f.id
          (within f.id x) .dataFlow) with
        locals := w.locals.insert x (within f.id x)
        versions := w.versions.insert x 1 }) w).ids = (xs.map (within f.id)).reverse ++ w.ids := by
    induction xs generalizing w with
    | nil => rfl
    | cons x xs ih =>
      rw [List.foldl_cons, ih, List.map_cons, List.reverse_cons, List.append_assoc]
      rfl
  have hentered := hparams (f.params.filterMap id)
    ((Walk.start : Walk α).element s f.id .function f.place.line)
  unfold Walk.enter
  dsimp only
  split
  · exact congrArg (within f.id "return" :: ·) hentered
  · exact hentered

/-- The parameters of a function of the index are names. -/
theorem Spelled.params (hspelled : Spelled units) {id : String}
    (h : (FunctionIndex.ofUnits units).get? id = some f) {x : String} (hx : some x ∈ f.params) :
    Named x := by
  obtain ⟨u, hu, d, hd, rfl⟩ := exists_signature h
  exact (hspelled u hu d hd).params x hx

theorem CalledIn.found (hg : CalledIn units u d g) :
    (FunctionIndex.ofUnits units).get? g.id = some g := by
  obtain ⟨c, -, hc⟩ := hg
  exact FunctionIndex.get?_of_resolve hc

section Walked

variable (hspelled : Spelled units) (h : Walked units u d f w)

include hspelled h

/-- **After its parameters, a walk creates only what is unused and its own.** -/
theorem Walked.grown : Grown f.id (entered f) w.ids := by
  have hentered : Grown f.id (entered f)
      (Walk.enter (settingOf units u f) f Walk.start : Walk α).ids := by
    rw [Walk.ids_enter]
    split
    · refine Grown.refl.create (fun hmem => ?_) (owned_within (by decide))
      rcases mem_entered.mp hmem with ⟨x, hx, heq⟩ | heq
      · exact (hspelled.params h.found hx).2 (within_inj.mp heq).symm
      · exact within_ne _ _ heq
    · exact .refl
  have hbody := (hspelled u h.unit d h.definition).body
  rw [h.walk]
  exact hentered.trans (Walk.grown_body (s := settingOf units u f) hbody)

variable (hself : ¬ CalledIn units u d f)

include hself

omit hspelled in
theorem Walked.callee_ne (hg : CalledIn units u d g) : g.id ≠ f.id := by
  intro hid
  have hfound := hg.found
  rw [hid, h.id_eq, h.found] at hfound
  exact hself (Option.some.inj hfound ▸ hg)

/-- **A plain name inside of a called function is no element of the walk**, unless it is the
function itself. -/
theorem Walked.eq_of_within_mem (hg : CalledIn units u d g) {x : String} (hx : Plain x)
    (hmem : within g.id x ∈ w.ids) : within g.id x = f.id := by
  rcases (h.grown hspelled).mem_or_owned hmem with hmem | howned
  · rcases mem_entered.mp hmem with ⟨y, hy, heq⟩ | heq
    · have hplain := (hspelled.params h.found hy).1
      exact absurd ((within_eq_within_iff hx.noColon hplain.noColon).mp heq).1
        (h.callee_ne hself hg)
    · exact heq
  · exact absurd (howned.alone g.id x hx rfl) (h.callee_ne hself hg)

end Walked

/-! ## 2. Edges -/

/-- The walk has noted a relation or a dependency between the ids. -/
inductive Walk.Emits (w : Walk α) : String → String → Prop
  | relation {r : Relation α} (h : r ∈ w.relations) : w.Emits r.source r.target
  | control {c : ControlDependency} (h : c ∈ w.controls) : w.Emits c.condition c.dependent

/-- The second id was new when the first was there. The latest stands first. -/
def Precedes (ids : List String) (a b : String) : Prop :=
  ∃ earlier, (b :: earlier) <:+ ids ∧ a ∈ earlier ∧ b ∉ earlier

/-- An edge between two elements of the walk, other than one from an argument to a parameter of the
function that is called. -/
structure Inner (units : List SourceUnit) (u : SourceUnit) (d : Definition) (w : Walk α)
    (a b : String) : Prop where
  emitted : w.Emits a b
  source : a ∈ w.ids
  target : b ∈ w.ids
  noArgument : ∀ g x, CalledIn units u d g → some x ∈ g.params → b ≠ within g.id x

theorem exists_creation {ids : List String} {b : String} (hb : b ∈ ids) :
    ∃ earlier, (b :: earlier) <:+ ids ∧ b ∉ earlier := by
  induction ids with
  | nil => exact absurd hb List.not_mem_nil
  | cons c ids ih =>
    by_cases hold : b ∈ ids
    · obtain ⟨earlier, hsuffix, hnew⟩ := ih hold
      exact ⟨earlier, hsuffix.trans (List.suffix_cons c ids), hnew⟩
    · obtain rfl := (List.mem_cons.mp hb).resolve_right hold
      exact ⟨ids, List.suffix_refl _, hold⟩

/-- The first element precedes all others. -/
theorem precedes_of_home {ids : List String} {a b : String} (hhome : [a] <:+ ids) (hb : b ∈ ids)
    (hne : b ≠ a) : Precedes ids a b := by
  obtain ⟨earlier, hsuffix, hnew⟩ := exists_creation hb
  refine ⟨earlier, hsuffix, ?_, hnew⟩
  have hmem : a ∈ b :: earlier := by
    rcases List.suffix_or_suffix_of_suffix hhome hsuffix with hshort | hshort
    · exact hshort.subset List.mem_cons_self
    · have hfirst := List.mem_singleton.mp (hshort.subset List.mem_cons_self)
      exact absurd hfirst hne
  exact (List.mem_cons.mp hmem).resolve_left (Ne.symm hne)

section Walked

variable {a b : String} (hspelled : Spelled units) (h : Walked units u d f w)
  (hself : ¬ CalledIn units u d f)

include h in
theorem Walked.step_of_emits (he : w.Emits a b) :
    Walk.Step (settingOf units u f) f.params (CalledIn units u d) w.ids a b := by
  cases he with
  | relation hr => exact h.sound.relations _ hr
  | control hc => exact h.sound.controls _ hc

include hspelled h hself

/-- **An edge between elements of the walk leads to a later one, or into the return**, if it is not
from an argument to a parameter that has the id of the function itself. -/
theorem Walked.forward (he : w.Emits a b) (hsource : a ∈ w.ids) (htarget : b ∈ w.ids) :
    Precedes w.ids a b ∨ f.hasReturn = true ∧ b = within f.id "return" ∨
      b = f.id ∧ ∃ g x, CalledIn units u d g ∧ some x ∈ g.params ∧ b = within g.id x := by
  have hhome : [f.id] <:+ w.ids := h.sound.home
  cases h.step_of_emits he with
  | parameter _ => exact .inl (precedes_of_home hhome htarget (within_ne _ _))
  | invoke hg => exact .inl (precedes_of_home hhome htarget (h.callee_ne hself hg))
  | value horigin hfirst hnew hsuffix =>
    refine .inl ⟨_, hsuffix, ?_, hnew⟩
    cases horigin with
    | own hvalue => exact hvalue.mem
    | result hg _ =>
      -- the return of a called function is an element of this walk only as the function itself
      rw [h.eq_of_within_mem hspelled hself hg (by decide) hsource]
      exact hfirst
  | giveBack _ hreturn => exact .inr (.inl ⟨hreturn, rfl⟩)
  | argument _ hg hx =>
    have hplain := (hspelled.params hg.found hx).1
    exact .inr (.inr ⟨h.eq_of_within_mem hspelled hself hg hplain htarget, _, _, hg, hx, rfl⟩)

theorem Walked.inner_forward (he : Inner units u d w a b) :
    Precedes w.ids a b ∨ f.hasReturn = true ∧ b = within f.id "return" := by
  rcases h.forward hspelled hself he.emitted he.source he.target with hlater | hlast | hargument
  · exact .inl hlater
  · exact .inr hlast
  · obtain ⟨-, g, x, hg, hx, heq⟩ := hargument
    exact absurd heq (he.noArgument g x hg hx)

/-- Nothing comes from the return of the function. -/
theorem Walked.ne_return_of_origin (hreturn : f.hasReturn = true) {ids : List String}
    (ha : Walk.Origin (settingOf units u f) f.params (CalledIn units u d) ids a) :
    a ≠ within f.id "return" := by
  rintro rfl
  generalize heq : within f.id "return" = last at ha
  cases ha with
  | own hvalue => exact (hspelled.params h.found (hvalue.ordinary heq.symm hreturn)).2 rfl
  | result hg _ =>
    have hid := ((within_eq_within_iff (by decide) (by decide)).mp heq).1
    exact h.callee_ne hself hg hid.symm

/-- **The return leads nowhere.** -/
theorem Walked.not_emits_return (hreturn : f.hasReturn = true) :
    ¬ w.Emits (within f.id "return") b := by
  intro he
  have hstep := h.step_of_emits he
  generalize heq : within f.id "return" = last at hstep
  cases hstep with
  | parameter _ => exact within_ne _ _ heq
  | invoke _ => exact within_ne _ _ heq
  | value ha _ _ _ => exact h.ne_return_of_origin hspelled hself hreturn ha heq.symm
  | giveBack ha _ => exact h.ne_return_of_origin hspelled hself hreturn ha heq.symm
  | argument ha _ _ => exact h.ne_return_of_origin hspelled hself hreturn ha heq.symm

theorem Walked.rank_lt (he : Inner units u d w a b) :
    rankIn f w.ids a < rankIn f w.ids b := by
  have hsource : rankIn f w.ids a = w.ids.reverse.idxOf a := by
    unfold rankIn
    refine if_neg fun ⟨hreturn, hlast⟩ => ?_
    exact h.not_emits_return hspelled hself hreturn (hlast ▸ he.emitted)
  rw [hsource]
  rcases h.inner_forward hspelled hself he with ⟨earlier, hsuffix, ha, hb⟩ | ⟨hreturn, rfl⟩
  · exact Nat.lt_of_lt_of_le (idxOf_lt_of_suffix ha hb hsuffix) (idxOf_le_rankIn f he.target)
  · rw [show rankIn f w.ids (within f.id "return") = w.ids.length from if_pos ⟨hreturn, rfl⟩]
    exact idxOf_reverse_lt he.source

theorem Walked.acyclic (a : String) : ¬ Relation.TransGen (Inner units u d w) a a := by
  intro hloop
  have hrank {b : String} (hab : Relation.TransGen (Inner units u d w) a b) :
      rankIn f w.ids a < rankIn f w.ids b := by
    induction hab with
    | single he => exact h.rank_lt hspelled hself he
    | tail _ he ih => exact ih.trans (h.rank_lt hspelled hself he)
  exact Nat.lt_irrefl _ (hrank hloop)

/-- An argument goes to an element of the walk only where a parameter has the id of the function. -/
theorem Walked.eq_of_not_inner (he : w.Emits a b) (hsource : a ∈ w.ids) (htarget : b ∈ w.ids)
    (hnot : ¬ Inner units u d w a b) : b = f.id := by
  by_contra hne
  refine hnot ⟨he, hsource, htarget, fun g x hg hx heq => hne ?_⟩
  rw [heq] at htarget ⊢
  exact h.eq_of_within_mem hspelled hself hg (hspelled.params hg.found hx).1 htarget

end Walked

/-! ## 3. All functions -/

/-- **In the walk through a function that does not call itself, edges between its elements go
forward.** Each leads from an element to a later one, or into the return, which leads nowhere; so
they have no cycle. What is left out are arguments that go to a parameter of a called function, and
of the elements of the walk only the function itself can be such a parameter. After its parameters,
the walk gives every element a new id. -/
theorem walk_goes_forward {strict : Bool} {files : List SourceFile}
    (hread : readFiles strict files = .ok units) (h : Walked units u d f w)
    (hself : ¬ CalledIn units u d f) :
    (∀ a b, Inner units u d w a b →
        Precedes w.ids a b ∨ f.hasReturn = true ∧ b = within f.id "return") ∧
      (f.hasReturn = true → ∀ b, ¬ w.Emits (within f.id "return") b) ∧
      (∀ a, ¬ Relation.TransGen (Inner units u d w) a a) ∧
      (∀ a b, w.Emits a b → a ∈ w.ids → b ∈ w.ids → ¬ Inner units u d w a b → b = f.id) ∧
      entered f <:+ w.ids ∧
      ∀ later id earlier, w.ids = later ++ id :: earlier → entered f <:+ earlier →
        id ∉ earlier := by
  have hspelled := spelled_of_readFiles hread
  have hgrown := h.grown hspelled
  exact ⟨fun a b he => h.inner_forward hspelled hself he,
    fun hreturn b => h.not_emits_return hspelled hself hreturn,
    h.acyclic hspelled hself,
    fun a b he ha hb => h.eq_of_not_inner hspelled hself he ha hb,
    hgrown.suffix, fun later id earlier heq hold => hgrown.not_mem_earlier heq hold⟩

/-- The walk through a function without calls: its parameter comes after it, and goes into its
return. -/
theorem walk_goes_forward_nested : ∃ d ∈ nestedUnit.definitions, ∃ w : Walk Float,
    Walked [nestedUnit] nestedUnit d nestedCallee w ∧
      w.Emits "m::next::n" "m::next::return" ∧ Precedes w.ids "m::next" "m::next::n" ∧
      (∀ b, ¬ w.Emits "m::next::return" b) ∧
      ∀ a, ¬ Relation.TransGen (Inner [nestedUnit] nestedUnit d w) a a := by
  let d : Definition := ⟨"m", false,
    ⟨"next", 1, [some "n"], true, [.run (.operation (.name "n") (.parts [])) false]⟩⟩
  let w : Walk Float := Walk.ofFunction (settingOf [nestedUnit] nestedUnit nestedCallee)
    nestedCallee d.function.body
  have hwalked : Walked [nestedUnit] nestedUnit d nestedCallee w :=
    { unit := List.mem_singleton_self _
      definition := List.mem_cons_self
      found := by decide +kernel
      place := rfl
      walk := rfl }
  have hcalls (g : Signature) : ¬ CalledIn [nestedUnit] nestedUnit d g := by
    rintro ⟨c, hc, -⟩
    exact List.not_mem_nil hc
  have hids : w.ids = ["m::next::return", "m::next::n", "m::next"] := by decide +kernel
  have hrelations : w.relations.map (fun r => (r.source, r.target)) =
      [("m::next::n", "m::next::return"), ("m::next", "m::next::n")] := by decide +kernel
  have hemits {a b : String} (hab : (a, b) ∈ w.relations.map fun r => (r.source, r.target)) :
      w.Emits a b := by
    obtain ⟨r, hr, heq⟩ := List.mem_map.mp hab
    obtain ⟨rfl, rfl⟩ := Prod.mk.inj heq
    exact .relation hr
  obtain ⟨hforward, hlast, hacyclic, -⟩ :=
    walk_goes_forward readFiles_nested hwalked (hcalls nestedCallee)
  refine ⟨d, List.mem_cons_self, w, hwalked, hemits (by simp [hrelations]), ?_, hlast rfl, hacyclic⟩
  refine (hforward "m::next" "m::next::n" ⟨hemits (by simp [hrelations]), by simp [hids],
    by simp [hids], fun g _ hg => absurd hg (hcalls g)⟩).resolve_right fun hreturn => ?_
  exact absurd hreturn.2 (by decide)

end Source

end CodeCausality
