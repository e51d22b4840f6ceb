import CodeCausality.Proofs.Source.CallGraph

/-!
# Where values go in a walk

* `fresh_not_mem` -- a new element has an id that the walk has not used;
* `Origin`, `Step` -- where a value may come from, and between which ids a walk notes a relation:
  from a function to its parameters and to what it calls; from an origin to an element that is
  created later, to the return of the function, or to a parameter of a function that it calls;
* `Sound` -- all that a walk has noted are such steps;
* `Sound.define`, `Sound.effect`, `Sound.returns`, `Sound.calls` -- what a single construct notes
  keeps this;
* `advance_expr`, `advance_stmts` -- and so **does the walk through any text**;
* `sound_ofFunction` -- **the walk through a function is sound.**
-/

namespace CodeCausality

namespace Source

namespace Walk

/-! ## 1. New ids -/

theorem toDigits_inj {m n : Nat} (h : Nat.toDigits 10 m = Nat.toDigits 10 n) : m = n := by
  rw [← Nat.ofDigitChars_ten_toDigits (n := m), h, Nat.ofDigitChars_ten_toDigits]

theorem numbered_inj {base : String} {m n : Nat}
    (h : base ++ "#" ++ toString m = base ++ "#" ++ toString n) : m = n := by
  have hlist := congrArg String.toList h
  exact toDigits_inj (by simpa using hlist)

/-- If the id that is found is used, so are all that were tried. -/
theorem mem_used_of_freshFrom {used : List String} {base : String} {tries n : Nat}
    (h : freshFrom used base tries n ∈ used) :
    ∀ i ≤ tries, base ++ "#" ++ toString (n + i) ∈ used := by
  induction tries generalizing n with
  | zero =>
    intro i hi
    obtain rfl := Nat.le_zero.mp hi
    exact h
  | succ tries ih =>
    rw [freshFrom] at h
    split at h
    · rename_i hfirst
      intro i hi
      cases i with
      | zero => exact List.contains_iff_mem.mp hfirst
      | succ i =>
        have hlater := ih h i (by omega)
        rwa [show n + 1 + i = n + (i + 1) by omega] at hlater
    · rename_i hfirst
      exact absurd (List.contains_iff_mem.mpr h) hfirst

/-- **A new id is not used**: there are more to try than there are used ones. -/
theorem fresh_not_mem (used : List String) (base : String) : fresh used base ∉ used := by
  unfold fresh
  split
  · intro hmem
    have hall := mem_used_of_freshFrom hmem
    let tried := (List.range (used.length + 1)).map fun i => base ++ "#" ++ toString (2 + i)
    have hnodup : tried.Nodup := by
      refine List.Nodup.map_on (fun i _ j _ h => ?_) List.nodup_range
      have := numbered_inj h
      omega
    have hsub : tried ⊆ used := by
      intro x hx
      obtain ⟨i, hi, rfl⟩ := List.mem_map.mp hx
      exact hall i (Nat.lt_succ_iff.mp (List.mem_range.mp hi))
    have hlength := (List.subperm_of_subset hnodup hsub).length_le
    simp [tried] at hlength
  · rename_i hunused
    exact fun hmem => hunused (List.contains_iff_mem.mpr hmem)

/-! ## 2. Steps -/

section Sound

variable {α : Type} (s : Setting) (params : List (Option String)) (called : Signature → Prop)

/-- An element of the walk that holds a value: not the return of the function, unless a parameter
has that name. -/
structure Own (ids : List String) (id : String) : Prop where
  mem : id ∈ ids
  ordinary : id = within s.function "return" → s.hasReturn = true → some "return" ∈ params

/-- Where a value may come from: an element of the walk, or the return of a function that is
called. -/
inductive Origin (ids : List String) : String → Prop
  | own {id : String} (h : Own s params ids id) : Origin ids id
  | result {g : Signature} (hg : called g) (hreturn : g.hasReturn = true) :
      Origin ids (within g.id "return")

/-- Between which ids a walk that has found the elements `ids` notes a relation or a dependency. The
latest element stands first. -/
inductive Step (ids : List String) : String → String → Prop
  | parameter {x : String} (hx : some x ∈ params) : Step ids s.function (within s.function x)
  | invoke {g : Signature} (hg : called g) : Step ids s.function g.id
  | value {earlier : List String} {u v : String} (hu : Origin s params called earlier u)
      (hhome : s.function ∈ earlier) (hnew : v ∉ earlier) (hv : (v :: earlier) <:+ ids) :
      Step ids u v
  | giveBack {u : String} (hu : Origin s params called ids u) (hreturn : s.hasReturn = true) :
      Step ids u (within s.function "return")
  | argument {g : Signature} {x u : String} (hu : Origin s params called ids u) (hg : called g)
      (hx : some x ∈ g.params) : Step ids u (within g.id x)

/-- What holds all through the walk: it starts with the function, its parameters and its return, its
names stand for values of its own, and all that it has noted are steps. -/
structure Sound (w : Walk α) : Prop where
  home : [s.function] <:+ w.ids
  parameters : ∀ x, some x ∈ params → within s.function x ∈ w.ids
  last : s.hasReturn = true → within s.function "return" ∈ w.ids
  locals : ∀ x id, w.locals.get? x = some id → Own s params w.ids id
  relations : ∀ r ∈ w.relations, Step s params called w.ids r.source r.target
  controls : ∀ c ∈ w.controls, Step s params called w.ids c.condition c.dependent
  unweighted : ∀ r ∈ w.relations, r.weight = none

/-- A walk goes on soundly: it is sound, and its new elements come after the old ones. -/
structure Advance (w w' : Walk α) : Prop where
  sound : Sound s params called w'
  grown : w.ids <:+ w'.ids

variable {s params called} {w w' w'' : Walk α} {ids ids' : List String} {u v : String}

theorem Own.mono (h : Own s params ids u) (hids : ids <:+ ids') : Own s params ids' u :=
  ⟨hids.subset h.mem, h.ordinary⟩

theorem Origin.mono (h : Origin s params called ids u) (hids : ids <:+ ids') :
    Origin s params called ids' u := by
  cases h with
  | own h => exact .own (h.mono hids)
  | result hg hreturn => exact .result hg hreturn

theorem Step.mono (h : Step s params called ids u v) (hids : ids <:+ ids') :
    Step s params called ids' u v := by
  cases h with
  | parameter hx => exact .parameter hx
  | invoke hg => exact .invoke hg
  | value hu hhome hnew hv => exact .value hu hhome hnew (hv.trans hids)
  | giveBack hu hreturn => exact .giveBack (hu.mono hids) hreturn
  | argument hu hg hx => exact .argument (hu.mono hids) hg hx

theorem Sound.advance (h : Sound s params called w) : Advance s params called w w :=
  ⟨h, List.suffix_refl _⟩

theorem Advance.trans (h : Advance s params called w w') (h' : Advance s params called w' w'') :
    Advance s params called w w'' := ⟨h'.sound, h.grown.trans h'.grown⟩

theorem Advance.own (h : Advance s params called w w') {us : List String}
    (hus : ∀ a ∈ us, Own s params w.ids a) : ∀ a ∈ us, Own s params w'.ids a :=
  fun a ha => (hus a ha).mono h.grown

theorem Advance.origin (h : Advance s params called w w') {us : List String}
    (hus : ∀ a ∈ us, Origin s params called w.ids a) :
    ∀ a ∈ us, Origin s params called w'.ids a :=
  fun a ha => (hus a ha).mono h.grown

theorem Sound.home_mem (h : Sound s params called w) : s.function ∈ w.ids :=
  h.home.subset List.mem_cons_self

/-! ## 3. What a single construct notes -/

theorem ids_flow (sources : List String) (target : String) (w : Walk α) :
    (w.flow sources target).ids = w.ids := by
  unfold flow
  induction sources generalizing w with
  | nil => rfl
  | cons a sources ih => exact ih _

theorem ids_guarded (guards : List String) (target : String) (w : Walk α) :
    (w.guarded guards target).ids = w.ids := rfl

theorem Sound.relate (h : Sound s params called w) (hstep : Step s params called w.ids u v)
    (kind : EdgeKind) : Sound s params called (w.relate u v kind) where
  home := h.home
  parameters := h.parameters
  last := h.last
  locals := h.locals
  relations r hr := by
    rcases List.mem_cons.mp hr with rfl | hr
    · exact hstep
    · exact h.relations r hr
  controls := h.controls
  unweighted r hr := by
    rcases List.mem_cons.mp hr with rfl | hr
    · rfl
    · exact h.unweighted r hr

theorem Sound.flow (h : Sound s params called w) {sources : List String} {target : String}
    (hstep : ∀ a ∈ sources, Step s params called w.ids a target) :
    Sound s params called (w.flow sources target) := by
  unfold Walk.flow
  induction sources generalizing w with
  | nil => exact h
  | cons a sources ih =>
    exact ih (h.relate (hstep a List.mem_cons_self) .dataFlow) fun b hb =>
      hstep b (List.mem_cons_of_mem a hb)

theorem mem_controls_guarded {guards : List String} {target : String} {c : ControlDependency}
    (hc : c ∈ (w.guarded guards target).controls) :
    (∃ a ∈ guards, c = ⟨a, target⟩) ∨ c ∈ w.controls := by
  rcases List.mem_append.mp hc with hnew | hold
  · obtain ⟨a, ha, rfl⟩ := List.mem_map.mp (List.mem_reverse.mp hnew)
    exact .inl ⟨a, mem_sortedIds.mp (List.mem_filter.mp ha).1, rfl⟩
  · exact .inr hold

theorem Sound.guarded (h : Sound s params called w) {guards : List String} {target : String}
    (hstep : ∀ a ∈ guards, Step s params called w.ids a target) :
    Sound s params called (w.guarded guards target) where
  home := h.home
  parameters := h.parameters
  last := h.last
  locals := h.locals
  relations := h.relations
  controls c hc := by
    rcases mem_controls_guarded hc with ⟨a, ha, rfl⟩ | hold
    · exact hstep a ha
    · exact h.controls c hold
  unweighted := h.unweighted

/-- A new element comes after all others. -/
theorem Sound.element (h : Sound s params called w) (id : String) (kind : ElementKind)
    (line : Nat) : Advance s params called w (w.element s id kind line) := by
  have hids : w.ids <:+ (w.element s id kind line).ids := List.suffix_cons id w.ids
  refine ⟨?_, hids⟩
  exact {
    home := h.home.trans hids
    parameters := fun x hx => hids.subset (h.parameters x hx)
    last := fun hreturn => hids.subset (h.last hreturn)
    locals := fun x y hy => (h.locals x y hy).mono hids
    relations := fun r hr => (h.relations r hr).mono hids
    controls := fun c hc => (h.controls c hc).mono hids
    unweighted := h.unweighted }

/-- A name comes to stand for a value of the walk. -/
theorem Sound.rename (h : Sound s params called w) (name : String) (hu : Own s params w.ids u) :
    Sound s params called { w with locals := w.locals.insert name u } where
  home := h.home
  parameters := h.parameters
  last := h.last
  locals x y hy := by
    rcases Dictionary.eq_or_of_get?_insert hy with rfl | hold
    · exact hu
    · exact h.locals x y hold
  relations := h.relations
  controls := h.controls
  unweighted := h.unweighted

theorem Sound.versioned (h : Sound s params called w) (versions : Dictionary Nat) :
    Sound s params called { w with versions := versions } := { h with }

section Constructs

variable {guards sources : List String} (h : Sound s params called w)
  (hguards : ∀ a ∈ guards, Own s params w.ids a)
  (hsources : ∀ a ∈ sources, Origin s params called w.ids a)

include h hguards hsources

/-- A new element with what its value comes from and what it depends on. -/
theorem Sound.created (kind : ElementKind) (line : Nat) (hnew : u ∉ w.ids) :
    Advance s params called w (((w.element s u kind line).flow sources u).guarded guards u) := by
  have helement := h.element u kind line
  have hflow : Sound s params called ((w.element s u kind line).flow sources u) :=
    helement.sound.flow fun a ha => .value (hsources a ha) h.home_mem hnew (List.suffix_refl _)
  refine ⟨hflow.guarded fun a ha => ?_, ?_⟩
  · rw [ids_flow]
    exact .value (.own (hguards a ha)) h.home_mem hnew (List.suffix_refl _)
  · rw [ids_guarded, ids_flow]
    exact helement.grown

/-- **A name is given a new value.** -/
theorem Sound.define (line : Nat) (name : String) :
    Advance s params called w (w.define s guards sources line name) := by
  unfold Walk.define
  dsimp only
  have hnew := fresh_not_mem w.ids
    (if (w.versions.get? name).getD 0 + 1 = 1 then within s.function name
      else within s.function name ++ "@" ++ toString ((w.versions.get? name).getD 0 + 1))
  generalize fresh w.ids _ = id at hnew ⊢
  have hcounted := h.versioned (w.versions.insert name ((w.versions.get? name).getD 0 + 1))
  have hcreated := hcounted.created hguards hsources .namedValue line hnew
  refine ⟨hcreated.sound.rename name ⟨?_, fun heq hreturn => ?_⟩, hcreated.grown⟩
  · rw [ids_guarded, ids_flow]
    exact List.mem_cons_self
  · -- the return of the function was there before, so the new element is another one
    exact absurd (heq ▸ h.last hreturn) hnew

theorem Sound.effect (line : Nat) (name : String) :
    Advance s params called w (w.effect s guards sources line name) :=
  h.created hguards hsources .effect line (fresh_not_mem _ _)

theorem Sound.returns : Advance s params called w (w.returns s guards sources) := by
  unfold Walk.returns
  split
  · rename_i hreturn
    have hflow : Sound s params called (w.flow sources (within s.function "return")) :=
      h.flow fun a ha => .giveBack (hsources a ha) hreturn
    refine ⟨hflow.guarded fun a ha => ?_, ?_⟩
    · rw [ids_flow]
      exact .giveBack (.own (hguards a ha)) hreturn
    · simp only [ids_guarded, ids_flow, List.suffix_refl]
  · exact h.advance

theorem Sound.defineAll (line : Nat) (names : List String) :
    Advance s params called w (w.defineAll s guards sources line names) := by
  unfold Walk.defineAll
  induction names generalizing w with
  | nil => exact h.advance
  | cons x names ih =>
    have hdefine := h.define hguards hsources line x
    exact hdefine.trans (ih hdefine.sound (hdefine.own hguards) (hdefine.origin hsources))

end Constructs

/-! ## 4. What is read -/

/-- What a call gives is the return of a function that is called. -/
theorem origin_of_returns {locals : Dictionary String} {r : Read}
    (hr : Permits s.index s.module called r) (hu : u ∈ (sourcesOfRead s locals r).returns) :
    Origin s params called ids u := by
  have hresult {f : Option Signature} (hf : ∀ g, f = some g → called g)
      (hu : u ∈ sourcesOfRead.returnOf f) : Origin s params called ids u := by
    unfold sourcesOfRead.returnOf at hu
    split at hu
    · rename_i g
      split at hu
      · rename_i hreturn
        obtain rfl := List.mem_singleton.mp hu
        exact .result (hf g rfl) hreturn
      · exact absurd hu List.not_mem_nil
    · exact absurd hu List.not_mem_nil
  cases r with
  | name x => exact absurd hu List.not_mem_nil
  | captured content => exact absurd hu List.not_mem_nil
  | call segments => exact hresult hr hu
  | method name => exact hresult hr hu

section Read

variable {guards : List String} (h : Sound s params called w)

include h

/-- What a name stands for is a value of the walk. -/
theorem Sound.own_of_locals {r : Read} (hu : u ∈ (sourcesOfRead s w.locals r).locals) :
    Own s params w.ids u := by
  cases r with
  | name x => exact h.locals x u (Option.mem_toList.mp hu)
  | captured content =>
    obtain ⟨x, -, hx⟩ := List.mem_filterMap.mp hu
    exact h.locals x u hx
  | call segments => exact absurd hu List.not_mem_nil
  | method name => exact absurd hu List.not_mem_nil

/-- **What is read is an origin**: names stand for values of the walk, calls for returns. -/
theorem Sound.origin {reads : List Read} (hreads : ∀ r ∈ reads, Permits s.index s.module called r) :
    (∀ a ∈ (sourcesOf s w.locals reads).locals, Own s params w.ids a) ∧
      ∀ a ∈ (sourcesOf s w.locals reads).all, Origin s params called w.ids a := by
  have hlocals : ∀ a ∈ (sourcesOf s w.locals reads).locals, Own s params w.ids a := by
    intro a ha
    obtain ⟨found, hfound, ha⟩ := List.mem_flatMap.mp (mem_sortedIds.mp ha)
    obtain ⟨r, -, rfl⟩ := List.mem_map.mp hfound
    exact h.own_of_locals ha
  refine ⟨hlocals, fun a ha => ?_⟩
  rcases List.mem_append.mp ha with ha | ha
  · exact .own (hlocals a ha)
  · obtain ⟨found, hfound, ha⟩ := List.mem_flatMap.mp (mem_sortedIds.mp ha)
    obtain ⟨r, hr, rfl⟩ := List.mem_map.mp hfound
    exact origin_of_returns (hreads r hr) ha

/-- What decides whether a branch is taken are values of the walk. -/
theorem Sound.inner (hguards : ∀ a ∈ guards, Own s params w.ids a) {e : Expr}
    (he : ∀ c ∈ e.calls, Permits s.index s.module called c) :
    ∀ a ∈ guards ++ (w.sources s e).locals, Own s params w.ids a :=
  List.forall_mem_append.mpr ⟨hguards, (h.origin (permits_reads e he)).1⟩

/-! ## 5. Calls -/

/-- Arguments reach the parameters that they stand at. -/
theorem Sound.arguments {g : Signature} (hg : called g) {pairs : List (Option String × Expr)}
    (hpairs : ∀ q ∈ pairs, q.1 ∈ g.params ∧
      ∀ c ∈ q.2.calls, Permits s.index s.module called c) :
    Advance s params called w (pairs.foldl (fun w (param, arg) =>
      match param with
      | some x => w.flow (w.sources s arg).all (within g.id x)
      | none => w) w) := by
  induction pairs generalizing w with
  | nil => exact h.advance
  | cons q pairs ih =>
    obtain ⟨⟨hparam, hcalls⟩, hrest⟩ := List.forall_mem_cons.mp hpairs
    obtain ⟨param, arg⟩ := q
    rw [List.foldl_cons]
    cases param with
    | none => exact ih h hrest
    | some x =>
      have harg := (h.origin (permits_reads arg hcalls)).2
      have hflow : Advance s params called w (w.flow (w.sources s arg).all (within g.id x)) :=
        ⟨h.flow fun a ha => .argument (harg a ha) hg hparam, by
          simp only [ids_flow, List.suffix_refl]⟩
      exact hflow.trans (ih hflow.sound hrest)

/-- **A call is noted, and its arguments reach the parameters.** -/
theorem Sound.calls {g : Signature} (hg : called g) {args : List Expr}
    (hargs : ∀ c ∈ callsOfAll args, Permits s.index s.module called c) :
    Advance s params called w (w.calls s g args) := by
  have hrelate : Advance s params called w (w.relate s.function g.id .call) :=
    ⟨h.relate (.invoke hg) .call, List.suffix_refl _⟩
  refine hrelate.trans (hrelate.sound.arguments hg fun q hq => ?_)
  obtain ⟨hparam, harg⟩ := List.of_mem_zip hq
  exact ⟨hparam, fun c hc => hargs c (mem_callsOfAll harg hc)⟩

section Effects

variable (hguards : ∀ a ∈ guards, Own s params w.ids a) {args : List Expr}
  (hargs : ∀ c ∈ callsOfAll args, Permits s.index s.module called c)

include hguards hargs

theorem Sound.callOf {callee : Expr}
    (hcallee : Permits s.index s.module called (.call callee.segments)) (line : Nat) :
    Advance s params called w (w.callOf s guards callee args line) := by
  unfold Walk.callOf
  split
  · rename_i g hg
    exact h.calls (hcallee g hg) hargs
  · split
    · exact h.effect hguards (h.origin (permits_readsAll args hargs)).2 line _
    · exact h.advance

theorem Sound.methodOf {receiver : Expr} {name : String}
    (hmethod : Permits s.index s.module called (.method name))
    (hreceiver : ∀ c ∈ receiver.calls, Permits s.index s.module called c) (line : Nat) :
    Advance s params called w (w.methodOf s guards receiver name args line) := by
  unfold Walk.methodOf
  split
  · rename_i g hg
    exact h.calls (hmethod g hg) hargs
  · split
    · refine h.effect hguards (h.origin (List.forall_mem_append.mpr ?_)).2 line _
      exact ⟨permits_reads receiver hreceiver, permits_readsAll args hargs⟩
    · exact h.advance

theorem Sound.invocationOf (name : String) (line : Nat) :
    Advance s params called w (w.invocationOf s guards name args line) := by
  unfold Walk.invocationOf
  split
  · exact h.effect hguards (h.origin (permits_readsOfArguments args hargs)).2 line _
  · exact h.advance

end Effects

end Read

/-! ## 6. The walk -/

mutual

/-- **The walk through an expression goes on soundly**, whatever decides whether it is reached. -/
theorem advance_expr : ∀ (e : Expr) {guards : List String} {w : Walk α}, Sound s params called w →
    (∀ a ∈ guards, Own s params w.ids a) → (∀ c ∈ e.calls, Permits s.index s.module called c) →
    Advance s params called w (expr s guards e w)
  | .name _, _, _, h, _, _ => by
    rw [expr]
    exact h.advance
  | .path _ parts, _, _, h, hguards, hcalls => by
    rw [Expr.calls] at hcalls
    rw [expr]
    exact advance_exprs parts h hguards hcalls
  | .text _, _, _, h, _, _ => by
    rw [expr]
    exact h.advance
  | .parts es, _, _, h, hguards, hcalls => by
    rw [Expr.calls] at hcalls
    rw [expr]
    exact advance_exprs es h hguards hcalls
  | .operation left right, _, _, h, hguards, hcalls => by
    rw [Expr.calls, List.forall_mem_append] at hcalls
    rw [expr]
    have hleft := advance_expr left h hguards hcalls.1
    exact hleft.trans (advance_expr right hleft.sound (hleft.own hguards) hcalls.2)
  | .assign target value line, _, _, h, hguards, hcalls => by
    rw [Expr.calls, List.forall_mem_append] at hcalls
    rw [expr]
    split
    · rename_i x _
      have hread := (h.origin (permits_reads value hcalls.2)).2
      have hvalue := advance_expr value h hguards hcalls.2
      exact hvalue.trans
        (hvalue.sound.define (hvalue.own hguards) (hvalue.origin hread) line x)
    · have htarget := advance_expr target h hguards hcalls.1
      exact htarget.trans (advance_expr value htarget.sound (htarget.own hguards) hcalls.2)
  | .update target value line, _, _, h, hguards, hcalls => by
    rw [Expr.calls, List.forall_mem_append] at hcalls
    rw [expr]
    split
    · rename_i x _
      -- the name that is updated is read too
      have hreads : ∀ r ∈ Read.name x :: value.reads, Permits s.index s.module called r :=
        List.forall_mem_cons.mpr ⟨fun _ hg => (nomatch hg), permits_reads value hcalls.2⟩
      have hread := (h.origin hreads).2
      have hvalue := advance_expr value h hguards hcalls.2
      exact hvalue.trans
        (hvalue.sound.define (hvalue.own hguards) (hvalue.origin hread) line x)
    · have htarget := advance_expr target h hguards hcalls.1
      exact htarget.trans (advance_expr value htarget.sound (htarget.own hguards) hcalls.2)
  | .call values callee args line, _, _, h, hguards, hcalls => by
    rw [Expr.calls, List.forall_mem_cons, List.forall_mem_append, List.forall_mem_append] at hcalls
    obtain ⟨hcall, ⟨hvalues, hcallee⟩, hargs⟩ := hcalls
    rw [expr]
    have hnoted := h.callOf hguards hargs hcall line
    have hmarked := hnoted.trans
      (advance_exprs values hnoted.sound (hnoted.own hguards) hvalues)
    have hwalked := hmarked.trans
      (advance_expr callee hmarked.sound (hmarked.own hguards) hcallee)
    exact hwalked.trans (advance_exprs args hwalked.sound (hwalked.own hguards) hargs)
  | .method values receiver called' typeArgs args line, _, _, h, hguards, hcalls => by
    rw [Expr.calls, List.forall_mem_cons, List.forall_mem_append, List.forall_mem_append,
      List.forall_mem_append] at hcalls
    obtain ⟨hcall, ⟨⟨hvalues, hreceiver⟩, htypes⟩, hargs⟩ := hcalls
    rw [expr]
    have hnoted := h.methodOf hguards hargs hcall hreceiver line
    have hmarked := hnoted.trans
      (advance_exprs values hnoted.sound (hnoted.own hguards) hvalues)
    have hwalked := hmarked.trans
      (advance_expr receiver hmarked.sound (hmarked.own hguards) hreceiver)
    have htyped := hwalked.trans
      (advance_exprs typeArgs hwalked.sound (hwalked.own hguards) htypes)
    exact htyped.trans (advance_exprs args htyped.sound (htyped.own hguards) hargs)
  | .invocation called' args line, _, _, h, hguards, hcalls => by
    rw [Expr.calls] at hcalls
    rw [expr]
    have hnoted := h.invocationOf hguards hcalls called' line
    exact hnoted.trans (advance_exprs args hnoted.sound (hnoted.own hguards) hcalls)
  | .branch condition body otherwise, _, _, h, hguards, hcalls => by
    rw [Expr.calls, List.forall_mem_append, List.forall_mem_append] at hcalls
    obtain ⟨⟨hcondition, hbody⟩, hotherwise⟩ := hcalls
    rw [expr]
    have hinner := h.inner hguards hcondition
    have hfirst := advance_expr condition h hguards hcondition
    have hthen := hfirst.trans (advance_stmts body hfirst.sound (hfirst.own hinner) hbody)
    exact hthen.trans (advance_optional otherwise hthen.sound (hthen.own hinner) hotherwise)
  | .whileLoop condition body, _, _, h, hguards, hcalls => by
    rw [Expr.calls, List.forall_mem_append] at hcalls
    obtain ⟨hcondition, hbody⟩ := hcalls
    rw [expr]
    have hinner := h.inner hguards hcondition
    have hfirst := advance_expr condition h hguards hcondition
    exact hfirst.trans (advance_stmts body hfirst.sound (hfirst.own hinner) hbody)
  | .select subject arms, _, _, h, hguards, hcalls => by
    rw [Expr.calls, List.forall_mem_append] at hcalls
    obtain ⟨hsubject, harms⟩ := hcalls
    rw [expr]
    have hinner := h.inner hguards hsubject
    have hfirst := advance_expr subject h hguards hsubject
    exact hfirst.trans (advance_selected arms hfirst.sound (hfirst.own hinner) harms)
  | .forLoop names _ source body line, _, _, h, hguards, hcalls => by
    rw [Expr.calls, List.forall_mem_append, List.forall_mem_append] at hcalls
    obtain ⟨⟨-, hsource⟩, hbody⟩ := hcalls
    rw [expr]
    have hinner := h.inner hguards hsource
    have hread := (h.origin (permits_reads source hsource)).2
    have hfirst := advance_expr source h hguards hsource
    have hnamed := hfirst.trans
      (hfirst.sound.defineAll (hfirst.own hinner) (hfirst.origin hread) line names)
    exact hnamed.trans (advance_stmts body hnamed.sound (hnamed.own hinner) hbody)
  | .block body, _, _, h, hguards, hcalls => by
    rw [Expr.calls] at hcalls
    rw [expr]
    exact advance_stmts body h hguards hcalls
  | .giveBack none, _, _, h, _, _ => by
    rw [expr]
    exact h.advance
  | .giveBack (some e), _, _, h, hguards, hcalls => by
    rw [Expr.calls, callsOfOptional] at hcalls
    rw [expr]
    have hread := (h.origin (permits_reads e hcalls)).2
    have hvalue := advance_expr e h hguards hcalls
    exact hvalue.trans (hvalue.sound.returns (hvalue.own hguards) (hvalue.origin hread))
  | .marked values e, _, _, h, hguards, hcalls => by
    rw [Expr.calls, List.forall_mem_append] at hcalls
    rw [expr]
    split
    · exact advance_expr e h hguards hcalls.2
    · have hmarked := advance_exprs values h hguards hcalls.1
      exact hmarked.trans (advance_expr e hmarked.sound (hmarked.own hguards) hcalls.2)

theorem advance_exprs : ∀ (es : List Expr) {guards : List String} {w : Walk α},
    Sound s params called w → (∀ a ∈ guards, Own s params w.ids a) →
    (∀ c ∈ callsOfAll es, Permits s.index s.module called c) →
    Advance s params called w (exprs s guards es w)
  | [], _, _, h, _, _ => by
    rw [exprs]
    exact h.advance
  | e :: es, _, _, h, hguards, hcalls => by
    rw [callsOfAll, List.forall_mem_append] at hcalls
    rw [exprs]
    have hfirst := advance_expr e h hguards hcalls.1
    exact hfirst.trans (advance_exprs es hfirst.sound (hfirst.own hguards) hcalls.2)

theorem advance_optional : ∀ (e : Option Expr) {guards : List String} {w : Walk α},
    Sound s params called w → (∀ a ∈ guards, Own s params w.ids a) →
    (∀ c ∈ callsOfOptional e, Permits s.index s.module called c) →
    Advance s params called w (optional s guards e w)
  | none, _, _, h, _, _ => by
    rw [optional]
    exact h.advance
  | some e, _, _, h, hguards, hcalls => by
    rw [callsOfOptional] at hcalls
    rw [optional]
    exact advance_expr e h hguards hcalls

theorem advance_selected : ∀ (arms : List Arm) {guards : List String} {w : Walk α},
    Sound s params called w → (∀ a ∈ guards, Own s params w.ids a) →
    (∀ c ∈ callsOfArms arms, Permits s.index s.module called c) →
    Advance s params called w (selected s guards arms w)
  | [], _, _, h, _, _ => by
    rw [selected]
    exact h.advance
  | ⟨_, guard, body⟩ :: arms, _, _, h, hguards, hcalls => by
    rw [callsOfArms, Arm.calls, List.forall_mem_append, List.forall_mem_append,
      List.forall_mem_append] at hcalls
    obtain ⟨⟨⟨-, hguard⟩, hbody⟩, harms⟩ := hcalls
    rw [selected]
    have hfirst := advance_optional guard h hguards hguard
    have harm := hfirst.trans (advance_expr body hfirst.sound (hfirst.own hguards) hbody)
    exact harm.trans (advance_selected arms harm.sound (harm.own hguards) harms)

theorem advance_stmt : ∀ (a : Stmt) {guards : List String} {w : Walk α},
    Sound s params called w → (∀ a ∈ guards, Own s params w.ids a) →
    (∀ c ∈ a.calls, Permits s.index s.module called c) →
    Advance s params called w (stmt s guards a w)
  | .item, _, _, h, _, _ => by
    rw [stmt]
    exact h.advance
  | .bind names _ none _ line, _, _, h, hguards, _ => by
    rw [stmt]
    exact h.defineAll hguards (fun a ha => absurd ha List.not_mem_nil) line names
  | .bind names _ (some value) otherwise line, _, _, h, hguards, hcalls => by
    rw [Stmt.calls, List.forall_mem_append, List.forall_mem_append, callsOfOptional] at hcalls
    obtain ⟨⟨-, hvalue⟩, hotherwise⟩ := hcalls
    rw [stmt]
    have hread := (h.origin (permits_reads value hvalue)).2
    have hfirst := advance_expr value h hguards hvalue
    have hwalked := hfirst.trans
      (advance_optional otherwise hfirst.sound (hfirst.own hguards) hotherwise)
    exact hwalked.trans
      (hwalked.sound.defineAll (hwalked.own hguards) (hwalked.origin hread) line names)
  | .run e _, _, _, h, hguards, hcalls => by
    rw [Stmt.calls] at hcalls
    rw [stmt]
    exact advance_expr e h hguards hcalls

theorem advance_stmts : ∀ (b : List Stmt) {guards : List String} {w : Walk α},
    Sound s params called w → (∀ a ∈ guards, Own s params w.ids a) →
    (∀ c ∈ callsOfBody b, Permits s.index s.module called c) →
    Advance s params called w (stmts s guards b w)
  | [], _, _, h, _, _ => by
    rw [stmts]
    exact h.advance
  | a :: b, _, _, h, hguards, hcalls => by
    rw [callsOfBody, List.forall_mem_append] at hcalls
    rw [stmts]
    have hfirst := advance_stmt a h hguards hcalls.1
    exact hfirst.trans (advance_stmts b hfirst.sound (hfirst.own hguards) hcalls.2)

end

/-- The walk through the body of a function goes on soundly. -/
theorem advance_body {b : List Stmt} (h : Sound s params called w)
    (hcalls : ∀ c ∈ callsOfBody b, Permits s.index s.module called c) :
    Advance s params called w (body s b w) := by
  have hnone : ∀ {w : Walk α}, ∀ a ∈ ([] : List String), Own s params w.ids a :=
    fun a ha => absurd ha List.not_mem_nil
  induction b generalizing w with
  | nil => exact h.advance
  | cons a b ih =>
    rw [callsOfBody, List.forall_mem_append] at hcalls
    rcases body_cons s a b w with ⟨e, rfl, rfl, hlast⟩ | hnext
    · rw [hlast]
      have he := hcalls.1
      rw [Stmt.calls] at he
      have hread := (h.origin (permits_reads e he)).2
      have hvalue := advance_expr e h hnone he
      exact hvalue.trans (hvalue.sound.returns hnone (hvalue.origin hread))
    · rw [hnext]
      have hfirst := advance_stmt a h hnone hcalls.1
      exact hfirst.trans (ih hfirst.sound hcalls.2)

/-! ## 7. A function -/

/-- What holds while the parameters are entered, of which the names `xs` are there. -/
structure Entered (s : Setting) (params : List (Option String)) (xs : List String) (w : Walk α) :
    Prop where
  home : [s.function] <:+ w.ids
  parameters : ∀ x ∈ xs, some x ∈ params ∧ within s.function x ∈ w.ids
  locals : ∀ x, w.locals.get? x = if x ∈ xs then some (within s.function x) else none
  versions : ∀ x, w.versions.get? x = if x ∈ xs then some 1 else none
  values : ∀ e ∈ w.elements, e.kind = .namedValue → ∃ x ∈ xs, e.id = within s.function x
  relations : ∀ r ∈ w.relations, ∃ x ∈ xs,
    r = ⟨s.function, within s.function x, .causal .dataFlow, none⟩
  controls : w.controls = []

/-- A name that stands for a parameter stands for the return only if that is a parameter. -/
theorem Entered.sound {xs : List String} (h : Entered s params xs w)
    (hall : ∀ x, some x ∈ params → x ∈ xs)
    (hlast : s.hasReturn = true → within s.function "return" ∈ w.ids) :
    Sound s params called w where
  home := h.home
  parameters x hx := (h.parameters x (hall x hx)).2
  last := hlast
  locals x id hid := by
    rw [h.locals, Option.ite_none_right_eq_some, Option.some_inj] at hid
    obtain ⟨hx, rfl⟩ := hid
    obtain ⟨hparam, hmem⟩ := h.parameters x hx
    exact ⟨hmem, fun heq _ => within_inj.mp heq ▸ hparam⟩
  relations r hr := by
    obtain ⟨x, hx, rfl⟩ := h.relations r hr
    exact .parameter (h.parameters x hx).1
  controls c hc := by
    rw [h.controls] at hc
    exact absurd hc List.not_mem_nil
  unweighted r hr := by
    obtain ⟨x, -, rfl⟩ := h.relations r hr
    rfl

theorem Entered.element {xs : List String} (h : Entered s params xs w) (id : String)
    {kind : ElementKind} (hkind : kind ≠ .namedValue) (line : Nat) :
    Entered s params xs (w.element s id kind line) where
  home := h.home.trans (List.suffix_cons id w.ids)
  parameters x hx := (h.parameters x hx).imp_right (List.mem_cons_of_mem id)
  locals := h.locals
  versions := h.versions
  values e he hvalue := by
    rcases List.mem_cons.mp he with rfl | he
    · exact absurd hvalue hkind
    · exact h.values e he hvalue
  relations := h.relations
  controls := h.controls

/-- One more parameter. -/
theorem Entered.parameter {xs : List String} (h : Entered s params xs w) {x : String}
    (hx : some x ∈ params) (line : Nat) :
    Entered s params (xs ++ [x])
      { ((w.element s (within s.function x) .namedValue line).relate s.function
          (within s.function x) .dataFlow) with
        locals := w.locals.insert x (within s.function x)
        versions := w.versions.insert x 1 } where
  home := h.home.trans (List.suffix_cons _ w.ids)
  parameters y hy := by
    rcases List.mem_append.mp hy with hy | hy
    · exact (h.parameters y hy).imp_right (List.mem_cons_of_mem _)
    · obtain rfl := List.mem_singleton.mp hy
      exact ⟨hx, List.mem_cons_self⟩
  locals y := by
    rw [Dictionary.get?_insert, h.locals]
    by_cases hyx : x = y
    · simp [hyx]
    · simp [hyx, Ne.symm hyx]
  versions y := by
    rw [Dictionary.get?_insert, h.versions]
    by_cases hyx : x = y
    · simp [hyx]
    · simp [hyx, Ne.symm hyx]
  values e he hvalue := by
    rcases List.mem_cons.mp he with rfl | he
    · exact ⟨x, List.mem_append_right xs (List.mem_singleton_self x), rfl⟩
    · obtain ⟨y, hy, hid⟩ := h.values e he hvalue
      exact ⟨y, List.mem_append_left _ hy, hid⟩
  relations r hr := by
    rcases List.mem_cons.mp hr with rfl | hr
    · exact ⟨x, List.mem_append_right xs (List.mem_singleton_self x), rfl⟩
    · obtain ⟨y, hy, heq⟩ := h.relations r hr
      exact ⟨y, List.mem_append_left _ hy, heq⟩
  controls := h.controls

variable {f : Signature}

/-- Parameters are entered one after another. -/
theorem Entered.parameters_foldl (hfunction : s.function = f.id) {rest xs : List String}
    (h : Entered s f.params xs w) (hrest : ∀ x ∈ rest, some x ∈ f.params) :
    Entered s f.params (xs ++ rest) (rest.foldl (fun w x =>
      { ((w.element s (within f.id x) .namedValue f.place.line).relate f.id
          (within f.id x) .dataFlow) with
        locals := w.locals.insert x (within f.id x)
        versions := w.versions.insert x 1 }) w) := by
  induction rest generalizing xs w with
  | nil => rwa [List.append_nil]
  | cons x rest ih =>
    have hx := h.parameter (hrest x List.mem_cons_self) f.place.line
    rw [hfunction] at hx
    have hlater := ih hx fun y hy => hrest y (List.mem_cons_of_mem x hy)
    rwa [List.append_assoc, List.singleton_append] at hlater

theorem entered_start (hfunction : s.function = f.id) :
    Entered s f.params [] ((start : Walk α).element s f.id .function f.place.line) where
  home := by
    rw [hfunction]
    exact List.suffix_refl _
  parameters x hx := absurd hx List.not_mem_nil
  locals _ := rfl
  versions _ := rfl
  values e he hvalue := by
    obtain rfl := List.mem_singleton.mp he
    cases hvalue
  relations r hr := absurd hr List.not_mem_nil
  controls := rfl

/-- The walk starts with all parameters, and with the return. -/
theorem entered_enter (hfunction : s.function = f.id) (hreturn : s.hasReturn = f.hasReturn) :
    Entered s f.params (f.params.filterMap id) (enter s f start : Walk α) ∧
      (s.hasReturn = true → within s.function "return" ∈ (enter s f start : Walk α).ids) := by
  have hall := (entered_start (α := α) hfunction).parameters_foldl hfunction
    fun x (hx : x ∈ f.params.filterMap id) => by simpa using hx
  rw [List.nil_append] at hall
  unfold enter
  dsimp only
  split
  · refine ⟨hall.element (within f.id "return") (by decide) f.place.line, fun _ => ?_⟩
    rw [hfunction]
    exact List.mem_cons_self
  · rename_i hnone
    exact ⟨hall, fun h => absurd (hreturn ▸ h) hnone⟩

theorem sound_enter (hfunction : s.function = f.id) (hreturn : s.hasReturn = f.hasReturn) :
    Sound s f.params called (enter s f start : Walk α) := by
  obtain ⟨hentered, hlast⟩ := entered_enter (α := α) hfunction hreturn
  exact hentered.sound (fun x hx => by simpa using hx) hlast

/-- **The walk through a function is sound.** -/
theorem sound_ofFunction (hfunction : s.function = f.id) (hreturn : s.hasReturn = f.hasReturn)
    {b : List Stmt} (hcalls : ∀ c ∈ callsOfBody b, Permits s.index s.module called c) :
    Sound s f.params called (ofFunction s f b : Walk α) :=
  (advance_body (sound_enter hfunction hreturn) hcalls).sound

end Sound

end Walk

end Source

end CodeCausality
