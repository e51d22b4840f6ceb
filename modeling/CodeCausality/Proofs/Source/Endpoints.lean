import CodeCausality.Proofs.Source.Feedback

/-!
# Nothing that is found is dropped

A walk names ids that other walks have to make elements of: the functions that are called, their
parameters and their returns. They are there, whatever files the functions stand in:

* `Signature.Elements`, `Indexed.elements` -- a function of the index is walked through, which makes
  elements of it, of its named parameters and of its return;
* `Walked.found_of_step` -- **both ends of all that a walk notes are elements**, its own or those of
  a function that it calls, which the index holds;
* `relations_merged`, `controls_merged` -- so putting the walks together leaves nothing out;
* `extraction_is_closed` -- the conclusion, for the files and the two passes; and **only a program
  without elements, one of which all is pruned, and one with a cycle make no graph.**
-/

namespace CodeCausality

namespace Source

variable {α : Type} {units : List SourceUnit} {u : SourceUnit} {d : Definition} {f : Signature}
  {w : Walk α}

/-! ## 1. Elements -/

/-- Some walk has found the element. -/
def Found (α : Type) (units : List SourceUnit) (id : String) : Prop :=
  ∃ w ∈ walks (α := α) units, id ∈ w.ids

/-- The elements of a function: itself, its named parameters, and its return if it has one. -/
structure Signature.Elements (f : Signature) (found : String → Prop) : Prop where
  function : found f.id
  parameter : ∀ x, some x ∈ f.params → found (within f.id x)
  result : f.hasReturn = true → found (within f.id "return")

theorem Walked.mem_walks (h : Walked units u d f w) : w ∈ walks units :=
  Source.mem_walks.mpr ⟨u, d, f, h⟩

/-- **A function of the index has its elements.** -/
theorem Indexed.elements (h : Indexed units u d f) : f.Elements (Found α units) := by
  have hw := h.walked (α := α)
  refine ⟨⟨_, hw.mem_walks, hw.sound.home_mem⟩, fun x hx => ?_, fun hreturn => ?_⟩
  · exact ⟨_, hw.mem_walks, hw.parameter_mem_ids hx⟩
  · exact ⟨_, hw.mem_walks, hw.return_mem_ids hreturn⟩

theorem CalledIn.elements {g : Signature} (hg : CalledIn units u d g) : g.Elements (Found α units) := by
  obtain ⟨u', d', h⟩ := hg.exists_indexed
  exact h.elements

/-! ## 2. Ends -/

/-- Where a value comes from is an element. -/
theorem Walked.found_of_origin (h : Walked units u d f w) {ids : List String} (hids : ids ⊆ w.ids)
    {a : String} (ha : Walk.Origin (settingOf units u f) f.params (CalledIn units u d) ids a) :
    Found α units a := by
  cases ha with
  | own ha => exact ⟨w, h.mem_walks, hids ha.mem⟩
  | result hg hreturn => exact hg.elements.result hreturn

/-- **Both ends of what a walk notes are elements.** -/
theorem Walked.found_of_step (h : Walked units u d f w) {a b : String}
    (hstep : Walk.Step (settingOf units u f) f.params (CalledIn units u d) w.ids a b) :
    Found α units a ∧ Found α units b := by
  have hown := h.toIndexed.elements (α := α)
  cases hstep with
  | parameter hx => exact ⟨hown.function, hown.parameter _ hx⟩
  | invoke hg => exact ⟨hown.function, hg.elements.function⟩
  | value ha _ _ hb =>
    have hids := hb.subset
    refine ⟨h.found_of_origin (fun x hx => hids (List.mem_cons_of_mem _ hx)) ha, ?_⟩
    exact ⟨w, h.mem_walks, hids List.mem_cons_self⟩
  | giveBack ha hreturn => exact ⟨h.found_of_origin (List.Subset.refl _) ha, hown.result hreturn⟩
  | argument ha hg hx =>
    exact ⟨h.found_of_origin (List.Subset.refl _) ha, hg.elements.parameter _ hx⟩

/-- Both ends of all relations and dependencies of the walk have the property. -/
structure Walk.EndsIn (w : Walk α) (found : String → Prop) : Prop where
  relations : ∀ r ∈ w.relations, found r.source ∧ found r.target
  controls : ∀ c ∈ w.controls, found c.condition ∧ found c.dependent

theorem endsIn_of_mem_walks (hw : w ∈ walks units) : w.EndsIn (Found α units) := by
  obtain ⟨u, d, f, h⟩ := mem_walks.mp hw
  exact ⟨fun r hr => h.found_of_step (h.sound.relations r hr),
    fun c hc => h.found_of_step (h.sound.controls c hc)⟩

/-! ## 3. What is put together -/

theorem found_iff {id : String} :
    Found α units id ↔ id ∈ (merged (walks (α := α) units)).elements.map (·.id) :=
  mem_ids_merged.symm

/-- **No relation is left out.** -/
theorem relations_merged : (merged (walks (α := α) units)).relations =
    (walks units).flatMap fun w => w.relations.reverse := by
  refine List.filter_eq_self.mpr fun r hr => ?_
  obtain ⟨w, hw, hmem⟩ := List.mem_flatMap.mp hr
  obtain ⟨hs, ht⟩ := (endsIn_of_mem_walks hw).relations r (List.mem_reverse.mp hmem)
  rw [Bool.and_eq_true]
  exact ⟨known_iff.mpr (found_iff.mp hs), known_iff.mpr (found_iff.mp ht)⟩

/-- **No dependency is left out.** -/
theorem controls_merged : (merged (walks (α := α) units)).controls =
    (walks (α := α) units).flatMap fun w => w.controls.reverse := by
  refine List.filter_eq_self.mpr fun c hc => ?_
  obtain ⟨w, hw, hmem⟩ := List.mem_flatMap.mp hc
  obtain ⟨hs, ht⟩ := (endsIn_of_mem_walks hw).controls c (List.mem_reverse.mp hmem)
  rw [Bool.and_eq_true]
  exact ⟨known_iff.mpr (found_iff.mp hs), known_iff.mpr (found_iff.mp ht)⟩

/-! ## 4. The files -/

/-- Reading succeeds if no file has to be read that cannot be. -/
theorem exists_readFiles {strict : Bool} {files : List SourceFile}
    (h : strict = true → ∀ file ∈ files, (itemsOf? file.content).isSome = true) :
    ∃ units, readFiles strict files = .ok units := by
  induction files with
  | nil => exact ⟨[], rfl⟩
  | cons file rest ih =>
    obtain ⟨units, hunits⟩ := ih fun hstrict other hother =>
      h hstrict other (List.mem_cons_of_mem _ hother)
    rw [readFiles]
    cases hfile : SourceUnit.ofFile? file with
    | some u =>
      dsimp only
      rw [hunits]
      exact ⟨u :: units, rfl⟩
    | none =>
      cases strict with
      | false => exact ⟨units, hunits⟩
      | true =>
        -- a file that cannot be read is not among those that have to be
        have hsome := h rfl file List.mem_cons_self
        rw [SourceUnit.ofFile?, Option.map_eq_none_iff] at hfile
        rw [hfile] at hsome
        cases hsome

theorem get?_ofUnits_elements {id : String} (h : (FunctionIndex.ofUnits units).get? id = some f) :
    f.id = id ∧ f.Elements (Found α units) := by
  obtain ⟨u, d, hindexed⟩ := exists_indexed h
  exact ⟨FunctionIndex.id_of_get? h, hindexed.elements⟩

/-- Why an extracted program makes no graph. -/
theorem build_merged_eq_error [Scalar α] [Scalar.Ordered α] {isPure : Element → Bool}
    {p : ProgramStructure α} (hp : p = merged (walks units)) {e : GraphError α}
    (he : build isPure p.elements p.relations p.controls = .error e) :
    e = .emptyInput ∨ e = .emptyAfterPruning ∨ ∃ cycles, e = .cycleDetected cycles := by
  subst hp
  cases ProgramStructure.refused_of_build wellGiven_merged he with
  | emptyInput => exact .inl rfl
  | emptyAfterPruning => exact .inr (.inl rfl)
  | cycleDetected => exact .inr (.inr ⟨_, rfl⟩)

/-- **Extraction is closed.** Unless a file has to be read that cannot be, both passes succeed. Every
function of the index is an element, and so are its named parameters and its return, if it has one.
Both ends of whatever the walk through a function of any file notes are elements, so that nothing is
left out. The elements' ids are distinct, and a program that was extracted makes no graph only if it
has no elements, if all of them are pruned, or if those that are left have a cycle. -/
theorem extraction_is_closed [Scalar α] [Scalar.Ordered α] {strict : Bool} {files : List SourceFile}
    (hfiles : strict = true → ∀ file ∈ files, (itemsOf? file.content).isSome = true) :
    ∃ index, ∃ p : ProgramStructure α,
      FunctionIndex.build strict files = .ok index ∧ extract strict files = .ok p ∧
      (∀ id f, index.get? id = some f →
        f.id = id ∧ f.Elements fun a => a ∈ p.elements.map (·.id)) ∧
      (∀ file ∈ files, ∀ w ∈ walksOfFile (α := α) index file,
        w.EndsIn fun a => a ∈ p.elements.map (·.id)) ∧
      (p.relations = (files.flatMap (walksOfFile index)).flatMap fun w => w.relations.reverse) ∧
      (p.controls =
        (files.flatMap (walksOfFile (α := α) index)).flatMap fun w => w.controls.reverse) ∧
      (p.elements.map (·.id)).Nodup ∧
      ∀ isPure e, build isPure p.elements p.relations p.controls = .error e →
        e = .emptyInput ∨ e = .emptyAfterPruning ∨ ∃ cycles, e = .cycleDetected cycles := by
  obtain ⟨units, hread⟩ := exists_readFiles hfiles
  have hindex : FunctionIndex.build strict files = .ok (FunctionIndex.ofUnits units) := by
    rw [FunctionIndex.build_eq, hread]
    rfl
  have hwalks : files.flatMap (walksOfFile (α := α) (FunctionIndex.ofUnits units)) = walks units :=
    flatMap_walksOfFile_eq hread _
  have hids : (fun a => a ∈ (merged (walks (α := α) units)).elements.map (·.id)) =
      Found α units := by
    funext a
    exact propext found_iff.symm
  refine ⟨_, merged (walks units), hindex, extract_of_readFiles hread, fun id f hf => ?_,
    fun file hfile w hw => ?_, ?_, ?_, nodup_firstOfEach _ _,
    fun isPure e he => build_merged_eq_error rfl he⟩
  · rw [hids]
    exact get?_ofUnits_elements hf
  · rw [hids]
    exact endsIn_of_mem_walks (hwalks ▸ List.mem_flatMap.mpr ⟨file, hfile, hw⟩)
  · rw [hwalks, relations_merged]
  · rw [hwalks, controls_merged]

/-- The function that `nested` calls is in the index, so its parameter is an element. -/
theorem extraction_is_closed_nested :
    (∀ file ∈ [nested], (itemsOf? file.content).isSome = true) ∧
    ∃ index, ∃ p : ProgramStructure Float,
      FunctionIndex.build true [nested] = .ok index ∧ extract true [nested] = .ok p ∧
      index.get? "m::next" = some nestedCallee ∧ "m::next::n" ∈ p.elements.map (·.id) ∧
      "m::next::return" ∈ p.elements.map (·.id) := by
  have hfiles : ∀ file ∈ [nested], (itemsOf? file.content).isSome = true := by decide +kernel
  have hstrict : true = true → ∀ file ∈ [nested], (itemsOf? file.content).isSome = true :=
    fun _ => hfiles
  obtain ⟨index, p, hindex, hp, hfound, -⟩ := extraction_is_closed (α := Float) hstrict
  have hbuild : FunctionIndex.build true [nested] = .ok (FunctionIndex.ofUnits [nestedUnit]) := by
    rw [FunctionIndex.build_eq, readFiles_nested]
    rfl
  obtain rfl := Except.ok.inj (hbuild.symm.trans hindex)
  have hcallee : (FunctionIndex.ofUnits [nestedUnit]).get? "m::next" = some nestedCallee :=
    fedBack_nested.indexed
  obtain ⟨-, helements⟩ := hfound "m::next" nestedCallee hcallee
  refine ⟨hfiles, _, p, hindex, hp, hcallee, ?_, helements.result rfl⟩
  exact helements.parameter "n" fedBack_nested.parameter

end Source

end CodeCausality
