import CodeCausality.Proofs.Graph.Build
import CodeCausality.Proofs.Source.Flow

/-!
# What an extraction hands over

* `Walked` -- the walk through a function of the index; `mem_walks` -- these are all walks;
* `Walked.sound` -- what they note are steps of their functions;
* `mem_ids_merged` -- the elements are those that the walks have found;
* `wellGiven_merged` -- **what is extracted is well given**: elements are distinct, ends known, no
  relation has a weight;
* `exists_walked_of_given` -- and each of its edges is a step of a walk.
-/

namespace CodeCausality

namespace Source

/-! ## 1. Walks -/

/-- What stays the same in the walk through a function of a file. -/
def settingOf (units : List SourceUnit) (u : SourceUnit) (f : Signature) : Setting :=
  ⟨FunctionIndex.ofUnits units, u.module, u.path, f.id, f.hasReturn⟩

section Walks

variable {α : Type} {units : List SourceUnit} {u u' : SourceUnit} {d d' : Definition}
  {f f' : Signature} {w : Walk α}

/-- The walk through a function of the index. -/
structure Walked (units : List SourceUnit) (u : SourceUnit) (d : Definition) (f : Signature)
    (w : Walk α) : Prop extends Indexed units u d f where
  walk : w = Walk.ofFunction (settingOf units u f) f d.function.body

theorem walkOf?_eq_some_iff : walkOf? (FunctionIndex.ofUnits units) u d = some w ↔
    ∃ f, (FunctionIndex.ofUnits units).get? d.id = some f ∧ f.place = d.place u.path ∧
      w = Walk.ofFunction (settingOf units u f) f d.function.body := by
  unfold walkOf?
  cases hf : (FunctionIndex.ofUnits units).get? d.id with
  | none => simp
  | some f =>
    by_cases hplace : f.place = d.place u.path
    · simp [hplace, settingOf, eq_comm]
    · simp [hplace]

theorem mem_walks : w ∈ walks units ↔ ∃ u d f, Walked units u d f w := by
  unfold walks
  dsimp only
  simp only [List.mem_flatMap, List.mem_filterMap, walkOf?_eq_some_iff]
  constructor
  · rintro ⟨u, hu, d, hd, f, hf, hplace, hw⟩
    exact ⟨u, d, f, ⟨hu, hd, hf, hplace⟩, hw⟩
  · rintro ⟨u, d, f, h⟩
    exact ⟨u, h.unit, d, h.definition, f, h.found, h.place, h.walk⟩

theorem Indexed.walked (h : Indexed units u d f) :
    Walked units u d f (Walk.ofFunction (settingOf units u f) f d.function.body : Walk α) :=
  ⟨h, rfl⟩

/-- **A walk notes nothing but steps of its function.** -/
theorem Walked.sound (h : Walked units u d f w) :
    Walk.Sound (settingOf units u f) f.params (CalledIn units u d) w := by
  rw [h.walk]
  exact Walk.sound_ofFunction rfl rfl fun c hc g hg => ⟨c, hc, hg⟩

/-- A walk is of one function. -/
theorem Walked.signature_eq (h : Walked units u d f w) (h' : Walked units u' d' f' w) : f = f' := by
  obtain ⟨front, hfront⟩ := h.sound.home
  obtain ⟨front', hfront'⟩ := h'.sound.home
  have hid : f.id = f'.id := by
    have heq := congrArg List.getLast? (hfront.trans hfront'.symm)
    simpa [settingOf] using heq
  have hfound := h.found
  rw [← h.id_eq, hid, h'.id_eq, h'.found] at hfound
  exact (Option.some.inj hfound).symm

end Walks

/-! ## 2. What is put together -/

section Merged

variable {α : Type} {ws : List (Walk α)}

theorem mem_ids_firstOfEach {seen : List String} {es : List Element} {id : String} :
    id ∈ (firstOfEach seen es).map (·.id) ↔ id ∈ es.map (·.id) ∧ id ∉ seen := by
  induction es generalizing seen with
  | nil => simp [firstOfEach]
  | cons e es ih =>
    rw [firstOfEach]
    by_cases hseen : e.id ∈ seen
    · rw [if_pos (List.contains_iff_mem.mpr hseen), ih, List.map_cons, List.mem_cons]
      refine ⟨fun h => ⟨.inr h.1, h.2⟩, fun h => ⟨h.1.resolve_left ?_, h.2⟩⟩
      rintro rfl
      exact h.2 hseen
    · rw [if_neg fun h => hseen (List.contains_iff_mem.mp h), List.map_cons, List.mem_cons, ih,
        List.map_cons, List.mem_cons, List.mem_cons]
      constructor
      · rintro (rfl | ⟨h, hne⟩)
        · exact ⟨.inl rfl, hseen⟩
        · exact ⟨.inr h, fun hmem => hne (.inr hmem)⟩
      · rintro ⟨rfl | h, hnot⟩
        · exact .inl rfl
        · by_cases heq : id = e.id
          · exact .inl heq
          · exact .inr ⟨h, fun hmem => hmem.elim heq hnot⟩

theorem nodup_firstOfEach (seen : List String) (es : List Element) :
    ((firstOfEach seen es).map (·.id)).Nodup := by
  induction es generalizing seen with
  | nil => exact List.nodup_nil
  | cons e es ih =>
    rw [firstOfEach]
    split
    · exact ih seen
    · rw [List.map_cons, List.nodup_cons]
      exact ⟨fun h => (mem_ids_firstOfEach.mp h).2 List.mem_cons_self, ih _⟩

theorem mem_ids_merged {id : String} :
    id ∈ (merged ws).elements.map (·.id) ↔ ∃ w ∈ ws, id ∈ w.ids := by
  unfold merged
  rw [mem_ids_firstOfEach]
  simp only [Walk.ids, List.mem_map, List.mem_flatMap, List.mem_reverse, List.not_mem_nil,
    not_false_eq_true, and_true]
  constructor
  · rintro ⟨e, ⟨w, hw, he⟩, rfl⟩
    exact ⟨w, hw, e, he, rfl⟩
  · rintro ⟨w, hw, e, he, rfl⟩
    exact ⟨e, ⟨w, hw, he⟩, rfl⟩

theorem known_iff {id : String} {es : List Element} :
    es.any (fun e => e.id == id) = true ↔ id ∈ es.map (·.id) := by
  simp [List.any_eq_true]

theorem mem_relations_merged {r : Relation α} (h : r ∈ (merged ws).relations) :
    (∃ w ∈ ws, r ∈ w.relations) ∧ r.source ∈ (merged ws).elements.map (·.id) ∧
      r.target ∈ (merged ws).elements.map (·.id) := by
  obtain ⟨hmem, hends⟩ := List.mem_filter.mp h
  obtain ⟨hs, ht⟩ := Bool.and_eq_true_iff.mp hends
  obtain ⟨w, hw, hr⟩ := List.mem_flatMap.mp hmem
  exact ⟨⟨w, hw, List.mem_reverse.mp hr⟩, known_iff.mp hs, known_iff.mp ht⟩

theorem mem_controls_merged {c : ControlDependency} (h : c ∈ (merged ws).controls) :
    (∃ w ∈ ws, c ∈ w.controls) ∧ c.condition ∈ (merged ws).elements.map (·.id) ∧
      c.dependent ∈ (merged ws).elements.map (·.id) := by
  obtain ⟨hmem, hends⟩ := List.mem_filter.mp h
  obtain ⟨hs, ht⟩ := Bool.and_eq_true_iff.mp hends
  obtain ⟨w, hw, hc⟩ := List.mem_flatMap.mp hmem
  exact ⟨⟨w, hw, List.mem_reverse.mp hc⟩, known_iff.mp hs, known_iff.mp ht⟩

end Merged

/-! ## 3. What is extracted -/

section Extracted

variable {α : Type} {units : List SourceUnit}

/-- **What is extracted is well given.** -/
theorem wellGiven_merged [Scalar α] : (merged (walks (α := α) units)).WellGiven where
  distinct := nodup_firstOfEach _ _
  known r hr := by
    rcases List.mem_append.mp hr with hr | hr
    · exact (mem_relations_merged hr).2
    · obtain ⟨c, hc, rfl⟩ := List.mem_map.mp hr
      exact (mem_controls_merged hc).2
  finite r hr weight hweight := by
    have hnone : r.weight = none := by
      rcases List.mem_append.mp hr with hr | hr
      · obtain ⟨w, hw, hr⟩ := (mem_relations_merged hr).1
        obtain ⟨u, d, f, hwalked⟩ := mem_walks.mp hw
        exact hwalked.sound.unweighted r hr
      · obtain ⟨c, -, rfl⟩ := List.mem_map.mp hr
        rfl
    rw [hnone] at hweight
    cases hweight

/-- **Each edge is a step of a walk.** -/
theorem exists_walked_of_given {e : Edge α} (h : (merged (walks units)).Given e) :
    ∃ u d f, ∃ w : Walk α, Walked units u d f w ∧
      Walk.Step (settingOf units u f) f.params (CalledIn units u d) w.ids e.source e.target := by
  cases h with
  | relation hr _ =>
    obtain ⟨w, hw, hr⟩ := (mem_relations_merged hr).1
    obtain ⟨u, d, f, hwalked⟩ := mem_walks.mp hw
    exact ⟨u, d, f, w, hwalked, hwalked.sound.relations _ hr⟩
  | control hc =>
    obtain ⟨w, hw, hc⟩ := (mem_controls_merged hc).1
    obtain ⟨u, d, f, hwalked⟩ := mem_walks.mp hw
    exact ⟨u, d, f, w, hwalked, hwalked.sound.controls _ hc⟩

end Extracted

end Source

end CodeCausality
