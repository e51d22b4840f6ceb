import CodeCausality.Proofs.Source.Forward

/-!
# Elements of different functions

An id says where an element stands, but not what it is: a value `x` of a function `m::f` and a
function `x` in a module `m::f` have one id. So

* `eq_or_inside_of_within` -- what stands inside of two functions shows that they are one, or that
  one of them stands inside of the other;
* `Walked.mem_ids`, `Walked.nodup_ids` -- the ids of one walk;
* `Walked.inside_of_shared`, `Walked.id_eq_of_mem` -- **what two walks can have in common**;
* `distinctness_of_elements` -- where the functions have different ids and none stands inside of
  another, all elements have, and putting them together drops none.
-/

namespace CodeCausality

namespace Source

/-! ## 1. Ids inside of ids -/

theorem inside_iff {a b : String} : Inside a b ↔ (within a "").toList <+: b.toList := by
  constructor
  · rintro ⟨x, rfl⟩
    exact ⟨x.toList, by simp [within]⟩
  · rintro ⟨x, hx⟩
    exact ⟨String.ofList x, String.toList_injective (by simp [← hx, within])⟩

instance (a b : String) : Decidable (Inside a b) := decidable_of_iff _ inside_iff.symm

/-- What ends in a name ends in no half of a mark. -/
theorem within_ne_append_colon {outer name : String} (hname : Plain name) (a : List Char) :
    (within outer name).toList ≠ a ++ [':'] := by
  intro heq
  have hne : name.toList ≠ [] := fun hnil =>
    hname.nonempty (String.toList_injective (hnil.trans String.toList_empty.symm))
  have hlast := congrArg List.getLast? heq
  simp only [within, String.toList_append, List.getLast?_append_of_ne_nil _ hne,
    List.getLast?_append_cons, List.getLast?_singleton] at hlast
  exact hname.noColon (List.mem_of_getLast? hlast)

/-- Where the longer of two ids is followed by a mark and what follows the shorter one starts with a
mark, the shorter one ends with the longer or before a mark in it. -/
theorem eq_or_inside_of_append {a b : String} {c xs ys : List Char}
    (hb : ∀ front, b.toList ≠ front ++ [':']) (hc : b.toList = a.toList ++ c)
    (hrest : ':' :: ':' :: xs = c ++ ':' :: ':' :: ys) : a = b ∨ Inside a b := by
  match c with
  | [] => exact .inl (String.toList_injective (by simpa using hc.symm))
  | [_] =>
    obtain ⟨rfl, -⟩ := List.cons.inj hrest
    exact absurd hc (hb _)
  | _ :: _ :: c =>
    obtain ⟨rfl, htail⟩ := List.cons.inj hrest
    obtain ⟨rfl, -⟩ := List.cons.inj htail
    exact .inr ⟨String.ofList c, String.toList_injective (by simp [hc, within])⟩

/-- **What stands inside of two ids shows that they are one, or that one of them stands inside of the
other.** Single colons could be shared between marks, but no id ends in one. -/
theorem eq_or_inside_of_within {a b x y : String} (ha : ∀ front, a.toList ≠ front ++ [':'])
    (hb : ∀ front, b.toList ≠ front ++ [':']) (h : within a x = within b y) :
    a = b ∨ Inside a b ∨ Inside b a := by
  have hlist := congrArg String.toList h
  rw [toList_within a, toList_within b, List.append_assoc, List.append_assoc,
    List.singleton_append, List.singleton_append] at hlist
  rcases List.append_eq_append_iff.mp hlist with ⟨c, hc, hrest⟩ | ⟨c, hc, hrest⟩
  · exact (eq_or_inside_of_append hb hc hrest).imp_right .inl
  · exact (eq_or_inside_of_append ha hc hrest).imp Eq.symm .inr

/-! ## 2. The ids of a walk -/

/-- No two named parameters have one name. -/
def DistinctNames (params : List (Option String)) : Prop := (params.filterMap id).Nodup

instance (params : List (Option String)) : Decidable (DistinctNames params) :=
  inferInstanceAs (Decidable (List.Nodup _))

section Walks

variable {α : Type} {units : List SourceUnit} {u u' : SourceUnit} {d d' : Definition}
  {f f' : Signature} {w w' : Walk α} {a : String}

theorem nodup_entered (h : DistinctNames f.params) : (entered f).Nodup := by
  unfold entered
  have hparams : ((f.params.filterMap id).map (within f.id)).Nodup :=
    List.Nodup.map (fun _ _ heq => within_inj.mp heq) h
  refine List.Nodup.append (List.nodup_reverse.mpr hparams) (List.nodup_singleton _) ?_
  intro b hb hhome
  obtain ⟨x, -, rfl⟩ := List.mem_map.mp (List.mem_reverse.mp hb)
  exact within_ne _ _ (List.mem_singleton.mp hhome)

/-- The id of a function of the index ends in its name. -/
theorem Walked.exists_name (hspelled : Spelled units) (h : Walked units u d f w) :
    Plain f.name ∧ ∃ outer, f.id = within outer f.name := by
  obtain ⟨u, hu, d, hd, rfl⟩ := exists_signature h.found
  exact ⟨(hspelled u hu d hd).name.1, d.outer, rfl⟩

theorem Walked.params_distinct
    (hparams : ∀ u ∈ units, ∀ d ∈ u.definitions, DistinctNames d.function.params)
    (h : Walked units u d f w) : DistinctNames f.params := by
  obtain ⟨u, hu, d, hd, rfl⟩ := exists_signature h.found
  exact hparams u hu d hd

section Spelled

variable (hspelled : Spelled units) (h : Walked units u d f w) (h' : Walked units u' d' f' w')

include hspelled h

/-- **Every element of a walk is its function or stands inside of it.** -/
theorem Walked.mem_ids (ha : a ∈ w.ids) : a = f.id ∨ Inside f.id a := by
  rcases (h.grown hspelled).mem_or_owned ha with hentered | howned
  · rcases mem_entered.mp hentered with ⟨x, -, rfl⟩ | rfl
    · exact .inr ⟨x, rfl⟩
    · exact .inl rfl
  · exact .inr howned.inside

/-- **The ids of one walk are distinct** if those of the parameters are. -/
theorem Walked.nodup_ids (hparams : DistinctNames f.params) : w.ids.Nodup :=
  (h.grown hspelled).nodup (nodup_entered hparams)

theorem Walked.id_ne_append_colon (front : List Char) : f.id.toList ≠ front ++ [':'] := by
  obtain ⟨hname, outer, houter⟩ := h.exists_name hspelled
  rw [houter]
  exact within_ne_append_colon hname front

include h'

/-- **Two walks have an id in common only if one of the functions stands inside of the other's id.** -/
theorem Walked.inside_of_shared (hne : f.id ≠ f'.id) (ha : a ∈ w.ids) (ha' : a ∈ w'.ids) :
    Inside f.id f'.id ∨ Inside f'.id f.id := by
  rcases h.mem_ids hspelled ha with rfl | ⟨x, rfl⟩
  · exact .inr ((h'.mem_ids hspelled ha').resolve_left hne)
  · rcases h'.mem_ids hspelled ha' with heq | ⟨y, heq⟩
    · exact .inl ⟨x, heq.symm⟩
    · exact (eq_or_inside_of_within (h.id_ne_append_colon hspelled)
        (h'.id_ne_append_colon hspelled) heq).resolve_left hne

/-- **A function is an element of another's walk only if it stands directly inside of that one's
id.** -/
theorem Walked.id_eq_of_mem (hne : f'.id ≠ f.id) (hmem : f'.id ∈ w.ids) :
    f'.id = within f.id f'.name := by
  obtain ⟨hname, outer, houter⟩ := h'.exists_name hspelled
  have hfunction : outer = f.id := by
    rcases (h.grown hspelled).mem_or_owned hmem with hentered | howned
    · rcases mem_entered.mp hentered with ⟨x, hx, heq⟩ | heq
      · have hplain := (hspelled.params h.found hx).1
        exact ((within_eq_within_iff hname.noColon hplain.noColon).mp (houter.symm.trans heq)).1
      · exact absurd heq hne
    · exact howned.alone outer f'.name hname houter
  rw [← hfunction]
  exact houter

end Spelled

end Walks

/-! ## 3. All walks -/

/-- The ids of all functions, in the order of the text. -/
def functionIds (units : List SourceUnit) : List String :=
  units.flatMap fun u => u.definitions.map (·.id)

section Units

variable {α : Type} {units : List SourceUnit}

/-- Each element is the first of its id where no id is there twice. -/
theorem firstOfEach_eq_self {seen : List String} {es : List Element}
    (h : (es.map (·.id)).Nodup) (hseen : ∀ e ∈ es, e.id ∉ seen) : firstOfEach seen es = es := by
  induction es generalizing seen with
  | nil => rfl
  | cons e es ih =>
    rw [List.map_cons, List.nodup_cons] at h
    obtain ⟨hfirst, hrest⟩ := List.forall_mem_cons.mp hseen
    rw [firstOfEach, if_neg fun hmem => hfirst (List.contains_iff_mem.mp hmem)]
    refine congrArg (e :: ·) (ih h.2 fun e' he' hmem => ?_)
    rcases List.mem_cons.mp hmem with heq | hmem
    · exact h.1 (heq ▸ List.mem_map_of_mem he')
    · exact hrest e' he' hmem

theorem mem_functionIds {u : SourceUnit} {d : Definition} (hu : u ∈ units)
    (hd : d ∈ u.definitions) : d.id ∈ functionIds units :=
  List.mem_flatMap.mpr ⟨u, hu, List.mem_map_of_mem hd⟩

/-- Functions of different ids, none inside of another, have walks without a common id. -/
theorem pairwise_disjoint_walks (hspelled : Spelled units) (hids : (functionIds units).Nodup)
    (hapart : ∀ a ∈ functionIds units, ∀ b ∈ functionIds units, ¬ Inside a b) :
    (walks (α := α) units).Pairwise fun w w' => w.ids.Disjoint w'.ids := by
  let placed := units.flatMap fun u => u.definitions.map (Prod.mk u)
  have hwalks : walks (α := α) units =
      placed.filterMap fun p => walkOf? (FunctionIndex.ofUnits units) p.1 p.2 := by
    simp only [walks, placed, List.filterMap_flatMap, List.filterMap_map]
    rfl
  have hplaced : placed.Pairwise fun p p' => p.2.id ≠ p'.2.id := by
    have hmap : functionIds units = placed.map (·.2.id) := by
      simp only [functionIds, placed, List.map_flatMap, List.map_map]
      rfl
    rw [hmap] at hids
    exact List.pairwise_map.mp hids
  have hmem {p : SourceUnit × Definition} (hp : p ∈ placed) :
      p.1 ∈ units ∧ p.2 ∈ p.1.definitions := by
    obtain ⟨u, hu, hpair⟩ := List.mem_flatMap.mp hp
    obtain ⟨d, hd, rfl⟩ := List.mem_map.mp hpair
    exact ⟨hu, hd⟩
  rw [hwalks, List.pairwise_filterMap]
  refine hplaced.imp_of_mem fun {p p'} hp hp' hne w hw w' hw' a ha ha' => ?_
  obtain ⟨hu, hd⟩ := hmem hp
  obtain ⟨hu', hd'⟩ := hmem hp'
  obtain ⟨f, hf, hplace, hwalk⟩ := walkOf?_eq_some_iff.mp hw
  obtain ⟨f', hf', hplace', hwalk'⟩ := walkOf?_eq_some_iff.mp hw'
  have h : Walked units p.1 p.2 f w := ⟨⟨hu, hd, hf, hplace⟩, hwalk⟩
  have h' : Walked units p'.1 p'.2 f' w' := ⟨⟨hu', hd', hf', hplace'⟩, hwalk'⟩
  have hshared := h.inside_of_shared hspelled h' (by rwa [h.id_eq, h'.id_eq]) ha ha'
  rw [h.id_eq, h'.id_eq] at hshared
  rcases hshared with hinside | hinside
  · exact hapart _ (mem_functionIds hu hd) _ (mem_functionIds hu' hd') hinside
  · exact hapart _ (mem_functionIds hu' hd') _ (mem_functionIds hu hd) hinside

theorem nodup_ids_walks (hspelled : Spelled units) (hids : (functionIds units).Nodup)
    (hparams : ∀ u ∈ units, ∀ d ∈ u.definitions, DistinctNames d.function.params)
    (hapart : ∀ a ∈ functionIds units, ∀ b ∈ functionIds units, ¬ Inside a b) :
    ((walks (α := α) units).flatMap (·.ids)).Nodup := by
  refine List.nodup_flatMap.mpr ⟨fun w hw => ?_, pairwise_disjoint_walks hspelled hids hapart⟩
  obtain ⟨u, d, f, h⟩ := mem_walks.mp hw
  exact h.nodup_ids hspelled (h.params_distinct hparams)

/-- What is put together is all there is where no id is there twice. -/
theorem elements_merged {ws : List (Walk α)} (h : (ws.flatMap (·.ids)).Nodup) :
    (merged ws).elements = ws.flatMap fun w => w.elements.reverse := by
  refine firstOfEach_eq_self ?_ fun _ _ => List.not_mem_nil
  have hids : (ws.flatMap fun w => w.elements.reverse).map (·.id) =
      ws.flatMap fun w => w.ids.reverse := by
    simp only [List.map_flatMap, List.map_reverse]
    rfl
  rw [hids]
  refine List.nodup_flatMap.mpr ⟨fun w hw => ?_, ?_⟩
  · exact List.nodup_reverse.mpr ((List.nodup_flatMap.mp h).1 w hw)
  · refine (List.nodup_flatMap.mp h).2.imp fun hdisjoint a ha ha' => ?_
    exact hdisjoint (List.mem_reverse.mp ha) (List.mem_reverse.mp ha')

/-- **When elements are distinct.** Let all functions have different ids. Then the elements of one
walk have, if the parameters of its function do; two walks have an id in common only if one of the
functions stands inside of the other's id; and a function is an element of another's walk only if it
stands directly in that one's id, under the name of a value there. So if no function stands inside of
another's id, all elements have different ids, and none is dropped when they are put together. -/
theorem distinctness_of_elements {strict : Bool} {files : List SourceFile}
    (hread : readFiles strict files = .ok units) (hids : (functionIds units).Nodup) :
    (∀ u d f, ∀ w : Walk α, Walked units u d f w → DistinctNames f.params → w.ids.Nodup) ∧
      (∀ u d f u' d' f', ∀ w w' : Walk α, Walked units u d f w → Walked units u' d' f' w' →
        f.id ≠ f'.id →
        (∀ a, a ∈ w.ids → a ∈ w'.ids → Inside f.id f'.id ∨ Inside f'.id f.id) ∧
          (f'.id ∈ w.ids → f'.id = within f.id f'.name)) ∧
      ((∀ u ∈ units, ∀ d ∈ u.definitions, DistinctNames d.function.params) →
        (∀ a ∈ functionIds units, ∀ b ∈ functionIds units, ¬ Inside a b) →
        ((walks (α := α) units).flatMap (·.ids)).Nodup ∧
          (merged (walks (α := α) units)).elements =
            (walks (α := α) units).flatMap fun w => w.elements.reverse) := by
  have hspelled := spelled_of_readFiles hread
  refine ⟨fun u d f w h hparams => h.nodup_ids hspelled hparams, ?_, fun hparams hapart => ?_⟩
  · intro u d f u' d' f' w w' h h' hne
    exact ⟨fun a ha ha' => h.inside_of_shared hspelled h' hne ha ha',
      fun hmem => h.id_eq_of_mem hspelled h' (Ne.symm hne) hmem⟩
  · have hnodup := nodup_ids_walks (α := α) hspelled hids hparams hapart
    exact ⟨hnodup, elements_merged hnodup⟩

/-- Of the functions of `nested`, none stands inside of the other's id. -/
theorem distinctness_of_elements_nested :
    (functionIds [nestedUnit]).Nodup ∧ ((walks (α := Float) [nestedUnit]).flatMap (·.ids)).Nodup := by
  have hnodup : (functionIds [nestedUnit]).Nodup := by decide
  exact ⟨hnodup,
    ((distinctness_of_elements readFiles_nested hnodup).2.2 (by decide) (by decide)).1⟩

/-- A function with a parameter, and a function of that name in a module of the first one's name. -/
def sameName : SourceFile where
  package := "m"
  path := "src/m.rs"
  content := "fn f(x: u64) -> u64 { x } mod f { pub fn x() {} }"

/-- **Two functions of different ids whose elements have one.** The parameter of the first takes the
place of the second, which is no element any more. -/
theorem parameter_takes_place_of_function : ∃ units, readFiles true [sameName] = .ok units ∧
    functionIds units = ["m::f", "m::f::x"] ∧
    (walks (α := Float) units).flatMap (·.ids) =
      ["m::f::return", "m::f::x", "m::f", "m::f::x"] ∧
    (merged (walks (α := Float) units)).elements.map (fun e => (e.id, e.kind)) =
      [("m::f", .function), ("m::f::x", .namedValue), ("m::f::return", .returnSite)] := by
  have hfound : (readFiles true [sameName]).toOption.map (fun units =>
      (functionIds units, (walks (α := Float) units).flatMap (·.ids),
        (merged (walks (α := Float) units)).elements.map fun e => (e.id, e.kind))) =
      some (["m::f", "m::f::x"], ["m::f::return", "m::f::x", "m::f", "m::f::x"],
        [("m::f", .function), ("m::f::x", .namedValue), ("m::f::return", .returnSite)]) := by
    decide +kernel
  obtain ⟨units, hread, hall⟩ := exists_ok_of_toOption hfound
  simp only [Prod.mk.injEq] at hall
  exact ⟨units, hread, hall⟩

end Units

end Source

end CodeCausality
