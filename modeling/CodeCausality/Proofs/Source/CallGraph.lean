import CodeCausality.Proofs.Sorted
import CodeCausality.Source.CallGraph
import CodeCausality.Source.Extraction

/-!
# The call graph

* `permits_reads` -- all that an expression reads is a name or a call in its text;
* `Indexed` -- a definition that the index holds; `exists_indexed`, `CalledIn.exists_indexed` --
  **every function of the index, and so each that a call resolves to, has one**;
* `calls_iff` -- what the edges of the call graph say.
-/

namespace CodeCausality

namespace Source

/-! ## 1. Ids -/

theorem within_inj {outer x y : String} : within outer x = within outer y ↔ x = y := by
  simp [within]

theorem within_ne (outer x : String) : within outer x ≠ outer := by
  intro h
  have hlength := congrArg String.length h
  have hcolons : "::".length = 2 := rfl
  simp only [within, String.length_append] at hlength
  omega

/-! ## 2. What is read -/

/-- A read that is no call, or a call of a permitted function. -/
def Permits (index : FunctionIndex) (module : String) (called : Signature → Prop) (r : Read) :
    Prop :=
  ∀ g, index.resolve module r = some g → called g

section Reads

variable {index : FunctionIndex} {module : String} {called : Signature → Prop}

/-- A format text is no call. -/
theorem permits_captured (e : Expr) : ∀ r ∈ e.captured, Permits index module called r := by
  fun_induction Expr.captured e with
  | case1 content => exact List.forall_mem_singleton.mpr fun _ hg => nomatch hg
  | case2 values e ih => exact ih
  | case3 => exact List.forall_mem_nil _

mutual

/-- **An expression reads nothing but names and its calls.** -/
theorem permits_reads : ∀ e : Expr, (∀ c ∈ e.calls, Permits index module called c) →
    ∀ r ∈ e.reads, Permits index module called r
  | .name x, _ => by
    rw [Expr.reads, List.forall_mem_singleton]
    exact fun _ hg => nomatch hg
  | .path _ _, _ => by
    rw [Expr.reads]
    exact List.forall_mem_nil _
  | .text _, _ => by
    rw [Expr.reads]
    exact List.forall_mem_nil _
  | .parts es, h => by
    rw [Expr.calls] at h
    rw [Expr.reads]
    exact permits_readsAll es h
  | .operation left right, h => by
    rw [Expr.calls, List.forall_mem_append] at h
    rw [Expr.reads, List.forall_mem_append]
    exact ⟨permits_reads left h.1, permits_reads right h.2⟩
  | .assign target value _, h => by
    rw [Expr.calls, List.forall_mem_append] at h
    rw [Expr.reads, List.forall_mem_append]
    exact ⟨permits_reads target h.1, permits_reads value h.2⟩
  | .update target value _, h => by
    rw [Expr.calls, List.forall_mem_append] at h
    rw [Expr.reads, List.forall_mem_append]
    exact ⟨permits_reads target h.1, permits_reads value h.2⟩
  | .call values callee args _, h => by
    rw [Expr.calls, List.forall_mem_cons, List.forall_mem_append, List.forall_mem_append] at h
    obtain ⟨hcall, ⟨hvalues, hcallee⟩, hargs⟩ := h
    rw [Expr.reads, List.forall_mem_cons, List.forall_mem_append, List.forall_mem_append]
    exact ⟨hcall, ⟨permits_readsAll values hvalues, permits_reads callee hcallee⟩,
      permits_readsAll args hargs⟩
  | .method values receiver _ typeArgs args _, h => by
    rw [Expr.calls, List.forall_mem_cons, List.forall_mem_append, List.forall_mem_append,
      List.forall_mem_append] at h
    obtain ⟨hcall, ⟨⟨hvalues, hreceiver⟩, htypes⟩, hargs⟩ := h
    rw [Expr.reads, List.forall_mem_cons, List.forall_mem_append, List.forall_mem_append,
      List.forall_mem_append]
    exact ⟨hcall, ⟨⟨permits_readsAll values hvalues, permits_reads receiver hreceiver⟩,
      permits_readsAll typeArgs htypes⟩, permits_readsAll args hargs⟩
  | .invocation _ args _, h => by
    rw [Expr.calls] at h
    rw [Expr.reads]
    exact permits_readsOfArguments args h
  | .branch condition body otherwise, h => by
    rw [Expr.calls, List.forall_mem_append, List.forall_mem_append] at h
    rw [Expr.reads, List.forall_mem_append, List.forall_mem_append]
    exact ⟨⟨permits_reads condition h.1.1, permits_readsOfBody body h.1.2⟩,
      permits_readsOfOptional otherwise h.2⟩
  | .whileLoop condition body, h => by
    rw [Expr.calls, List.forall_mem_append] at h
    rw [Expr.reads, List.forall_mem_append]
    exact ⟨permits_reads condition h.1, permits_readsOfBody body h.2⟩
  | .select subject arms, h => by
    rw [Expr.calls, List.forall_mem_append] at h
    rw [Expr.reads, List.forall_mem_append]
    exact ⟨permits_reads subject h.1, permits_readsOfArms arms h.2⟩
  | .forLoop _ patternParts source body _, h => by
    rw [Expr.calls, List.forall_mem_append, List.forall_mem_append] at h
    rw [Expr.reads, List.forall_mem_append, List.forall_mem_append]
    exact ⟨⟨permits_readsAll patternParts h.1.1, permits_reads source h.1.2⟩,
      permits_readsOfBody body h.2⟩
  | .block body, h => by
    rw [Expr.calls] at h
    rw [Expr.reads]
    exact permits_readsOfBody body h
  | .giveBack value, h => by
    rw [Expr.calls] at h
    rw [Expr.reads]
    exact permits_readsOfOptional value h
  | .marked values e, h => by
    rw [Expr.calls, List.forall_mem_append] at h
    rw [Expr.reads, List.forall_mem_append]
    refine ⟨?_, permits_reads e h.2⟩
    split
    · exact List.forall_mem_nil _
    · exact permits_readsAll values h.1

theorem permits_readsAll : ∀ es : List Expr,
    (∀ c ∈ callsOfAll es, Permits index module called c) →
    ∀ r ∈ readsAll es, Permits index module called r
  | [], _ => by
    rw [readsAll]
    exact List.forall_mem_nil _
  | e :: es, h => by
    rw [callsOfAll, List.forall_mem_append] at h
    rw [readsAll, List.forall_mem_append]
    exact ⟨permits_reads e h.1, permits_readsAll es h.2⟩

theorem permits_readsOfOptional : ∀ e : Option Expr,
    (∀ c ∈ callsOfOptional e, Permits index module called c) →
    ∀ r ∈ readsOfOptional e, Permits index module called r
  | none, _ => by
    rw [readsOfOptional]
    exact List.forall_mem_nil _
  | some e, h => by
    rw [callsOfOptional] at h
    rw [readsOfOptional]
    exact permits_reads e h

theorem permits_readsOfArguments : ∀ es : List Expr,
    (∀ c ∈ callsOfAll es, Permits index module called c) →
    ∀ r ∈ readsOfArguments es, Permits index module called r
  | [], _ => by
    rw [readsOfArguments]
    exact List.forall_mem_nil _
  | e :: es, h => by
    rw [callsOfAll, List.forall_mem_append] at h
    rw [readsOfArguments, List.forall_mem_append, List.forall_mem_append]
    exact ⟨⟨permits_captured e, permits_reads e h.1⟩, permits_readsOfArguments es h.2⟩

theorem permits_readsOfArm : ∀ a : Arm, (∀ c ∈ a.calls, Permits index module called c) →
    ∀ r ∈ a.reads, Permits index module called r
  | ⟨patternParts, guard, body⟩, h => by
    rw [Arm.calls, List.forall_mem_append, List.forall_mem_append] at h
    rw [Arm.reads, List.forall_mem_append, List.forall_mem_append]
    exact ⟨⟨permits_readsAll patternParts h.1.1, permits_readsOfOptional guard h.1.2⟩,
      permits_reads body h.2⟩

theorem permits_readsOfArms : ∀ arms : List Arm,
    (∀ c ∈ callsOfArms arms, Permits index module called c) →
    ∀ r ∈ readsOfArms arms, Permits index module called r
  | [], _ => by
    rw [readsOfArms]
    exact List.forall_mem_nil _
  | a :: rest, h => by
    rw [callsOfArms, List.forall_mem_append] at h
    rw [readsOfArms, List.forall_mem_append]
    exact ⟨permits_readsOfArm a h.1, permits_readsOfArms rest h.2⟩

theorem permits_readsOfStmt : ∀ a : Stmt, (∀ c ∈ a.calls, Permits index module called c) →
    ∀ r ∈ a.reads, Permits index module called r
  | .item, _ => by
    rw [Stmt.reads]
    exact List.forall_mem_nil _
  | .bind _ patternParts value otherwise _, h => by
    rw [Stmt.calls, List.forall_mem_append, List.forall_mem_append] at h
    rw [Stmt.reads, List.forall_mem_append, List.forall_mem_append]
    exact ⟨⟨permits_readsAll patternParts h.1.1, permits_readsOfOptional value h.1.2⟩,
      permits_readsOfOptional otherwise h.2⟩
  | .run e _, h => by
    rw [Stmt.calls] at h
    rw [Stmt.reads]
    exact permits_reads e h

theorem permits_readsOfBody : ∀ b : List Stmt,
    (∀ c ∈ callsOfBody b, Permits index module called c) →
    ∀ r ∈ readsOfBody b, Permits index module called r
  | [], _ => by
    rw [readsOfBody]
    exact List.forall_mem_nil _
  | a :: rest, h => by
    rw [callsOfBody, List.forall_mem_append] at h
    rw [readsOfBody, List.forall_mem_append]
    exact ⟨permits_readsOfStmt a h.1, permits_readsOfBody rest h.2⟩

end

end Reads

theorem mem_callsOfAll {e : Expr} {es : List Expr} {c : Read} (he : e ∈ es) (hc : c ∈ e.calls) :
    c ∈ callsOfAll es := by
  induction es with
  | nil => exact absurd he List.not_mem_nil
  | cons a es ih =>
    rw [callsOfAll, List.mem_append]
    rcases List.mem_cons.mp he with rfl | he
    · exact .inl hc
    · exact .inr (ih he)

/-! ## 3. The index -/

namespace FunctionIndex

theorem get?_add {x : FunctionIndex} {s f : Signature} {id : String}
    (h : (x.add s).get? id = some f) : x.get? id = some f ∨ f = s := by
  unfold add at h
  split at h
  · exact .inl h
  · exact (Dictionary.eq_or_of_get?_insert h).symm

/-- Everything in the index was added. -/
theorem mem_of_get?_foldl {sigs : List Signature} {x : FunctionIndex} {id : String} {f : Signature}
    (h : (sigs.foldl add x).get? id = some f) : x.get? id = some f ∨ f ∈ sigs := by
  induction sigs generalizing x with
  | nil => exact .inl h
  | cons s sigs ih =>
    rcases ih h with h | h
    · rcases get?_add h with h | rfl
      · exact .inl h
      · exact .inr List.mem_cons_self
    · exact .inr (List.mem_cons_of_mem s h)

theorem id_of_get? {x : FunctionIndex} {id : String} {f : Signature} (h : x.get? id = some f) :
    f.id = id := (x.keyed _ (x.signatures.get?_eq_some_iff.mp h)).symm

theorem get?_of_mem_toList {x : FunctionIndex} {f : Signature} (h : f ∈ x.toList) :
    x.get? f.id = some f := by
  obtain ⟨⟨id, f'⟩, he, rfl⟩ := List.mem_map.mp h
  have hid := x.keyed _ he
  exact x.signatures.get?_eq_some_iff.mpr (hid ▸ he)

theorem eq_some_of_single? {β : Type} {xs : List β} {b : β} (h : single? xs = some b) : b ∈ xs := by
  cases xs with
  | nil => cases h
  | cons a xs =>
    cases xs with
    | nil =>
      cases h
      exact List.mem_cons_self
    | cons a' xs => cases h

theorem get?_of_single? {x : FunctionIndex} {name : String} {p : Signature → Bool} {f : Signature}
    (h : single? ((x.named name).filter p) = some f) : x.get? f.id = some f := by
  have hmem := (List.mem_filter.mp (eq_some_of_single? h)).1
  exact get?_of_mem_toList (List.mem_filter.mp hmem).1

/-- **What a call resolves to is in the index.** -/
theorem get?_of_resolve {x : FunctionIndex} {module : String} {r : Read} {f : Signature}
    (h : x.resolve module r = some f) : x.get? f.id = some f := by
  cases r with
  | name _ => cases h
  | captured _ => cases h
  | method name => exact get?_of_single? h
  | call segments =>
    have hcall : x.resolveCall segments module = some f := h
    unfold resolveCall at hcall
    split at hcall
    · cases hcall
    · split at hcall
      · rename_i g hg
        obtain rfl := Option.some.inj hcall
        rwa [id_of_get? hg]
      · exact get?_of_single? hcall
    · exact get?_of_single? hcall

end FunctionIndex

/-! ## 4. Functions of the index -/

/-- A definition that the index holds, its file and its signature. -/
structure Indexed (units : List SourceUnit) (u : SourceUnit) (d : Definition) (f : Signature) :
    Prop where
  unit : u ∈ units
  definition : d ∈ u.definitions
  found : (FunctionIndex.ofUnits units).get? d.id = some f
  place : f.place = d.place u.path

variable {units : List SourceUnit} {u : SourceUnit} {d : Definition} {f g : Signature}

theorem Indexed.id_eq (h : Indexed units u d f) : f.id = d.id := FunctionIndex.id_of_get? h.found

theorem exists_signature {id : String} (h : (FunctionIndex.ofUnits units).get? id = some f) :
    ∃ u ∈ units, ∃ d ∈ u.definitions, f = d.signature u.path := by
  rcases FunctionIndex.mem_of_get?_foldl h with hempty | hmem
  · cases hempty
  · obtain ⟨u, hu, hmem⟩ := List.mem_flatMap.mp hmem
    obtain ⟨d, hd, rfl⟩ := List.mem_map.mp hmem
    exact ⟨u, hu, d, hd, rfl⟩

theorem exists_indexed {id : String} (h : (FunctionIndex.ofUnits units).get? id = some f) :
    ∃ u d, Indexed units u d f := by
  obtain ⟨u, hu, d, hd, rfl⟩ := exists_signature h
  have hid : d.id = id := FunctionIndex.id_of_get? h
  exact ⟨u, d, hu, hd, hid ▸ h, rfl⟩

/-- A function is called in the text of a definition. -/
def CalledIn (units : List SourceUnit) (u : SourceUnit) (d : Definition) (g : Signature) : Prop :=
  ∃ c ∈ callsOfBody d.function.body, (FunctionIndex.ofUnits units).resolve u.module c = some g

theorem CalledIn.exists_indexed (h : CalledIn units u d g) : ∃ u' d', Indexed units u' d' g := by
  obtain ⟨c, -, hc⟩ := h
  exact Source.exists_indexed (FunctionIndex.get?_of_resolve hc)

/-- **An edge of the call graph is a call in a function of the index.** -/
theorem calls_iff {a b : String} :
    Calls units a b ↔
      ∃ u d f g, Indexed units u d f ∧ f.id = a ∧ CalledIn units u d g ∧ g.id = b := by
  unfold Calls callEdges
  rw [List.mem_flatMap]
  constructor
  · rintro ⟨u, hu, h⟩
    obtain ⟨d, hd, h⟩ := List.mem_flatMap.mp h
    unfold callEdgesOf at h
    split at h
    · rename_i f hf
      split at h
      · rename_i hplace
        obtain ⟨g, hg, heq⟩ := List.mem_map.mp h
        obtain ⟨rfl, rfl⟩ := Prod.mk.inj heq
        exact ⟨u, d, f, g, ⟨hu, hd, hf, hplace⟩, rfl, List.mem_filterMap.mp hg, rfl⟩
      · cases h
    · cases h
  · rintro ⟨u, d, f, g, h, rfl, hg, rfl⟩
    refine ⟨u, h.unit, List.mem_flatMap.mpr ⟨d, h.definition, ?_⟩⟩
    unfold callEdgesOf
    rw [h.found]
    dsimp only
    rw [if_pos h.place]
    exact List.mem_map_of_mem (List.mem_filterMap.mpr hg)

end Source

end CodeCausality
