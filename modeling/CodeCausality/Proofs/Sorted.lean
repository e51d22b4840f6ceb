import Mathlib.Data.List.Induction
import Mathlib.Data.List.Sort
import Mathlib.Data.String.Basic
import CodeCausality.Dictionary

/-!
# Sorted ids and dictionaries

What `Dictionary.lean` keeps sorted, said by membership:

* `dropRepeats` and `sortedIds` keep the members and leave them strictly increasing;
  `distinct` keeps the members, each once;
* `find?_increasing_iff` -- what is found first among increasing members is the smallest;
* the keys of a dictionary are strictly increasing, `get?` finds exactly the entries, and a
  dictionary is what `get?` finds (`eq_of_get?`);
* `get?_ofList` -- a dictionary made of a list holds, for each key, its last entry.
-/

namespace CodeCausality

/-! ## 1. Dropping neighbours that repeat -/

section DropRepeats

variable {κ : Type}

@[simp] theorem mem_dropRepeats [DecidableEq κ] {a : κ} (xs : List κ) :
    a ∈ dropRepeats xs ↔ a ∈ xs := by
  induction xs using dropRepeats.induct with
  | case1 => rfl
  | case2 b => rfl
  | case3 b rest ih =>
    rw [dropRepeats, if_pos rfl, ih]
    simp
  | case4 b c rest hne ih =>
    rw [dropRepeats, if_neg hne, List.mem_cons, ih, List.mem_cons (l := c :: rest)]

/-- **What is increasing becomes strictly increasing.** -/
theorem dropRepeats_increasing [DecidableEq κ] [PartialOrder κ] {xs : List κ}
    (h : xs.Pairwise (· ≤ ·)) : (dropRepeats xs).Pairwise (· < ·) := by
  induction xs using dropRepeats.induct with
  | case1 => exact List.Pairwise.nil
  | case2 b => exact List.pairwise_singleton _ _
  | case3 b rest ih =>
    rw [dropRepeats, if_pos rfl]
    exact ih (List.pairwise_cons.mp h).2
  | case4 b c rest hne ih =>
    rw [dropRepeats, if_neg hne]
    obtain ⟨hb, hrest⟩ := List.pairwise_cons.mp h
    have hbc : b < c := lt_of_le_of_ne (hb c List.mem_cons_self) hne
    refine List.pairwise_cons.mpr ⟨fun d hd => ?_, ih hrest⟩
    rcases List.mem_cons.mp ((mem_dropRepeats _).mp hd) with rfl | hd
    · exact hbc
    · exact lt_of_lt_of_le hbc ((List.pairwise_cons.mp hrest).1 d hd)

/-- Two strictly increasing lists with the same members are one list. -/
theorem eq_of_increasing [LinearOrder κ] {xs ys : List κ} (hx : xs.Pairwise (· < ·))
    (hy : ys.Pairwise (· < ·)) (h : ∀ a, a ∈ xs ↔ a ∈ ys) : xs = ys :=
  List.Pairwise.eq_of_mem_iff hx hy fun {a} => h a

/-- In a strictly increasing list the first member of a kind is the smallest. -/
theorem find?_increasing_iff [LinearOrder κ] {xs : List κ} (h : xs.Pairwise (· < ·))
    {p : κ → Bool} {a : κ} :
    xs.find? p = some a ↔ a ∈ xs ∧ p a = true ∧ ∀ b ∈ xs, p b = true → a ≤ b := by
  induction xs with
  | nil => exact iff_of_false (fun h => (nomatch h)) fun h => absurd h.1 List.not_mem_nil
  | cons c xs ih =>
    obtain ⟨hc, hxs⟩ := List.pairwise_cons.mp h
    rw [List.find?_cons]
    cases hp : p c with
    | true =>
      constructor
      · intro hca
        obtain rfl := Option.some.inj hca
        refine ⟨List.mem_cons_self, hp, fun b hb _ => ?_⟩
        rcases List.mem_cons.mp hb with rfl | hb
        · exact le_refl _
        · exact (hc b hb).le
      · rintro ⟨ha, -, hmin⟩
        rcases List.mem_cons.mp ha with rfl | ha
        · rfl
        · exact absurd (hmin c List.mem_cons_self hp) (not_le_of_gt (hc a ha))
    | false =>
      have hne {b : κ} (hb : p b = true) : b ≠ c := fun e => by rw [e, hp] at hb; exact nomatch hb
      rw [ih hxs]
      constructor
      · rintro ⟨ha, hpa, hmin⟩
        exact ⟨List.mem_cons_of_mem _ ha, hpa, fun b hb hpb =>
          hmin b ((List.mem_cons.mp hb).resolve_left (hne hpb)) hpb⟩
      · rintro ⟨ha, hpa, hmin⟩
        exact ⟨(List.mem_cons.mp ha).resolve_left (hne hpa), hpa, fun b hb =>
          hmin b (List.mem_cons_of_mem _ hb)⟩

end DropRepeats

/-! ## 2. Sorted ids -/

@[simp] theorem mem_sortIds {id : String} {ids : List String} : id ∈ sortIds ids ↔ id ∈ ids :=
  List.mem_mergeSort

theorem sortIds_increasing (ids : List String) : (sortIds ids).Pairwise (· ≤ ·) := by
  have htrans : ∀ a b c : String, decide (a ≤ b) = true → decide (b ≤ c) = true →
      decide (a ≤ c) = true := fun a b c hab hbc =>
    decide_eq_true (le_trans (of_decide_eq_true hab) (of_decide_eq_true hbc))
  have htotal : ∀ a b : String, (decide (a ≤ b) || decide (b ≤ a)) = true := fun a b => by
    rw [Bool.or_eq_true, decide_eq_true_eq, decide_eq_true_eq]
    exact le_total a b
  exact (List.pairwise_mergeSort htrans htotal ids).imp of_decide_eq_true

@[simp] theorem mem_sortedIds {id : String} {ids : List String} :
    id ∈ sortedIds ids ↔ id ∈ ids := by
  rw [sortedIds, mem_dropRepeats, mem_sortIds]

theorem sortedIds_increasing (ids : List String) : (sortedIds ids).Pairwise (· < ·) :=
  dropRepeats_increasing (sortIds_increasing ids)

/-! ## 3. Distinct ids -/

theorem distinct_concat (ids : List String) (a : String) :
    distinct (ids ++ [a]) =
      if (distinct ids).contains a then distinct ids else distinct ids ++ [a] := by
  rw [distinct, List.foldl_append]
  rfl

@[simp] theorem mem_distinct {id : String} (ids : List String) : id ∈ distinct ids ↔ id ∈ ids := by
  induction ids using List.reverseRecOn generalizing id with
  | nil => rfl
  | append_singleton ids a ih =>
    rw [distinct_concat, List.mem_append, List.mem_singleton]
    split
    · rename_i h
      have ha : a ∈ ids := ih.mp (List.contains_iff_mem.mp h)
      rw [ih]
      exact ⟨.inl, fun h => h.elim (fun h => h) fun e => e ▸ ha⟩
    · rw [List.mem_append, List.mem_singleton, ih]

theorem nodup_distinct (ids : List String) : (distinct ids).Nodup := by
  induction ids using List.reverseRecOn with
  | nil => exact List.nodup_nil
  | append_singleton ids a ih =>
    rw [distinct_concat]
    split
    · exact ih
    · rename_i h
      have ha : a ∉ distinct ids := fun ha => h (List.contains_iff_mem.mpr ha)
      exact List.nodup_append.mpr ⟨ih, List.nodup_singleton a, fun b hb c hc e =>
        ha (List.mem_singleton.mp hc ▸ e ▸ hb)⟩

/-! ## 4. Dictionaries -/

theorem Entries.find?_eq_some_iff {κ β : Type} [LinearOrder κ] {es : List (κ × β)}
    (h : Entries.Increasing es) {k : κ} {v : β} : Entries.find? k es = some v ↔ (k, v) ∈ es := by
  induction es with
  | nil => simp [Entries.find?]
  | cons e rest ih =>
    obtain ⟨he, hrest⟩ := List.pairwise_cons.mp h
    rw [Entries.find?, List.mem_cons]
    split
    · rename_i hk
      subst hk
      constructor
      · intro hv
        exact .inl (by rw [← Option.some.inj hv])
      · rintro (hv | hv)
        · rw [← hv]
        · exact absurd (he _ hv) (lt_irrefl _)
    · rename_i hk
      rw [ih hrest]
      exact ⟨.inr, fun hv => hv.resolve_left fun e' => hk (e' ▸ rfl)⟩

theorem Entries.find?_eq_lookup {β : Type} (es : List (String × β)) (k : String) :
    Entries.find? k es = es.lookup k := by
  induction es with
  | nil => rfl
  | cons e rest ih =>
    rw [Entries.find?, List.lookup_cons, ih]
    by_cases hk : e.1 = k
    · rw [if_pos hk, beq_iff_eq.mpr hk.symm]
    · rw [if_neg hk, beq_false_of_ne (Ne.symm hk)]

/-- Where no key comes twice, every entry is found under its key. -/
theorem lookup_of_nodup {κ β : Type} [BEq κ] [LawfulBEq κ] {es : List (κ × β)}
    (h : (es.map (·.1)).Nodup) {e : κ × β} (he : e ∈ es) : es.lookup e.1 = some e.2 := by
  obtain ⟨before, after, rfl⟩ := List.append_of_mem he
  rw [List.map_append, List.nodup_append] at h
  refine List.lookup_eq_some_iff.mpr ⟨before, after, rfl, fun d hd => ?_⟩
  exact bne_iff_ne.mpr (h.2.2 d.1 (List.mem_map_of_mem hd) e.1 List.mem_cons_self).symm

namespace Dictionary

variable {β : Type} (d : Dictionary β)

theorem get?_eq_some_iff {k : String} {v : β} : d.get? k = some v ↔ (k, v) ∈ d.entries :=
  Entries.find?_eq_some_iff d.increasing

theorem keys_increasing : d.keys.Pairwise (· < ·) :=
  List.pairwise_map.mpr d.increasing

theorem mem_keys {k : String} : k ∈ d.keys ↔ ∃ v, d.get? k = some v := by
  rw [keys, List.mem_map]
  constructor
  · rintro ⟨⟨j, v⟩, he, rfl⟩
    exact ⟨v, d.get?_eq_some_iff.mpr he⟩
  · rintro ⟨v, hv⟩
    exact ⟨(k, v), d.get?_eq_some_iff.mp hv, rfl⟩

variable {d} in
theorem get?_eq_none_of_not_mem {k : String} (h : k ∉ d.keys) : d.get? k = none := by
  cases hk : d.get? k with
  | none => rfl
  | some v => exact absurd (d.mem_keys.mpr ⟨v, hk⟩) h

theorem isEmpty_iff : d.isEmpty = true ↔ d.keys = [] := by
  rw [isEmpty, List.isEmpty_iff, keys, List.map_eq_nil_iff]

theorem contains_iff {k : String} : d.contains k = true ↔ k ∈ d.keys := by
  rw [contains, Option.isSome_iff_exists, mem_keys]

/-- Two dictionaries in which the same is found are one dictionary. -/
theorem eq_of_get? {d e : Dictionary β} (h : ∀ k, d.get? k = e.get? k) : d = e := by
  have hmem (x : String × β) : x ∈ d.entries ↔ x ∈ e.entries := by
    rw [← get?_eq_some_iff, ← get?_eq_some_iff, h]
  -- the order of the keys is strict, so no entry stands on both sides of another
  have hasymm : Std.Asymm fun a b : String × β => a.1 < b.1 := ⟨fun _ _ h => h.asymm⟩
  exact ext (List.Pairwise.eq_of_mem_iff d.increasing e.increasing fun {x} => hmem x)

theorem get?_map {γ : Type} (f : String → β → γ) (k : String) :
    (d.map f).get? k = (d.get? k).map (f k) := by
  refine Option.ext fun v => ?_
  rw [get?_eq_some_iff, Option.map_eq_some_iff]
  constructor
  · intro h
    obtain ⟨⟨j, w⟩, hw, heq⟩ := List.mem_map.mp h
    obtain ⟨rfl, rfl⟩ := Prod.mk.inj heq
    exact ⟨w, d.get?_eq_some_iff.mpr hw, rfl⟩
  · rintro ⟨w, hw, rfl⟩
    exact List.mem_map.mpr ⟨(k, w), d.get?_eq_some_iff.mp hw, rfl⟩

theorem ofList_concat (es : List (String × β)) (e : String × β) :
    ofList (es ++ [e]) = (ofList es).insert e.1 e.2 := by
  rw [ofList, List.foldl_append]
  rfl

/-- **A dictionary made of a list holds, for each key, its last entry.** -/
theorem get?_ofList (es : List (String × β)) (k : String) :
    (ofList es).get? k = es.reverse.lookup k := by
  induction es using List.reverseRecOn with
  | nil => rfl
  | append_singleton es e ih =>
    rw [ofList_concat, get?_insert, ih, List.reverse_append, List.reverse_singleton,
      List.singleton_append, List.lookup_cons]
    by_cases hk : e.1 = k
    · rw [if_pos hk, beq_iff_eq.mpr hk.symm]
    · rw [if_neg hk, beq_false_of_ne (Ne.symm hk)]

theorem mem_of_get?_ofList {es : List (String × β)} {k : String} {v : β}
    (h : (ofList es).get? k = some v) : (k, v) ∈ es := by
  rw [get?_ofList, List.lookup_eq_some_iff] at h
  obtain ⟨before, after, hes, -⟩ := h
  rw [← List.mem_reverse, hes]
  simp

theorem mem_keys_ofList {es : List (String × β)} {k : String} :
    k ∈ (ofList es).keys ↔ k ∈ es.map (·.1) := by
  rw [mem_keys, ← Option.isSome_iff_exists, get?_ofList, List.lookup_isSome_iff, List.mem_map]
  constructor
  · rintro ⟨e, he, hk⟩
    exact ⟨e, List.mem_reverse.mp he, (beq_iff_eq.mp hk).symm⟩
  · rintro ⟨e, he, rfl⟩
    exact ⟨e, List.mem_reverse.mpr he, beq_self_eq_true _⟩

/-- Where no key comes twice, every entry of the list is found. -/
theorem get?_ofList_of_nodup {es : List (String × β)} (h : (es.map (·.1)).Nodup) {k : String}
    {v : β} (he : (k, v) ∈ es) : (ofList es).get? k = some v := by
  obtain ⟨w, hw⟩ := (mem_keys _).mp (mem_keys_ofList.mpr (List.mem_map_of_mem he))
  have hn : (k, w) = (k, v) := List.inj_on_of_nodup_map h (mem_of_get?_ofList hw) he rfl
  rw [hw]
  exact congrArg (fun e => some e.2) hn

/-- A dictionary is made of its own entries. -/
theorem ofList_entries (d : Dictionary β) : ofList d.entries = d := by
  have hnodup : (d.entries.map (·.1)).Nodup := d.keys_increasing.imp ne_of_lt
  refine eq_of_get? fun k => Option.ext fun v => ⟨fun h => ?_, fun h => ?_⟩
  · exact d.get?_eq_some_iff.mpr (mem_of_get?_ofList h)
  · exact get?_ofList_of_nodup hnodup (d.get?_eq_some_iff.mp h)

section Tabulated

variable {ids : List String} (h : ids.Pairwise (· < ·)) (f : String → β)

include h

/-- A dictionary with one entry for each of the ids has these as its keys. -/
theorem keys_ofList_map : (ofList (ids.map fun id => (id, f id))).keys = ids := by
  refine eq_of_increasing (keys_increasing _) h fun id => ?_
  rw [mem_keys_ofList, List.map_map]
  exact iff_of_eq (congrArg (id ∈ ·) (List.map_id ids))

theorem get?_ofList_map {id : String} (hid : id ∈ ids) :
    (ofList (ids.map fun id => (id, f id))).get? id = some (f id) := by
  refine get?_ofList_of_nodup ?_ (List.mem_map_of_mem hid)
  rw [List.map_map]
  exact (List.map_id ids).symm ▸ h.imp ne_of_lt

end Tabulated

end Dictionary

end CodeCausality
