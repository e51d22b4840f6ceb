import CodeCausality.Store.Basic
import CodeCausality.Proofs.Record.Bytes

/-!
# Stores answer alike

A store in memory keeps records by name; a store on a disk keeps bytes by bytes. The bytes of names
are in the order of the names, and a record is read back from its bytes, so the one store is at any
time an image of the other.

* `Entries.place_map`, `Entries.find?_map`, `Entries.filter_map` -- entries may be given other keys
  of the same order;
* `DiskStore.Mirrors`, `DiskStore.step_mirrors` -- **each step is answered alike by a store on a
  disk and by the store in memory that it mirrors, and leaves it a mirror**;
* `LastPut`, `MemoryStore.Keeps`, `MemoryStore.step_keeps` -- what a store keeps is, under each
  name, the record that was put there last, unless it was removed since;
* `StoreStep.AnsweredBy`, `stores_answer_alike` -- **all steps are answered alike, by what was put
  before them**.
-/

namespace CodeCausality

open Binary (Bytes)
open Binary.Format (Fits float)

/-! ## 1. Other keys -/

namespace Entries

section Rekeyed

variable {κ ι β γ : Type} [LT κ] [DecidableLT κ] [DecidableEq κ] [LT ι] [DecidableLT ι]
  [DecidableEq ι] {f : κ → ι} (g : β → γ)

theorem place_map (hlt : ∀ {a b}, f a < f b ↔ a < b) (hf : Function.Injective f) (k : κ) (v : β)
    (es : List (κ × β)) :
    place (f k) (g v) (es.map (Prod.map f g)) = (place k v es).map (Prod.map f g) := by
  induction es with
  | nil => rfl
  | cons e rest ih =>
    simp only [List.map_cons, place, Prod.map_fst, hlt, hf.eq_iff]
    split
    · rfl
    · split
      · rfl
      · rw [ih, List.map_cons]

omit [LT κ] [DecidableLT κ] [LT ι] [DecidableLT ι] in
theorem find?_map (hf : Function.Injective f) (k : κ) (es : List (κ × β)) :
    find? (f k) (es.map (Prod.map f g)) = (find? k es).map g := by
  induction es with
  | nil => rfl
  | cons e rest ih =>
    simp only [List.map_cons, find?, Prod.map_fst, Prod.map_snd, hf.eq_iff, ih]
    split <;> rfl

end Rekeyed

theorem filter_map {κ ι β γ : Type} [BEq κ] [LawfulBEq κ] [BEq ι] [LawfulBEq ι] {f : κ → ι}
    (g : β → γ) (hf : Function.Injective f) (k : κ) (es : List (κ × β)) :
    (es.map (Prod.map f g)).filter (fun e => e.1 != f k) =
      (es.filter fun e => e.1 != k).map (Prod.map f g) := by
  rw [List.filter_map]
  congr 2
  funext e
  simp only [Function.comp_apply, Prod.map_fst, bne, hf.beq_eq]

end Entries

/-! ## 2. A store on a disk mirrors one in memory -/

/-- What a step puts is not too large to be kept as bytes. -/
def StoreStep.Fits : StoreStep → Prop
  | .put _ r => Binary.Format.Fits (Record.format float) r
  | _ => True

namespace DiskStore

theorem key_eq_utf8 (name : String) : key name = utf8 name := Binary.Format.toList_toByteArray name

/-- Names are read back from their keys. -/
theorem nameOf?_key (name : String) : nameOf? (key name) = some name := by
  rw [key_eq_utf8, nameOf?, Binary.Format.fromUTF8?_utf8]

theorem key_injective : Function.Injective key := fun a b h =>
  Option.some.inj ((nameOf?_key a).symm.trans (h ▸ nameOf?_key b))

/-- Keys are in the order of their names. -/
theorem key_lt_key {a b : String} : key a < key b ↔ a < b := by
  rw [key_eq_utf8, key_eq_utf8]
  exact lt_iff_lt_of_mono utf8_lt

/-- The tree has the store's entries, all as bytes, and none is too large for that. -/
structure Mirrors (d : DiskStore) (s : MemoryStore) : Prop where
  entries : d.tree.entries = s.records.entries.map (Prod.map key Record.toBytes)
  fits : ∀ name r, (name, r) ∈ s.records.entries → Fits (Record.format float) r

variable {d : DiskStore} {s : MemoryStore}

theorem mirrors_empty : Mirrors empty MemoryStore.empty where
  entries := rfl
  fits _ _ he := absurd he List.not_mem_nil

namespace Mirrors

theorem get?_key (h : d.Mirrors s) (name : String) :
    d.tree.get? (key name) = (s.get? name).map Record.toBytes := by
  rw [ByteTree.get?, h.entries]
  exact Entries.find?_map Record.toBytes key_injective name s.records.entries

/-- What is kept in memory is found on the disk. -/
theorem get (h : d.Mirrors s) (name : String) : d.get name = .ok (s.get? name) := by
  rw [DiskStore.get, h.get?_key]
  cases hr : s.get? name with
  | none => rfl
  | some r =>
    have hfits := h.fits name r (s.records.get?_eq_some_iff.mp hr)
    rw [Option.map_some]
    dsimp only
    rw [Record.ofBytes_toBytes hfits]
    rfl

theorem contains (h : d.Mirrors s) (name : String) : d.contains name = s.contains name := by
  rw [DiskStore.contains, h.get?_key, Option.isSome_map]
  rfl

theorem names (h : d.Mirrors s) : d.names = s.names := by
  have hname : (fun e : String × Record Float => nameOf? (key e.1)) = fun e => some e.1 :=
    funext fun e => nameOf?_key e.1
  rw [DiskStore.names, ByteTree.keys, h.entries, List.map_map, List.filterMap_map]
  show s.records.entries.filterMap (fun e => nameOf? (key e.1)) = s.records.entries.map (·.1)
  rw [hname]
  exact congrFun List.filterMap_eq_map _

theorem put (h : d.Mirrors s) (name : String) {r : Record Float}
    (hr : Fits (Record.format float) r) : (d.put name r).Mirrors (s.put name r) where
  entries := by
    show Entries.place (key name) r.toBytes d.tree.entries = _
    rw [h.entries]
    exact Entries.place_map Record.toBytes key_lt_key key_injective name r s.records.entries
  fits n q hq := by
    rcases Entries.mem_place hq with heq | hq
    · rw [(Prod.mk.inj heq).2]
      exact hr
    · exact h.fits n q hq

theorem remove (h : d.Mirrors s) (name : String) : (d.remove name).Mirrors (s.remove name) where
  entries := by
    show d.tree.entries.filter (fun e => e.1 != key name) = _
    rw [h.entries]
    exact Entries.filter_map Record.toBytes key_injective name s.records.entries
  fits n q hq := h.fits n q (List.mem_of_mem_filter hq)

end Mirrors

/-- **A store on a disk answers a step as the store in memory that it mirrors, and mirrors it
afterwards too.** -/
theorem step_mirrors (h : d.Mirrors s) {a : StoreStep} (ha : a.Fits) :
    (d.step a).1 = (s.step a).1 ∧ (d.step a).2.Mirrors (s.step a).2 := by
  cases a with
  | put name r => exact ⟨rfl, h.put name ha⟩
  | get name =>
    rw [step, h.get]
    exact ⟨rfl, h⟩
  | remove name => exact ⟨congrArg StoreAnswer.removed (h.contains name), h.remove name⟩
  | list => exact ⟨congrArg StoreAnswer.names h.names, h⟩
  | reopen => exact ⟨rfl, h⟩

/-- So it does for any number of steps. -/
theorem answersOf_mirrors (h : d.Mirrors s) {steps : List StoreStep} (hsteps : ∀ a ∈ steps, a.Fits) :
    answersOf step d steps = answersOf MemoryStore.step s steps := by
  induction steps generalizing d s with
  | nil => rfl
  | cons a rest ih =>
    obtain ⟨hanswer, hnext⟩ := step_mirrors h (hsteps a List.mem_cons_self)
    rw [answersOf, answersOf, hanswer, ih hnext fun b hb => hsteps b (List.mem_cons_of_mem a hb)]

end DiskStore

/-! ## 3. What a store keeps -/

/-- The step puts or removes the record of the name. -/
def StoreStep.Changes (name : String) : StoreStep → Prop
  | .put n _ => n = name
  | .remove n => n = name
  | _ => False

/-- The record was put under the name, and this was not changed since. -/
def LastPut (before : List StoreStep) (name : String) (r : Record Float) : Prop :=
  ∃ earlier later, before = earlier ++ .put name r :: later ∧ ∀ a ∈ later, ¬ a.Changes name

theorem not_lastPut_nil {name : String} {r : Record Float} : ¬ LastPut [] name r :=
  fun ⟨_, _, h, _⟩ => by simp at h

/-- The last step either puts the record or leaves it. -/
theorem lastPut_concat {before : List StoreStep} {a : StoreStep} {name : String}
    {r : Record Float} :
    LastPut (before ++ [a]) name r ↔
      a = .put name r ∨ LastPut before name r ∧ ¬ a.Changes name := by
  constructor
  · rintro ⟨earlier, later, h, hlater⟩
    rcases List.eq_nil_or_concat later with rfl | ⟨later, b, rfl⟩
    · exact .inl (List.singleton_inj.mp (List.append_inj' h rfl).2)
    · rw [List.concat_eq_append, ← List.cons_append, ← List.append_assoc] at h
      obtain ⟨rfl, hb⟩ := List.append_inj' h rfl
      obtain rfl := List.singleton_inj.mp hb
      exact .inr ⟨⟨earlier, later, rfl, fun c hc => hlater c (by simp [hc])⟩,
        hlater a (by simp)⟩
  · rintro (rfl | ⟨⟨earlier, later, rfl, hlater⟩, ha⟩)
    · exact ⟨before, [], rfl, fun a ha => absurd ha List.not_mem_nil⟩
    · refine ⟨earlier, later ++ [a], by simp, fun b hb => ?_⟩
      rcases List.mem_append.mp hb with hb | hb
      · exact hlater b hb
      · exact List.mem_singleton.mp hb ▸ ha

namespace MemoryStore

theorem get?_put (s : MemoryStore) (name : String) (r : Record Float) (other : String) :
    (s.put name r).get? other = if name = other then some r else s.get? other :=
  s.records.get?_insert name r other

theorem get?_remove_eq_some_iff {s : MemoryStore} {name other : String} {r : Record Float} :
    (s.remove name).get? other = some r ↔ s.get? other = some r ∧ other ≠ name := by
  rw [get?, get?, Dictionary.get?_eq_some_iff, Dictionary.get?_eq_some_iff]
  show (other, r) ∈ s.records.entries.filter (fun e => e.1 != name) ↔ _
  rw [List.mem_filter, bne_iff_ne]

/-- Under each name is the record that was put there last. -/
def Keeps (s : MemoryStore) (before : List StoreStep) : Prop :=
  ∀ name r, s.get? name = some r ↔ LastPut before name r

theorem keeps_empty : empty.Keeps [] := fun _ _ =>
  iff_of_false (fun h => nomatch h) not_lastPut_nil

variable {s : MemoryStore} {before : List StoreStep}

/-- **Each step leaves a store that keeps what was put up to and with it.** -/
theorem step_keeps (h : s.Keeps before) (a : StoreStep) : (s.step a).2.Keeps (before ++ [a]) := by
  intro name r
  rw [lastPut_concat, ← h name r]
  cases a with
  | put n q =>
    rw [step, get?_put]
    by_cases hn : n = name
    · simp [hn, StoreStep.Changes]
    · simp [hn, StoreStep.Changes]
  | remove n =>
    rw [step, get?_remove_eq_some_iff]
    simp [StoreStep.Changes, eq_comm]
  | get n => simp [step, StoreStep.Changes]
  | list => simp [step, StoreStep.Changes]
  | reopen => simp [step, StoreStep.Changes]

end MemoryStore

/-! ## 4. Answers -/

/-- What a step is to be answered if the given steps were taken before it. -/
def StoreStep.AnsweredBy (before : List StoreStep) : StoreStep → StoreAnswer → Prop
  | .put _ _, x => x = .done
  | .get name, x => ∃ found, x = .found found ∧ ∀ r, found = some r ↔ LastPut before name r
  | .remove name, x => ∃ b, x = .removed b ∧ (b = true ↔ ∃ r, LastPut before name r)
  | .list, x => ∃ names, x = .names names ∧ names.Pairwise (· < ·) ∧
      ∀ name, name ∈ names ↔ ∃ r, LastPut before name r
  | .reopen, x => x = .done

namespace MemoryStore

variable {s : MemoryStore} {before : List StoreStep}

theorem answeredBy_step (h : s.Keeps before) (a : StoreStep) :
    a.AnsweredBy before (s.step a).1 := by
  have hkept (name : String) : name ∈ s.names ↔ ∃ r, LastPut before name r := by
    rw [names, Dictionary.mem_keys]
    exact exists_congr (h name)
  cases a with
  | put name r => rfl
  | get name => exact ⟨s.get? name, rfl, h name⟩
  | remove name => exact ⟨s.contains name, rfl, s.records.contains_iff.trans (hkept name)⟩
  | list => exact ⟨s.names, rfl, s.records.keys_increasing, hkept⟩
  | reopen => rfl

/-- Each of any number of steps is answered by what was put before it. -/
theorem answersOf_answeredBy (h : s.Keeps before) (earlier : List StoreStep) (a : StoreStep)
    (later : List StoreStep) :
    ∃ x, (answersOf step s (earlier ++ a :: later))[earlier.length]? = some x ∧
      a.AnsweredBy (before ++ earlier) x := by
  induction earlier generalizing s before with
  | nil => exact ⟨_, rfl, (List.append_nil before).symm ▸ answeredBy_step h a⟩
  | cons b earlier ih =>
    obtain ⟨x, hx, hanswer⟩ := ih (step_keeps h b)
    rw [List.append_assoc] at hanswer
    exact ⟨x, hx, hanswer⟩

end MemoryStore

theorem length_answersOf {σ : Type} (step : σ → StoreStep → StoreAnswer × σ) (s : σ)
    (steps : List StoreStep) : (answersOf step s steps).length = steps.length := by
  induction steps generalizing s with
  | nil => rfl
  | cons a rest ih => exact congrArg (· + 1) (ih _)

/-- **Stores that start empty give the same answers to any steps, wherever the one on the disk is
opened anew among them, and each step is answered by the steps before it**: a name has the record
that was put there last and not removed since, and the list has the names with a record, each once
and in order. No record that is put may have 2^64 bytes or more. -/
theorem stores_answer_alike (steps : List StoreStep) (hsteps : ∀ a ∈ steps, a.Fits) :
    answersOf DiskStore.step .empty steps = answersOf MemoryStore.step .empty steps ∧
    (answersOf MemoryStore.step .empty steps).length = steps.length ∧
    ∀ earlier a later, steps = earlier ++ a :: later →
      ∃ x, (answersOf MemoryStore.step .empty steps)[earlier.length]? = some x ∧
        a.AnsweredBy earlier x := by
  refine ⟨DiskStore.answersOf_mirrors DiskStore.mirrors_empty hsteps, length_answersOf _ _ _, ?_⟩
  rintro earlier a later rfl
  exact MemoryStore.answersOf_answeredBy MemoryStore.keeps_empty earlier a later

/-- What was put is found after the store is opened anew, and what was removed is not listed. -/
theorem found_after_reopen_not_listed_after_remove :
    let r : Record Float := .withNumbers (0 / 0) (-0.0)
    let steps : List StoreStep :=
      [.put "é" r, .put "z" r, .list, .remove "z", .reopen, .get "é", .list]
    (∀ a ∈ steps, a.Fits) ∧ answersOf DiskStore.step .empty steps =
      [.done, .done, .names ["z", "é"], .removed true, .done, .found (some r), .names ["é"]] := by
  intro r steps
  have hsteps : ∀ a ∈ steps, a.Fits := by
    have hr : Fits (Record.format float) r := Record.fits_withNumbers.2
    simp only [steps, List.forall_mem_cons, StoreStep.Fits]
    exact ⟨hr, hr, trivial, trivial, trivial, trivial, trivial, fun _ ha => nomatch ha⟩
  refine ⟨hsteps, (stores_answer_alike steps hsteps).1.trans ?_⟩
  clear_value r
  cbv

end CodeCausality
