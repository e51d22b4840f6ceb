import Mathlib.Data.List.Forall2

/-!
# Computations that may fail

* `bind_eq_ok_iff`, `map_eq_ok_iff`, `mapError_eq_ok_iff` -- a sequence succeeds if its parts do;
* `exists_ok_of_toOption` -- what a computation gives, from what is seen of it;
* `mapM_eq_ok_iff` -- **a list is sent through a check exactly if each member is, in its place**;
* `getElem?_of_mapM` -- the member that came of a position;
* `mapM_eq_some_iff` -- the same of a reader that gives no reason when it refuses;
* `map_eq_map_of_forall₂`, `forall₂_of_map_eq_map`, `flatMap_eq_of_forall₂`,
  `filterMap_eq_of_forall₂`, `exists_of_mem_forall₂`, `exists_getElem?_of_forall₂` -- what two lists
  share that are related member by member.
-/

namespace CodeCausality

variable {β γ ε : Type}

theorem bind_eq_ok_iff {x : Except ε β} {f : β → Except ε γ} {c : γ} :
    (x >>= f) = .ok c ↔ ∃ b, x = .ok b ∧ f b = .ok c := by
  cases x with
  | error e => exact iff_of_false (fun h => (nomatch h)) fun ⟨_, h, _⟩ => (nomatch h)
  | ok b => exact ⟨fun h => ⟨b, rfl, h⟩, fun ⟨_, hb, h⟩ => Except.ok.inj hb ▸ h⟩

theorem map_eq_ok_iff {x : Except ε β} {f : β → γ} {c : γ} :
    x.map f = .ok c ↔ ∃ b, x = .ok b ∧ f b = c := by
  cases x with
  | error e => exact iff_of_false (fun h => (nomatch h)) fun ⟨_, h, _⟩ => (nomatch h)
  | ok b =>
    exact ⟨fun h => ⟨b, rfl, Except.ok.inj h⟩, fun ⟨_, hb, h⟩ =>
      congrArg _ (Except.ok.inj hb ▸ h)⟩

theorem exists_ok_of_toOption {x : Except ε β} {f : β → γ} {c : γ}
    (h : x.toOption.map f = some c) : ∃ b, x = .ok b ∧ f b = c := by
  cases x with
  | error e => cases h
  | ok b => exact ⟨b, rfl, Option.some.inj h⟩

theorem map_eq_error_iff {x : Except ε β} {f : β → γ} {e : ε} :
    x.map f = .error e ↔ x = .error e := by
  cases x with
  | error d => exact ⟨fun h => congrArg _ (Except.error.inj h), fun h => congrArg _
      (Except.error.inj h)⟩
  | ok b => exact iff_of_false (fun h => (nomatch h)) fun h => (nomatch h)

theorem mapError_eq_ok_iff {δ : Type} {x : Except ε β} {f : ε → δ} {b : β} :
    x.mapError f = .ok b ↔ x = .ok b := by
  cases x with
  | error e => exact iff_of_false (fun h => (nomatch h)) fun h => (nomatch h)
  | ok c => exact ⟨fun h => congrArg _ (Except.ok.inj h), fun h => congrArg _ (Except.ok.inj h)⟩

theorem mapM_eq_ok_iff {f : β → Except ε γ} {bs : List β} {cs : List γ} :
    bs.mapM f = .ok cs ↔ List.Forall₂ (fun b c => f b = .ok c) bs cs := by
  induction bs generalizing cs with
  | nil =>
    rw [List.mapM_nil, List.forall₂_nil_left_iff]
    exact ⟨fun h => (Except.ok.inj h).symm, fun h => congrArg _ h.symm⟩
  | cons b bs ih =>
    rw [List.mapM_cons, bind_eq_ok_iff, List.forall₂_cons_left_iff]
    constructor
    · rintro ⟨c, hc, h⟩
      obtain ⟨cs', hcs, h⟩ := bind_eq_ok_iff.mp h
      exact ⟨c, cs', hc, ih.mp hcs, (Except.ok.inj h).symm⟩
    · rintro ⟨c, cs', hc, hcs, rfl⟩
      exact ⟨c, hc, bind_eq_ok_iff.mpr ⟨cs', ih.mpr hcs, rfl⟩⟩

theorem exists_mapM_of_forall {f : β → Except ε γ} {bs : List β} (h : ∀ b ∈ bs, ∃ c, f b = .ok c) :
    ∃ cs, bs.mapM f = .ok cs := by
  induction bs with
  | nil => exact ⟨[], rfl⟩
  | cons b bs ih =>
    obtain ⟨c, hc⟩ := h b List.mem_cons_self
    obtain ⟨cs, hcs⟩ := ih fun d hd => h d (List.mem_cons_of_mem _ hd)
    exact ⟨c :: cs, mapM_eq_ok_iff.mpr (.cons hc (mapM_eq_ok_iff.mp hcs))⟩

theorem length_of_mapM {f : β → Except ε γ} {bs : List β} {cs : List γ} (h : bs.mapM f = .ok cs) :
    cs.length = bs.length := (mapM_eq_ok_iff.mp h).length_eq.symm

/-- What stands at a position came of what stood there. -/
theorem getElem?_of_mapM {f : β → Except ε γ} {bs : List β} {cs : List γ} (h : bs.mapM f = .ok cs)
    {i : Nat} {b : β} (hb : bs[i]? = some b) : ∃ c, cs[i]? = some c ∧ f b = .ok c := by
  obtain ⟨hi, hb⟩ := List.getElem?_eq_some_iff.mp hb
  have hi' : i < cs.length := length_of_mapM h ▸ hi
  refine ⟨cs[i], List.getElem?_eq_getElem hi', ?_⟩
  rw [← hb]
  exact (List.forall₂_iff_get.mp (mapM_eq_ok_iff.mp h)).2 i hi hi'

theorem exists_of_mem_mapM {f : β → Except ε γ} {bs : List β} {cs : List γ}
    (h : bs.mapM f = .ok cs) {c : γ} (hc : c ∈ cs) : ∃ b ∈ bs, f b = .ok c := by
  obtain ⟨i, hi, rfl⟩ := List.mem_iff_getElem.mp hc
  have hi' : i < bs.length := length_of_mapM h ▸ hi
  exact ⟨bs[i], List.getElem_mem hi', (List.forall₂_iff_get.mp (mapM_eq_ok_iff.mp h)).2 i hi' hi⟩

theorem mapM_eq_some_iff {f : β → Option γ} {bs : List β} {cs : List γ} :
    bs.mapM f = some cs ↔ List.Forall₂ (fun b c => f b = some c) bs cs := by
  induction bs generalizing cs with
  | nil =>
    rw [List.mapM_nil, List.forall₂_nil_left_iff]
    exact ⟨fun h => (Option.some.inj h).symm, fun h => congrArg _ h.symm⟩
  | cons b bs ih =>
    rw [List.mapM_cons, List.forall₂_cons_left_iff]
    simp only [bind, Option.bind_eq_some_iff, ih]
    constructor
    · rintro ⟨c, hc, cs', hcs, h⟩
      exact ⟨c, cs', hc, hcs, (Option.some.inj h).symm⟩
    · rintro ⟨c, cs', hc, hcs, rfl⟩
      exact ⟨c, hc, cs', hcs, rfl⟩

/-! ## Related lists -/

theorem map_eq_map_of_forall₂ {δ : Type} {f : β → δ} {g : γ → δ} {bs : List β} {cs : List γ}
    (h : List.Forall₂ (fun b c => f b = g c) bs cs) : bs.map f = cs.map g := by
  rw [← List.forall₂_eq_eq_eq, List.forall₂_map_left_iff, List.forall₂_map_right_iff]
  exact h

theorem flatMap_eq_of_forall₂ {δ : Type} {f : β → List δ} {g : γ → List δ} {bs : List β}
    {cs : List γ} (h : List.Forall₂ (fun b c => f b = g c) bs cs) : bs.flatMap f = cs.flatMap g := by
  rw [List.flatMap_def, List.flatMap_def, map_eq_map_of_forall₂ h]

/-- Where all members have a value, no place is left out. -/
theorem filterMap_eq_of_forall₂ {f : β → Option γ} {bs : List β} {cs : List γ}
    (h : List.Forall₂ (fun b c => f b = some c) bs cs) : bs.filterMap f = cs := by
  induction h with
  | nil => rfl
  | cons hbc _ ih => rw [List.filterMap_cons_some hbc, ih]

theorem forall₂_of_map_eq_map {δ : Type} {f : β → δ} {g : γ → δ} {R : β → γ → Prop} {bs : List β}
    {cs : List γ} (h : bs.map f = cs.map g) (hR : ∀ b ∈ bs, ∀ c ∈ cs, f b = g c → R b c) :
    List.Forall₂ R bs cs := by
  induction bs generalizing cs with
  | nil =>
    obtain rfl := List.map_eq_nil_iff.mp h.symm
    exact .nil
  | cons b bs ih =>
    obtain ⟨c, cs, rfl, hbc, hrest⟩ := List.map_eq_cons_iff.mp h.symm
    refine .cons (hR b List.mem_cons_self c List.mem_cons_self hbc.symm) (ih hrest.symm ?_)
    exact fun a ha d hd => hR a (List.mem_cons_of_mem _ ha) d (List.mem_cons_of_mem _ hd)

theorem exists_of_mem_forall₂ {R : β → γ → Prop} {bs : List β} {cs : List γ}
    (h : List.Forall₂ R bs cs) {c : γ} (hc : c ∈ cs) : ∃ b ∈ bs, R b c := by
  induction h with
  | nil => exact absurd hc List.not_mem_nil
  | cons hbc _ ih =>
    rcases List.mem_cons.mp hc with rfl | hc
    · exact ⟨_, List.mem_cons_self, hbc⟩
    · obtain ⟨b, hb, hbc⟩ := ih hc
      exact ⟨b, List.mem_cons_of_mem _ hb, hbc⟩

theorem exists_getElem?_of_forall₂ {R : β → γ → Prop} {bs : List β} {cs : List γ}
    (h : List.Forall₂ R bs cs) {i : Nat} {b : β} (hb : bs[i]? = some b) :
    ∃ c, cs[i]? = some c ∧ R b c := by
  obtain ⟨hi, rfl⟩ := List.getElem?_eq_some_iff.mp hb
  have hi' : i < cs.length := h.length_eq ▸ hi
  exact ⟨cs[i], List.getElem?_eq_getElem hi', (List.forall₂_iff_get.mp h).2 i hi hi'⟩

end CodeCausality
