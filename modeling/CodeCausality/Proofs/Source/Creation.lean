import CodeCausality.Proofs.Source.Extraction
import CodeCausality.Proofs.Source.Invariant
import CodeCausality.Source.Scope

/-!
# The elements that a walk creates

After the function and its parameters, each new element of a walk has an id that was not used, and
that is neither the return nor a parameter of any other function:

* `Inside`, `Private` -- an id inside of another one; an id that is a plain name inside of no function
  but one;
* `Owned` -- both; `owned_value`, `owned_effect` -- the ids that are tried for a value and for an
  effect are;
* `Grown` -- what has been created after some ids;
* `grown_define`, `grown_effect` -- what a single construct creates;
* `grown_invariant`, `grown_body` -- **and so what the walk creates**, since each construct keeps it.
-/

namespace CodeCausality

namespace Source

/-! ## 1. Ids -/

/-- What stands after the last mark of its kind is the same, and so is the mark. -/
theorem append_cons_inj {a b x y : List Char} {p q : Char} (h : a ++ p :: x = b ++ q :: y)
    (hx : q ∉ x) (hy : p ∉ y) : a = b ∧ p = q ∧ x = y := by
  rcases List.append_eq_append_iff.mp h with ⟨c, rfl, hc⟩ | ⟨c, rfl, hc⟩
  · cases c with
    | nil =>
      obtain ⟨rfl, rfl⟩ := List.cons.inj hc
      exact ⟨(List.append_nil a).symm, rfl, rfl⟩
    | cons d c =>
      obtain ⟨rfl, rfl⟩ := List.cons.inj hc
      exact absurd (List.mem_append_right c List.mem_cons_self) hx
  · cases c with
    | nil =>
      obtain ⟨rfl, rfl⟩ := List.cons.inj hc
      exact ⟨List.append_nil b, rfl, rfl⟩
    | cons d c =>
      obtain ⟨rfl, rfl⟩ := List.cons.inj hc
      exact absurd (List.mem_append_right c List.mem_cons_self) hy

theorem toList_within (outer x : String) :
    (within outer x).toList = (outer.toList ++ [':']) ++ ':' :: x.toList := by
  simp [within]

/-- **An id has one last segment.** -/
theorem within_eq_within_iff {outer outer' x y : String} (hx : ':' ∉ x.toList)
    (hy : ':' ∉ y.toList) : within outer x = within outer' y ↔ outer = outer' ∧ x = y := by
  refine ⟨fun h => ?_, fun ⟨houter, hxy⟩ => by rw [houter, hxy]⟩
  have hlist := congrArg String.toList h
  rw [toList_within, toList_within] at hlist
  obtain ⟨houter, -, hxy⟩ := append_cons_inj hlist hx hy
  exact ⟨String.toList_injective (List.append_cancel_right houter), String.toList_injective hxy⟩

/-- The id is the other one with something after it. -/
def Inside (outer id : String) : Prop := ∃ x, id = within outer x

/-- Whatever function the id is a plain name inside of is the given one. -/
def Private (function id : String) : Prop :=
  ∀ outer x, Plain x → id = within outer x → outer = function

/-- The id stands inside of the function, and as a plain name inside of no other. -/
structure Owned (function id : String) : Prop where
  inside : Inside function id
  alone : Private function id

theorem owned_within {function x : String} (hx : ':' ∉ x.toList) :
    Owned function (within function x) :=
  ⟨⟨x, rfl⟩, fun _ _ hy h => ((within_eq_within_iff hx hy.noColon).mp h).1.symm⟩

/-- What has an `@` in its last segment is no plain name. -/
theorem private_of_at {function base x : String} (hx : ':' ∉ x.toList) :
    Private function (base ++ "@" ++ x) := fun outer y hy h => by
  have hlist := congrArg String.toList h
  rw [toList_within] at hlist
  simp only [String.toList_append, List.append_assoc] at hlist
  rw [← List.append_assoc outer.toList] at hlist
  have hmarks := (append_cons_inj (a := base.toList) (p := '@') (x := x.toList) hlist hx hy.noAt).2.1
  exact absurd hmarks (by decide)

theorem not_mem_toDigits {c : Char} (hc : c.isDigit = false) (n : Nat) :
    c ∉ Nat.toDigits 10 n := fun hmem => by
  rw [Nat.isDigit_of_mem_toDigits (by decide) (by decide) hmem] at hc
  cases hc

theorem fresh_eq (used : List String) (base : String) :
    Walk.fresh used base = base ∨ ∃ n : Nat, Walk.fresh used base = base ++ "#" ++ toString n := by
  have hfrom (tries n : Nat) :
      ∃ k : Nat, Walk.freshFrom used base tries n = base ++ "#" ++ toString k := by
    induction tries generalizing n with
    | zero => exact ⟨n, rfl⟩
    | succ tries ih =>
      rw [Walk.freshFrom]
      split
      · exact ih (n + 1)
      · exact ⟨n, rfl⟩
  unfold Walk.fresh
  split
  · exact .inr (hfrom _ _)
  · exact .inl rfl

theorem toList_versioned (x : String) {n : Nat} (hn : n ≠ 1) :
    (versioned x n).toList = x.toList ++ '@' :: Nat.toDigits 10 n := by
  simp [versioned, hn]

theorem not_mem_versioned {c : Char} {x : String} (hdigit : c.isDigit = false) (hat : c ≠ '@')
    (hx : c ∉ x.toList) (n : Nat) : c ∉ (versioned x n).toList := by
  by_cases hn : n = 1
  · rwa [versioned, if_pos hn]
  · simp [toList_versioned x hn, hx, hat, not_mem_toDigits hdigit]

/-- A version is part of the last segment. -/
theorem versionId_eq (function x : String) (n : Nat) : versionId function x n =
    if n = 1 then within function x else within function x ++ "@" ++ toString n := by
  unfold versionId versioned
  split
  · rfl
  · simp only [within, String.append_assoc]

/-- The id of a value ends in a name that goes on after the value's with digits and marks only. -/
theorem exists_value_name (function x : String) (used : List String) (version : Nat) :
    ∃ y, Walk.fresh used (if version = 1 then within function x
        else within function x ++ "@" ++ toString version) = within function y ∧
      ∀ c : Char, c.isDigit = false → c ≠ '@' → c ≠ '#' → c ∉ x.toList → c ∉ y.toList := by
  rw [← versionId_eq]
  rcases fresh_eq used (versionId function x version) with hfresh | ⟨n, hfresh⟩
  · exact ⟨versioned x version, hfresh, fun c hc hat _ hx => not_mem_versioned hc hat hx version⟩
  · refine ⟨versioned x version ++ "#" ++ toString n, ?_, fun c hc hat hnumber hx => ?_⟩
    · rw [hfresh]
      simp only [versionId, within, String.append_assoc]
    · simp [not_mem_versioned hc hat hx version, hnumber, not_mem_toDigits hc]

theorem owned_value {function x : String} (hx : ':' ∉ x.toList) (used : List String)
    (version : Nat) : Owned function (Walk.fresh used
      (if version = 1 then within function x
        else within function x ++ "@" ++ toString version)) := by
  obtain ⟨y, hfresh, hy⟩ := exists_value_name function x used version
  rw [hfresh]
  exact owned_within (hy ':' rfl (by decide) (by decide) hx)

theorem owned_effect (function name : String) (used : List String) (line : Nat) :
    Owned function (Walk.fresh used (within function name ++ "@" ++ toString line)) := by
  rcases fresh_eq used (within function name ++ "@" ++ toString line) with hfresh | ⟨n, hfresh⟩
  · rw [hfresh]
    refine ⟨⟨name ++ "@" ++ toString line, by simp only [within, String.append_assoc]⟩, ?_⟩
    exact private_of_at (by simp [not_mem_toDigits (c := ':') rfl])
  · have hnumbered : within function name ++ "@" ++ toString line ++ "#" ++ toString n =
        within function name ++ "@" ++ (toString line ++ "#" ++ toString n) := by
      simp only [String.append_assoc]
    rw [hfresh, hnumbered]
    refine ⟨⟨name ++ "@" ++ (toString line ++ "#" ++ toString n),
      by simp only [within, String.append_assoc]⟩, ?_⟩
    exact private_of_at (by simp [not_mem_toDigits (c := ':') rfl])

/-! ## 2. What is created -/

/-- The ids after some have been created: each of them unused, and owned by the function. The latest
stands first. -/
inductive Grown (function : String) (old : List String) : List String → Prop
  | refl : Grown function old old
  | create {ids : List String} {id : String} (h : Grown function old ids) (hnew : id ∉ ids)
      (howned : Owned function id) : Grown function old (id :: ids)

namespace Grown

variable {function id : String} {old ids ids' : List String}

theorem of_eq (h : ids = old) : Grown function old ids := h ▸ refl

theorem trans (h : Grown function old ids) (h' : Grown function ids ids') :
    Grown function old ids' := by
  induction h' with
  | refl => exact h
  | create _ hnew howned ih => exact ih.create hnew howned

theorem suffix (h : Grown function old ids) : old <:+ ids := by
  induction h with
  | refl => exact List.suffix_refl old
  | create _ _ _ ih => exact ih.trans (List.suffix_cons _ _)

theorem mem_or_owned (h : Grown function old ids) (hid : id ∈ ids) :
    id ∈ old ∨ Owned function id := by
  induction h with
  | refl => exact .inl hid
  | create _ _ howned ih =>
    rcases List.mem_cons.mp hid with rfl | hid
    · exact .inr howned
    · exact ih hid

theorem nodup (h : Grown function old ids) (hold : old.Nodup) : ids.Nodup := by
  induction h with
  | refl => exact hold
  | create _ hnew _ ih => exact List.nodup_cons.mpr ⟨hnew, ih⟩

/-- **What is created has an id that was not used.** -/
theorem not_mem_earlier (h : Grown function old ids) {later earlier : List String}
    (hids : ids = later ++ id :: earlier) (hold : old <:+ earlier) : id ∉ earlier := by
  induction h generalizing later with
  | refl =>
    have hlength := hold.length_le
    rw [hids, List.length_append, List.length_cons] at hlength
    omega
  | create _ hnew _ ih =>
    cases later with
    | nil =>
      obtain ⟨rfl, rfl⟩ := List.cons.inj hids
      exact hnew
    | cons _ later => exact ih (List.cons.inj hids).2

end Grown

namespace Walk

section Constructs

variable {α : Type} {s : Setting} {guards sources : List String}

theorem ids_returns (w : Walk α) : (w.returns s guards sources).ids = w.ids := by
  unfold returns
  split
  · rw [ids_guarded, ids_flow]
  · rfl

theorem ids_calls (callee : Signature) (args : List Expr) (w : Walk α) :
    (w.calls s callee args).ids = w.ids := by
  unfold calls
  have hrelated : (w.relate s.function callee.id .call : Walk α).ids = w.ids := rfl
  generalize w.relate s.function callee.id .call = related at hrelated ⊢
  rw [← hrelated]
  clear hrelated
  generalize callee.params.zip args = pairs
  induction pairs generalizing related with
  | nil => rfl
  | cons q pairs ih =>
    rw [List.foldl_cons, ih]
    obtain ⟨param, arg⟩ := q
    cases param with
    | none => rfl
    | some x => exact ids_flow _ _ related

theorem grown_define {name : String} (hname : Named name) (line : Nat) (w : Walk α) :
    Grown s.function w.ids (w.define s guards sources line name).ids := by
  have hids : (w.define s guards sources line name).ids = fresh w.ids
      (if (w.versions.get? name).getD 0 + 1 = 1 then within s.function name
        else within s.function name ++ "@" ++ toString ((w.versions.get? name).getD 0 + 1)) ::
          w.ids := by
    unfold define
    dsimp only
    exact ids_flow _ _ _
  rw [hids]
  exact Grown.refl.create (fresh_not_mem _ _) (owned_value hname.1.noColon _ _)

theorem grown_effect (line : Nat) (name : String) (w : Walk α) :
    Grown s.function w.ids (w.effect s guards sources line name).ids := by
  have hids : (w.effect s guards sources line name).ids =
      fresh w.ids (within s.function name ++ "@" ++ toString line) :: w.ids := by
    unfold effect
    dsimp only
    rw [ids_guarded, ids_flow]
    rfl
  rw [hids]
  exact Grown.refl.create (fresh_not_mem _ _) (owned_effect _ _ _ _)

/-- **Each construct keeps what has been created after some ids.** -/
theorem grown_invariant (s : Setting) (old : List String) :
    Invariant s (fun _ => True) fun w : Walk α => Grown s.function old w.ids where
  reads _ _ _ _ := trivial
  define h _ _ line _ hname := h.trans (grown_define hname line _)
  effect h _ _ line name := h.trans (grown_effect line name _)
  returns h _ _ := h.trans (.of_eq (ids_returns _))
  calls h callee args := h.trans (.of_eq (ids_calls callee args _))

/-- **What the walk through a body creates.** -/
theorem grown_body {b : List Stmt} {w : Walk α} (h : SpelledBody b) :
    Grown s.function w.ids (body s b w).ids :=
  (grown_invariant s w.ids).keeps_body h .refl

end Constructs

end Walk

end Source

end CodeCausality
