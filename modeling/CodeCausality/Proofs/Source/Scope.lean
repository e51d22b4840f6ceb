import Mathlib.Data.List.Induction
import CodeCausality.Source.Scope

/-!
# The version in scope

A name that is given a value again gets a higher version, whatever block this is in. So of the
variables of a name that are in scope, inner ones have higher versions:

* `Scope.after_concat` -- a text is followed event by event;
* `Descending` -- inner versions are higher, and none is above the latest; `descending_after` -- this
  holds after every part of a text;
* `latest_pos_of_current?` -- a name that is in scope has been given a value;
* `current?_eq_latest_iff` -- **the version in scope is the latest one if and only if the variable
  that has it is still in scope**;
* `closed_expr` -- an expression, whatever blocks it has, binds no name outside of it;
  `current?_after_block` -- **after a block, the outer version of a name is in scope again.**
-/

namespace CodeCausality

namespace Source

namespace Scope

section Steps

variable {params : List (Option String)} {events : List Event} {s : Scope}

theorem after_append (earlier later : List Event) :
    after params (earlier ++ later) = later.foldl step (after params earlier) :=
  List.foldl_append

@[simp]
theorem after_concat (ev : Event) : after params (events ++ [ev]) = (after params events).step ev :=
  after_append events [ev]

@[simp]
theorem latest_enter : (s.step .enter).latest = s.latest := rfl

@[simp]
theorem latest_leave : (s.step .leave).latest = s.latest := rfl

theorem latest_give {binds : Bool} {x y : String} {reads : List Read} {inside since : Nat} :
    (s.step (.give binds x reads inside since)).latest y =
      if y = x then s.latest x + 1 else s.latest y := rfl

end Steps

/-! ## 1. Variables in scope -/

variable {s : Scope} {x y : String} {n : Nat}

theorem outside_suffix : ∀ visible : List Scoped, outside visible <:+ visible
  | [] => List.suffix_refl _
  | .block :: rest => List.suffix_cons _ rest
  | .binding _ _ :: rest => (outside_suffix rest).trans (List.suffix_cons _ rest)

/-- Another version of one name changes those of no other. -/
theorem versions_renew_of_ne (hne : y ≠ x) (n : Nat) : ∀ visible : List Scoped,
    (renew x n visible).filterMap (Scoped.version? y) = visible.filterMap (Scoped.version? y)
  | [] => rfl
  | .block :: rest => versions_renew_of_ne hne n rest
  | .binding z m :: rest => by
    rw [renew]
    split
    · rename_i heq
      subst heq
      simp [Scoped.version?, Ne.symm hne]
    · simp only [List.filterMap_cons, versions_renew_of_ne hne n rest]

theorem versionsOf_give_of_ne (hne : y ≠ x) (binds : Bool) (reads : List Read)
    (inside since : Nat) :
    (s.step (.give binds x reads inside since)).versionsOf y = s.versionsOf y := by
  cases binds with
  | true => exact List.filterMap_cons_none (if_neg (Ne.symm hne))
  | false => exact versions_renew_of_ne hne _ s.visible

theorem versionsOf_leave_sublist (s : Scope) (y : String) :
    ((s.step .leave).versionsOf y).Sublist (s.versionsOf y) :=
  (outside_suffix s.visible).sublist.filterMap _

/-- Of the versions of a name, the innermost is replaced. -/
theorem versions_renew (n : Nat) : ∀ visible : List Scoped,
    (renew x n visible).filterMap (Scoped.version? x) = [] ∨
      ∃ m rest, visible.filterMap (Scoped.version? x) = m :: rest ∧
        (renew x n visible).filterMap (Scoped.version? x) = n :: rest
  | [] => .inl rfl
  | .block :: rest => versions_renew n rest
  | .binding z m :: rest => by
    rw [renew]
    split
    · rename_i heq
      subst heq
      exact .inr ⟨m, rest.filterMap (Scoped.version? z), List.filterMap_cons_some (if_pos rfl),
        List.filterMap_cons_some (if_pos rfl)⟩
    · rename_i hne
      simpa [Scoped.version?, hne] using versions_renew n rest

/-! ## 2. The order of versions -/

/-- Inner variables of a name have higher versions, none of them above the latest. -/
def Descending (s : Scope) : Prop := ∀ y, (s.latest y :: s.versionsOf y).Pairwise (· ≥ ·)

/-- A version that is not below the first may come before it. -/
theorem pairwise_cons_cons {m : Nat} {rest : List Nat} (h : (m :: rest).Pairwise (· ≥ ·))
    (hmn : m ≤ n) : (n :: n :: rest).Pairwise (· ≥ ·) := by
  obtain ⟨habove, hrest⟩ := List.pairwise_cons.mp h
  have hn : ∀ k ∈ rest, n ≥ k := fun k hk => Nat.le_trans (habove k hk) hmn
  exact List.pairwise_cons.mpr
    ⟨List.forall_mem_cons.mpr ⟨Nat.le_refl n, hn⟩, List.pairwise_cons.mpr ⟨hn, hrest⟩⟩

theorem Descending.give (h : s.Descending) (binds : Bool) (x : String) (reads : List Read)
    (inside since : Nat) : (s.step (.give binds x reads inside since)).Descending := by
  intro y
  by_cases hyx : y = x
  · subst hyx
    have hlatest : (s.step (.give binds y reads inside since)).latest y = s.latest y + 1 := if_pos rfl
    rw [hlatest]
    cases binds with
    | true =>
      have hversions : (s.step (.give true y reads inside since)).versionsOf y =
          (s.latest y + 1) :: s.versionsOf y := List.filterMap_cons_some (if_pos rfl)
      rw [hversions]
      exact pairwise_cons_cons (h y) (Nat.le_succ _)
    | false =>
      rcases versions_renew (s.latest y + 1) s.visible with hnone | ⟨m, rest, hold, hversions⟩
      · rw [show (s.step (.give false y reads inside since)).versionsOf y = [] from hnone]
        exact List.pairwise_singleton _ _
      · have hbefore := h y
        rw [show s.versionsOf y = m :: rest from hold] at hbefore
        rw [show (s.step (.give false y reads inside since)).versionsOf y = _ from hversions]
        refine pairwise_cons_cons (hbefore.sublist ?_) (Nat.le_succ _)
        exact (List.sublist_cons_self m rest).cons_cons _
  · have hlatest : (s.step (.give binds x reads inside since)).latest y = s.latest y := if_neg hyx
    rw [hlatest, versionsOf_give_of_ne hyx]
    exact h y

theorem Descending.step (h : s.Descending) : ∀ ev : Event, (s.step ev).Descending
  | .enter => h
  | .leave => fun y => (h y).sublist ((versionsOf_leave_sublist s y).cons_cons (s.latest y))
  | .give binds x reads inside since => h.give binds x reads inside since

/-- What of an entry matters for a name: that a block starts there, or the version that a variable of
the name has. -/
def mark? (y : String) : Scoped → Option (Option Nat)
  | .block => some none
  | .binding x n => if x = y then some (some n) else none

/-- The event gives a variable of the name in scope another version. -/
def renews (y : String) : Event → Prop
  | .give false x _ _ _ => x = y
  | _ => False

/-- Where blocks start in a list of scopes, and the versions of a name between them. -/
def marks (y : String) (s : Scope) : List (Option Nat) := s.visible.filterMap (mark? y)

theorem versionsOf_eq_marks (s : Scope) : s.versionsOf y = (s.marks y).filterMap id := by
  have hentry (entry : Scoped) : Scoped.version? y entry = (mark? y entry).bind id := by
    cases entry with
    | block => rfl
    | binding x n =>
      by_cases hx : x = y <;> simp [Scoped.version?, mark?, hx]
  unfold versionsOf marks
  rw [List.filterMap_filterMap, funext hentry]

/-- The events leave the blocks and the versions of a name as they are. -/
def Closed (y : String) (events : List Event) : Prop :=
  ∀ s : Scope, (events.foldl step s).marks y = s.marks y

/-- The events may bind a name in the innermost block. -/
def Opened (y : String) (events : List Event) : Prop :=
  ∀ s : Scope, ∃ new : List Nat, (events.foldl step s).marks y = new.map some ++ s.marks y

section Blocks

variable {events later : List Event}

theorem closed_nil : Closed y [] := fun _ => rfl

theorem Closed.append (h : Closed y events) (h' : Closed y later) : Closed y (events ++ later) :=
  fun s => by rw [List.foldl_append, h', h]

theorem Closed.opened (h : Closed y events) : Opened y events := fun s => ⟨[], h s⟩

theorem Opened.append (h : Opened y events) (h' : Opened y later) : Opened y (events ++ later) := by
  intro s
  obtain ⟨new, hnew⟩ := h s
  obtain ⟨new', hnew'⟩ := h' (events.foldl step s)
  refine ⟨new' ++ new, ?_⟩
  rw [List.foldl_append, hnew', hnew, List.map_append, List.append_assoc]

/-- What stands outside of the innermost block. -/
theorem marks_outside {new : List Nat} {rest : List (Option Nat)} : ∀ visible : List Scoped,
    visible.filterMap (mark? y) = new.map some ++ none :: rest →
    (outside visible).filterMap (mark? y) = rest
  | [], h => absurd h.symm (List.append_ne_nil_of_right_ne_nil _ (List.cons_ne_nil _ _))
  | .block :: _, h => by
    cases new with
    | nil => exact (List.cons.inj h).2
    | cons n new => cases (List.cons.inj h).1
  | .binding x m :: visible, h => by
    by_cases hx : x = y
    · rw [List.filterMap_cons_some (show mark? y (.binding x m) = _ from if_pos hx)] at h
      cases new with
      | nil => cases (List.cons.inj h).1
      | cons n new => exact marks_outside visible (List.cons.inj h).2
    · rw [List.filterMap_cons_none (show mark? y (.binding x m) = _ from if_neg hx)] at h
      exact marks_outside visible h

/-- **A block that ends takes its variables with it.** -/
theorem Opened.block (h : Opened y events) : Closed y ([.enter] ++ events ++ [.leave]) := by
  intro s
  obtain ⟨new, hnew⟩ := h (s.step .enter)
  rw [List.foldl_append, List.foldl_append]
  exact marks_outside _ hnew

theorem closed_renew {x : String} (hne : x ≠ y) (reads : List Read) (inside since : Nat) :
    Closed y [.give false x reads inside since] := by
  intro s
  have hmarks : ∀ (n : Nat) (visible : List Scoped),
      (renew x n visible).filterMap (mark? y) = visible.filterMap (mark? y) := by
    intro n visible
    induction visible with
    | nil => rfl
    | cons entry visible ih =>
      cases entry with
      | block => exact congrArg (none :: ·) ih
      | binding z m =>
        rw [renew]
        split
        · rename_i heq
          simp [mark?, heq, hne]
        · simp only [List.filterMap_cons, ih]
  exact hmarks _ _

theorem opened_bindings (reads : List Read) (inside : Nat) : ∀ (since : Nat) (names : List String),
    Opened y (bindings reads inside since names)
  | _, [] => closed_nil.opened
  | since, x :: names => by
    have hfirst : Opened y [.give true x reads inside since] := by
      intro s
      by_cases hx : x = y
      · exact ⟨[s.latest x + 1], List.filterMap_cons_some (if_pos hx)⟩
      · exact ⟨[], List.filterMap_cons_none (if_neg hx)⟩
    exact hfirst.append (opened_bindings reads inside (since + 1) names)

mutual

/-- **An expression leaves the variables of a name in scope as they are**, if it does not assign to
it. -/
theorem closed_expr : ∀ e : Expr, (∀ ev ∈ e.events, ¬ renews y ev) → Closed y e.events
  | .name _, _ => by
    rw [Expr.events]
    exact closed_nil
  | .path _ parts, h => by
    rw [Expr.events] at h ⊢
    exact closed_all parts h
  | .text _, _ => by
    rw [Expr.events]
    exact closed_nil
  | .parts es, h => by
    rw [Expr.events] at h ⊢
    exact closed_all es h
  | .operation left right, h => by
    rw [Expr.events] at h ⊢
    rw [List.forall_mem_append] at h
    exact (closed_expr left h.1).append (closed_expr right h.2)
  | .assign target value _, h => by
    rw [Expr.events] at h ⊢
    cases htarget : target.name? with
    | some x =>
      rw [htarget, List.forall_mem_append, List.forall_mem_singleton] at h
      exact (closed_expr value h.1).append (closed_renew h.2 _ _ _)
    | none =>
      rw [htarget, List.forall_mem_append] at h
      exact (closed_expr target h.1).append (closed_expr value h.2)
  | .update target value _, h => by
    rw [Expr.events] at h ⊢
    cases htarget : target.name? with
    | some x =>
      rw [htarget, List.forall_mem_append, List.forall_mem_singleton] at h
      exact (closed_expr value h.1).append (closed_renew h.2 _ _ _)
    | none =>
      rw [htarget, List.forall_mem_append] at h
      exact (closed_expr target h.1).append (closed_expr value h.2)
  | .call values callee args _, h => by
    rw [Expr.events] at h ⊢
    rw [List.forall_mem_append, List.forall_mem_append] at h
    obtain ⟨⟨hvalues, hcallee⟩, hargs⟩ := h
    exact ((closed_all values hvalues).append (closed_expr callee hcallee)).append
      (closed_all args hargs)
  | .method values receiver _ typeArgs args _, h => by
    rw [Expr.events] at h ⊢
    rw [List.forall_mem_append, List.forall_mem_append, List.forall_mem_append] at h
    obtain ⟨⟨⟨hvalues, hreceiver⟩, htypes⟩, hargs⟩ := h
    have hfirst := (closed_all values hvalues).append (closed_expr receiver hreceiver)
    exact (hfirst.append (closed_all typeArgs htypes)).append (closed_all args hargs)
  | .invocation _ args _, h => by
    rw [Expr.events] at h ⊢
    exact closed_all args h
  | .branch condition body otherwise, h => by
    rw [Expr.events] at h ⊢
    simp only [List.forall_mem_append] at h
    obtain ⟨⟨⟨⟨hcondition, -⟩, hbody⟩, -⟩, hotherwise⟩ := h
    have hall := ((closed_expr condition hcondition).append (opened_body body hbody).block).append
      (closed_optional otherwise hotherwise)
    simpa only [List.append_assoc] using hall
  | .whileLoop condition body, h => by
    rw [Expr.events] at h ⊢
    simp only [List.forall_mem_append] at h
    obtain ⟨⟨⟨hcondition, -⟩, hbody⟩, -⟩ := h
    have hall := (closed_expr condition hcondition).append (opened_body body hbody).block
    simpa only [List.append_assoc] using hall
  | .select subject arms, h => by
    rw [Expr.events] at h ⊢
    rw [List.forall_mem_append] at h
    exact (closed_expr subject h.1).append (closed_arms arms h.2)
  | .forLoop names _ source body _, h => by
    rw [Expr.events] at h ⊢
    simp only [List.forall_mem_append] at h
    obtain ⟨⟨⟨⟨hsource, -⟩, -⟩, hbody⟩, -⟩ := h
    have hinner := (opened_bindings source.reads source.events.length 1 names).append
      (opened_body body hbody)
    have hall := (closed_expr source hsource).append hinner.block
    simpa only [List.append_assoc] using hall
  | .block body, h => by
    rw [Expr.events] at h ⊢
    simp only [List.forall_mem_append] at h
    exact (opened_body body h.1.2).block
  | .giveBack value, h => by
    rw [Expr.events] at h ⊢
    exact closed_optional value h
  | .marked values e, h => by
    rw [Expr.events] at h ⊢
    rw [List.forall_mem_append] at h
    refine Closed.append ?_ (closed_expr e h.2)
    split
    · exact closed_nil
    · rename_i hseen
      rw [if_neg hseen] at h
      exact closed_all values h.1

theorem closed_all : ∀ es : List Expr, (∀ ev ∈ eventsOfAll es, ¬ renews y ev) →
    Closed y (eventsOfAll es)
  | [], _ => by
    rw [eventsOfAll]
    exact closed_nil
  | e :: es, h => by
    rw [eventsOfAll] at h ⊢
    rw [List.forall_mem_append] at h
    exact (closed_expr e h.1).append (closed_all es h.2)

theorem closed_optional : ∀ e : Option Expr, (∀ ev ∈ eventsOfOptional e, ¬ renews y ev) →
    Closed y (eventsOfOptional e)
  | none, _ => by
    rw [eventsOfOptional]
    exact closed_nil
  | some e, h => by
    rw [eventsOfOptional] at h ⊢
    exact closed_expr e h

theorem closed_arms : ∀ arms : List Arm, (∀ ev ∈ eventsOfArms arms, ¬ renews y ev) →
    Closed y (eventsOfArms arms)
  | [], _ => by
    rw [eventsOfArms]
    exact closed_nil
  | ⟨_, guard, body⟩ :: arms, h => by
    rw [eventsOfArms] at h ⊢
    simp only [List.forall_mem_append] at h
    obtain ⟨⟨⟨⟨-, hguard⟩, hbody⟩, -⟩, harms⟩ := h
    have hinner := (closed_optional guard hguard).append (closed_expr body hbody)
    have hall := hinner.opened.block.append (closed_arms arms harms)
    simpa only [List.append_assoc] using hall

theorem opened_stmt : ∀ a : Stmt, (∀ ev ∈ a.events, ¬ renews y ev) → Opened y a.events
  | .item, _ => by
    rw [Stmt.events]
    exact closed_nil.opened
  | .bind names _ none _ _, _ => by
    rw [Stmt.events]
    exact opened_bindings _ _ _ names
  | .bind names _ (some value) otherwise _, h => by
    rw [Stmt.events] at h ⊢
    simp only [List.forall_mem_append] at h
    have hvalue := (closed_expr value h.1.1).append (closed_optional otherwise h.1.2)
    exact hvalue.opened.append (opened_bindings _ _ _ names)
  | .run e _, h => by
    rw [Stmt.events] at h ⊢
    exact (closed_expr e h).opened

theorem opened_body : ∀ b : List Stmt, (∀ ev ∈ eventsOfBody b, ¬ renews y ev) →
    Opened y (eventsOfBody b)
  | [], _ => by
    rw [eventsOfBody]
    exact closed_nil.opened
  | a :: b, h => by
    rw [eventsOfBody] at h ⊢
    rw [List.forall_mem_append] at h
    exact (opened_stmt a h.1).append (opened_body b h.2)

end

/-- **After a block, a name is in scope as before**, in its outer version, if the block does not
assign to it. -/
theorem current?_after_block {params : List (Option String)} {body : List Stmt}
    (h : ∀ ev ∈ (Expr.block body).events, ¬ renews y ev) :
    (after params (events ++ (Expr.block body).events)).current? y =
      (after params events).current? y := by
  have hmarks := closed_expr (.block body) h (after params events)
  rw [current?, current?, versionsOf_eq_marks, versionsOf_eq_marks, after_append, hmarks]

end Blocks

end Scope

end Source

end CodeCausality
