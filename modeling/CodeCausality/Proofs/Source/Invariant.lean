import CodeCausality.Source.Flow
import CodeCausality.Proofs.Source.Spelling

/-!
# What a walk keeps

A walk does four things to what it has found: it gives a name a value, it notes an effect, a return, or
a call. What each of these keeps, the walk through any text keeps.

* `Invariant` -- a property of walks that the four keep, where guards and sources have another that
  all ids have that are read;
* `Invariant.keeps_expr`, `Invariant.keeps_stmts` -- **the walk through a text keeps it**, by induction
  over the text;
* `Invariant.keeps_body` -- and so does the walk through the body of a function.
-/

namespace CodeCausality

namespace Source

namespace Walk

variable {α : Type} {s : Setting}

/-- A property of walks that each construct keeps. Guards and sources have a property that all that is
read has. -/
structure Invariant (s : Setting) (readable : String → Prop) (holds : Walk α → Prop) : Prop where
  reads {w : Walk α} (h : holds w) (reads : List Read) :
    ∀ a ∈ (sourcesOf s w.locals reads).all, readable a
  define {w : Walk α} {guards sources : List String} (h : holds w)
    (hguards : ∀ a ∈ guards, readable a) (hsources : ∀ a ∈ sources, readable a) (line : Nat)
    {name : String} (hname : Named name) : holds (w.define s guards sources line name)
  effect {w : Walk α} {guards sources : List String} (h : holds w)
    (hguards : ∀ a ∈ guards, readable a) (hsources : ∀ a ∈ sources, readable a) (line : Nat)
    (name : String) : holds (w.effect s guards sources line name)
  returns {w : Walk α} {guards sources : List String} (h : holds w)
    (hguards : ∀ a ∈ guards, readable a) (hsources : ∀ a ∈ sources, readable a) :
    holds (w.returns s guards sources)
  calls {w : Walk α} (h : holds w) (callee : Signature) (args : List Expr) :
    holds (w.calls s callee args)

namespace Invariant

variable {readable : String → Prop} {holds : Walk α → Prop} (inv : Invariant s readable holds)
  {guards sources : List String} {w : Walk α} (h : holds w) (hguards : ∀ a ∈ guards, readable a)

include inv h hguards

/-! ## 1. Constructs -/

/-- What decides whether a branch is taken is read. -/
theorem inner (e : Expr) : ∀ a ∈ guards ++ (w.sources s e).locals, readable a :=
  List.forall_mem_append.mpr ⟨hguards, fun a ha =>
    inv.reads h e.reads a (List.mem_append_left _ ha)⟩

theorem defineAll (hsources : ∀ a ∈ sources, readable a) (line : Nat) {names : List String}
    (hnames : ∀ x ∈ names, Named x) : holds (w.defineAll s guards sources line names) := by
  unfold Walk.defineAll
  induction names generalizing w with
  | nil => exact h
  | cons x names ih =>
    obtain ⟨hx, hnames⟩ := List.forall_mem_cons.mp hnames
    exact ih (inv.define h hguards hsources line hx) hnames

theorem callOf (callee : Expr) (args : List Expr) (line : Nat) :
    holds (w.callOf s guards callee args line) := by
  unfold Walk.callOf
  split
  · exact inv.calls h _ args
  · split
    · exact inv.effect h hguards (inv.reads h _) line _
    · exact h

theorem methodOf (receiver : Expr) (name : String) (args : List Expr) (line : Nat) :
    holds (w.methodOf s guards receiver name args line) := by
  unfold Walk.methodOf
  split
  · exact inv.calls h _ args
  · split
    · exact inv.effect h hguards (inv.reads h _) line name
    · exact h

theorem invocationOf (name : String) (args : List Expr) (line : Nat) :
    holds (w.invocationOf s guards name args line) := by
  unfold Walk.invocationOf
  split
  · exact inv.effect h hguards (inv.reads h _) line _
  · exact h

end Invariant

/-! ## 2. Texts -/

section Texts

variable {readable : String → Prop} {holds : Walk α → Prop}

mutual

/-- **The walk through an expression keeps what its constructs keep.** -/
theorem Invariant.keeps_expr (inv : Invariant s readable holds) :
    ∀ (e : Expr) {guards : List String} {w : Walk α}, e.Spelled →
    holds w → (∀ a ∈ guards, readable a) → holds (expr s guards e w)
  | .name _, _, _, _, h, _ => by
    rw [expr]
    exact h
  | .path _ parts, _, _, hspelled, h, hguards => by
    rw [Expr.Spelled] at hspelled
    rw [expr]
    exact inv.keeps_exprs parts hspelled h hguards
  | .text _, _, _, _, h, _ => by
    rw [expr]
    exact h
  | .parts es, _, _, hspelled, h, hguards => by
    rw [Expr.Spelled] at hspelled
    rw [expr]
    exact inv.keeps_exprs es hspelled h hguards
  | .operation left right, _, _, hspelled, h, hguards => by
    rw [Expr.Spelled] at hspelled
    rw [expr]
    exact inv.keeps_expr right hspelled.2 (inv.keeps_expr left hspelled.1 h hguards) hguards
  | .assign target value line, _, _, hspelled, h, hguards => by
    rw [Expr.Spelled] at hspelled
    rw [expr]
    split
    · rename_i x hx
      have hvalue := inv.keeps_expr value hspelled.2 h hguards
      exact inv.define hvalue hguards (inv.reads h _) line (hspelled.1.named hx)
    · exact inv.keeps_expr value hspelled.2 (inv.keeps_expr target hspelled.1 h hguards) hguards
  | .update target value line, _, _, hspelled, h, hguards => by
    rw [Expr.Spelled] at hspelled
    rw [expr]
    split
    · rename_i x hx
      have hvalue := inv.keeps_expr value hspelled.2 h hguards
      exact inv.define hvalue hguards (inv.reads h _) line (hspelled.1.named hx)
    · exact inv.keeps_expr value hspelled.2 (inv.keeps_expr target hspelled.1 h hguards) hguards
  | .call values callee args line, _, _, hspelled, h, hguards => by
    rw [Expr.Spelled] at hspelled
    obtain ⟨hvalues, hcallee, hargs⟩ := hspelled
    rw [expr]
    have hnoted := inv.callOf h hguards callee args line
    have hmarked := inv.keeps_exprs values hvalues hnoted hguards
    exact inv.keeps_exprs args hargs (inv.keeps_expr callee hcallee hmarked hguards) hguards
  | .method values receiver called typeArgs args line, _, _, hspelled, h, hguards => by
    rw [Expr.Spelled] at hspelled
    obtain ⟨hvalues, hreceiver, htypes, hargs⟩ := hspelled
    rw [expr]
    have hnoted := inv.methodOf h hguards receiver called args line
    have hmarked := inv.keeps_exprs values hvalues hnoted hguards
    have hwalked := inv.keeps_expr receiver hreceiver hmarked hguards
    exact inv.keeps_exprs args hargs (inv.keeps_exprs typeArgs htypes hwalked hguards) hguards
  | .invocation called args line, _, _, hspelled, h, hguards => by
    rw [Expr.Spelled] at hspelled
    rw [expr]
    exact inv.keeps_exprs args hspelled (inv.invocationOf h hguards called args line) hguards
  | .branch condition body otherwise, _, _, hspelled, h, hguards => by
    rw [Expr.Spelled] at hspelled
    obtain ⟨hcondition, hbody, hotherwise⟩ := hspelled
    rw [expr]
    have hinner := inv.inner h hguards condition
    have hthen := inv.keeps_stmts body hbody (inv.keeps_expr condition hcondition h hguards) hinner
    exact inv.keeps_optional otherwise hotherwise hthen hinner
  | .whileLoop condition body, _, _, hspelled, h, hguards => by
    rw [Expr.Spelled] at hspelled
    rw [expr]
    exact inv.keeps_stmts body hspelled.2 (inv.keeps_expr condition hspelled.1 h hguards)
      (inv.inner h hguards condition)
  | .select subject arms, _, _, hspelled, h, hguards => by
    rw [Expr.Spelled] at hspelled
    rw [expr]
    exact inv.keeps_selected arms hspelled.2 (inv.keeps_expr subject hspelled.1 h hguards)
      (inv.inner h hguards subject)
  | .forLoop names _ source body line, _, _, hspelled, h, hguards => by
    rw [Expr.Spelled] at hspelled
    obtain ⟨hnames, -, hsource, hbody⟩ := hspelled
    rw [expr]
    have hinner := inv.inner h hguards source
    have hfirst := inv.keeps_expr source hsource h hguards
    have hnamed := inv.defineAll hfirst hinner (inv.reads h source.reads) line hnames
    exact inv.keeps_stmts body hbody hnamed hinner
  | .block body, _, _, hspelled, h, hguards => by
    rw [Expr.Spelled] at hspelled
    rw [expr]
    exact inv.keeps_stmts body hspelled h hguards
  | .giveBack none, _, _, _, h, _ => by
    rw [expr]
    exact h
  | .giveBack (some e), _, _, hspelled, h, hguards => by
    rw [Expr.Spelled, SpelledOptional] at hspelled
    rw [expr]
    exact inv.returns (inv.keeps_expr e hspelled h hguards) hguards (inv.reads h _)
  | .marked values e, _, _, hspelled, h, hguards => by
    rw [Expr.Spelled] at hspelled
    rw [expr]
    refine inv.keeps_expr e hspelled.2 ?_ hguards
    split
    · exact h
    · exact inv.keeps_exprs values hspelled.1 h hguards

theorem Invariant.keeps_exprs (inv : Invariant s readable holds) :
    ∀ (es : List Expr) {guards : List String} {w : Walk α},
    SpelledAll es → holds w → (∀ a ∈ guards, readable a) → holds (exprs s guards es w)
  | [], _, _, _, h, _ => by
    rw [exprs]
    exact h
  | e :: es, _, _, hspelled, h, hguards => by
    rw [SpelledAll] at hspelled
    rw [exprs]
    exact inv.keeps_exprs es hspelled.2 (inv.keeps_expr e hspelled.1 h hguards) hguards

theorem Invariant.keeps_optional (inv : Invariant s readable holds) :
    ∀ (e : Option Expr) {guards : List String} {w : Walk α},
    SpelledOptional e → holds w → (∀ a ∈ guards, readable a) → holds (optional s guards e w)
  | none, _, _, _, h, _ => by
    rw [optional]
    exact h
  | some e, _, _, hspelled, h, hguards => by
    rw [SpelledOptional] at hspelled
    rw [optional]
    exact inv.keeps_expr e hspelled h hguards

theorem Invariant.keeps_selected (inv : Invariant s readable holds) :
    ∀ (arms : List Arm) {guards : List String} {w : Walk α},
    SpelledArms arms → holds w → (∀ a ∈ guards, readable a) → holds (selected s guards arms w)
  | [], _, _, _, h, _ => by
    rw [selected]
    exact h
  | ⟨_, guard, body⟩ :: arms, _, _, hspelled, h, hguards => by
    rw [SpelledArms, Arm.Spelled] at hspelled
    obtain ⟨⟨-, hguard, hbody⟩, harms⟩ := hspelled
    rw [selected]
    have harm := inv.keeps_expr body hbody (inv.keeps_optional guard hguard h hguards) hguards
    exact inv.keeps_selected arms harms harm hguards

theorem Invariant.keeps_stmt (inv : Invariant s readable holds) :
    ∀ (a : Stmt) {guards : List String} {w : Walk α}, a.Spelled →
    holds w → (∀ a ∈ guards, readable a) → holds (stmt s guards a w)
  | .item, _, _, _, h, _ => by
    rw [stmt]
    exact h
  | .bind names _ none _ line, _, _, hspelled, h, hguards => by
    rw [Stmt.Spelled] at hspelled
    rw [stmt]
    exact inv.defineAll h hguards (fun a ha => absurd ha List.not_mem_nil) line hspelled.1
  | .bind names _ (some value) otherwise line, _, _, hspelled, h, hguards => by
    rw [Stmt.Spelled, SpelledOptional] at hspelled
    obtain ⟨hnames, -, hvalue, hotherwise⟩ := hspelled
    rw [stmt]
    have hwalked := inv.keeps_optional otherwise hotherwise
      (inv.keeps_expr value hvalue h hguards) hguards
    exact inv.defineAll hwalked hguards (inv.reads h value.reads) line hnames
  | .run e _, _, _, hspelled, h, hguards => by
    rw [Stmt.Spelled] at hspelled
    rw [stmt]
    exact inv.keeps_expr e hspelled h hguards

theorem Invariant.keeps_stmts (inv : Invariant s readable holds) :
    ∀ (b : List Stmt) {guards : List String} {w : Walk α},
    SpelledBody b → holds w → (∀ a ∈ guards, readable a) → holds (stmts s guards b w)
  | [], _, _, _, h, _ => by
    rw [stmts]
    exact h
  | a :: b, _, _, hspelled, h, hguards => by
    rw [SpelledBody] at hspelled
    rw [stmts]
    exact inv.keeps_stmts b hspelled.2 (inv.keeps_stmt a hspelled.1 h hguards) hguards

end

/-- **The walk through a body keeps what its constructs keep.** -/
theorem Invariant.keeps_body (inv : Invariant s readable holds) {b : List Stmt} {w : Walk α}
    (hspelled : SpelledBody b) (h : holds w) : holds (body s b w) := by
  have hnone : ∀ a ∈ ([] : List String), readable a := fun a ha => absurd ha List.not_mem_nil
  induction b generalizing w with
  | nil => exact h
  | cons a b ih =>
    rw [SpelledBody] at hspelled
    rcases body_cons s a b w with ⟨e, rfl, rfl, hlast⟩ | hnext
    · rw [hlast]
      have he := hspelled.1
      rw [Stmt.Spelled] at he
      exact inv.returns (inv.keeps_expr e he h hnone) hnone (inv.reads h _)
    · rw [hnext]
      exact ih hspelled.2 (inv.keeps_stmt a hspelled.1 h hnone)

end Texts

end Walk

end Source

end CodeCausality
