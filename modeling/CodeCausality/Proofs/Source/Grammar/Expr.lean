import CodeCausality.Proofs.Source.Grammar.Pattern
import CodeCausality.Source.Grammar.Expr

/-!
# Expressions of plain words

One triple for each production of expressions, given those of the productions that are nested in it.
The operators are read by induction on the number that bounds the steps.
-/

namespace CodeCausality

namespace Source

open Std.Do Production

set_option mvcgen.warning false

/-- Attributes before an expression change its lines and add their values. -/
theorem Expr.Spelled.startingAt {e : Expr} (h : e.Spelled) (l : Nat) {values : List Expr}
    (hvalues : SpelledAll values) : (e.startingAt l values).Spelled := by
  fun_induction Expr.startingAt l values e with
  | case1 _ target value _ ih => exact ⟨ih h.1 hvalues, h.2⟩
  | case2 _ target value _ ih => exact ⟨ih h.1 hvalues, h.2⟩
  | case3 _ left right ih => exact ⟨ih h.1 hvalues, h.2⟩
  | case4 => exact ⟨spelledAll_append.mpr ⟨hvalues, h.1⟩, h.2⟩
  | case5 => exact ⟨spelledAll_append.mpr ⟨hvalues, h.1⟩, h.2⟩
  | case6 _ names patternParts source body =>
    exact Spelled.mark (e := .forLoop names patternParts source body l) h hvalues
  | case7 _ more e ih => exact ih h.2 (spelledAll_append.mpr ⟨hvalues, h.1⟩)
  | case8 => exact h.mark hvalues

attribute [grind ←] Expr.Spelled.startingAt

namespace Grammar

variable {g : Grammar} (hg : g.Spelled)

include hg

@[spec]
theorem yields_expr (braces : Bool) (level : Level) : Yields Expr.Spelled (g.expr braces level) :=
  hg.expr braces level

@[spec]
theorem yields_operand (braces : Bool) (level : Level) :
    Yields Expr.Spelled (g.operand braces level) := hg.operand braces level

@[spec]
theorem yields_unary (braces : Bool) : Yields Expr.Spelled (g.unary braces) := hg.unary braces

@[spec]
theorem yields_leading : Yields Reading.Spelled g.leading := hg.leading

/-! ## 1. Small parts -/

@[spec]
theorem yields_block : Yields SpelledBody g.block := yields_enclosed hg.statements _

@[spec]
theorem yields_arguments : Yields SpelledAll g.arguments :=
  (yields_enclosed (yields_commasToEnd (yields_anyExpr hg)) _).weaken fun _ => spelledAll_iff.mpr

@[spec]
theorem yields_invocationOf (path : List String) (line : Nat) :
    Yields Reading.Spelled (g.invocationOf path line) := by
  mvcgen [invocationOf]
  all_goals grind [spelledAll_arguments]

/-! ## 2. Values with fields -/

@[spec]
theorem yields_fieldValue : Yields SpelledAll g.fieldValue := by
  mvcgen [fieldValue]
  all_goals grind

@[spec]
theorem yields_fieldValues : Yields SpelledAll g.fieldValues := by
  have hfields := yields_commas (yields_fieldValue hg)
  have henclosed := @yields_enclosed _ SpelledAll
  mvcgen [fieldValues, henclosed, hfields]
  all_goals grind

@[spec]
theorem yields_pathExpr (braces : Bool) : Yields Reading.Spelled (g.pathExpr braces) := by
  mvcgen [pathExpr]
  all_goals grind [Path.Spelled.toExpr]

/-! ## 3. Control flow -/

@[spec]
theorem yields_branches (n : Nat) : Yields Expr.Spelled (g.branches n) := by
  induction n with
  | zero => mvcgen [branches]
  | succ n ih =>
    mvcgen [branches, ih]
    all_goals grind

@[spec]
theorem yields_whileExpr : Yields Expr.Spelled g.whileExpr := by
  mvcgen [whileExpr]
  all_goals grind

@[spec]
theorem yields_forExpr (line : Nat) : Yields Expr.Spelled (g.forExpr line) := by
  mvcgen [forExpr]
  all_goals grind [Pattern.Spelled]

@[spec]
theorem yields_loopExpr : Yields Expr.Spelled g.loopExpr := by
  mvcgen [loopExpr]
  all_goals grind

@[spec]
theorem yields_closureParameter : Yields SpelledAll g.closureParameter := by
  mvcgen [closureParameter]
  all_goals grind

@[spec]
theorem yields_closure (braces : Bool) : Yields Expr.Spelled (g.closure braces) := by
  have hparams := @yields_commas _ SpelledAll
  mvcgen [closure, hparams]
  all_goals grind

@[spec]
theorem yields_afterBreak (braces : Bool) : Yields Expr.Spelled (g.afterBreak braces) := by
  mvcgen [afterBreak]
  all_goals grind

@[spec]
theorem yields_optionalValue (s : String) :
    Yields (fun e => ∀ e', e = some e' → e'.Spelled) (g.optionalValue s) := by
  mvcgen [optionalValue]
  all_goals grind

/-! ## 4. Groups -/

@[spec]
theorem yields_groupedExpr : Yields Expr.Spelled g.groupedExpr := by
  mvcgen [groupedExpr]

@[spec]
theorem yields_arrayExpr : Yields Expr.Spelled g.arrayExpr := by
  have hrest := (yields_commasToEnd (yields_anyExpr hg)).weaken fun _ => spelledAll_iff.mpr
  have henclosed := @yields_enclosed _ Expr.Spelled
  mvcgen [arrayExpr, henclosed, hrest]
  all_goals grind

omit hg in
@[spec]
theorem yields_rangeEnd (braces : Bool) {operand : Production Expr}
    (hoperand : Yields Expr.Spelled operand) : Yields SpelledAll (rangeEnd braces operand) := by
  mvcgen [rangeEnd, hoperand]
  all_goals grind

/-! ## 5. Atoms -/

omit hg in
@[spec]
theorem yields_builtin : Yields Expr.Spelled builtin := by
  mvcgen [builtin]
  all_goals grind

@[spec]
theorem yields_arm : Yields Arm.Spelled g.arm := by
  mvcgen [arm]
  all_goals grind

@[spec]
theorem yields_blockLike : Yields Reading.Spelled g.blockLike := by
  have harms := (yields_manyToEnd (yields_arm hg)).weaken fun _ => spelledArms_iff.mpr
  have henclosed := @yields_enclosed _ fun found : List Expr × List Arm =>
    SpelledAll found.1 ∧ SpelledArms found.2
  mvcgen [blockLike, henclosed, harms]
  all_goals grind

@[spec]
theorem yields_labelled : Yields Reading.Spelled g.labelled := by
  mvcgen [labelled]
  all_goals grind

@[spec]
theorem yields_atom (braces : Bool) : Yields Reading.Spelled (g.atom braces) := by
  mvcgen [atom]
  all_goals grind

/-! ## 6. What follows an atom -/

@[spec]
theorem yields_selected {e : Reading} (he : e.Spelled) :
    Yields Reading.Spelled (afterPoint.selected g e) := by
  mvcgen [afterPoint.selected]
  all_goals grind

@[spec]
theorem yields_afterPoint {e : Reading} (he : e.Spelled) :
    Yields Reading.Spelled (g.afterPoint e) := by
  mvcgen [afterPoint]
  all_goals grind [PlainWords]

@[spec]
theorem yields_trailers (n : Nat) {e : Reading} (he : e.Spelled) :
    Yields Reading.Spelled (g.trailers n e) := by
  induction n generalizing e with
  | zero => mvcgen [trailers]
  | succ n ih =>
    have hindex := yields_enclosed (yields_anyExpr hg)
    mvcgen [trailers, hindex, ih]
    all_goals grind

@[spec]
theorem yields_withTrailers {e : Reading} (he : e.Spelled) :
    Yields Reading.Spelled (g.withTrailers e) := by
  mvcgen [withTrailers]

@[spec]
theorem yields_unaryOf (braces : Bool) : Yields Reading.Spelled (g.unaryOf braces) := by
  mvcgen [unaryOf]
  all_goals grind

/-! ## 7. Operators -/

omit hg in
theorem plainWords_of_operator? {ts rest : List Tree} {level : Level} {assigns : Bool}
    (h : PlainWords ts) (hop : operator? ts = some (level, assigns, rest)) : PlainWords rest := by
  obtain ⟨⟨s, level', assigns'⟩, -, hafter⟩ := List.exists_of_findSome?_eq_some hop
  obtain ⟨rest', hrest, heq⟩ := Option.map_eq_some_iff.mp hafter
  obtain ⟨-, -, rfl⟩ := heq
  exact h.after hrest

omit hg in
theorem spelled_combine {level : Level} {assigns : Bool} {left : Reading} {right : Expr}
    (hleft : left.Spelled) (hright : right.Spelled) :
    (combine level assigns left right).Spelled := by
  unfold combine Reading.Spelled
  split <;> exact ⟨hleft, hright⟩

section Operators

variable {first : Production Reading} (hfirst : Yields Reading.Spelled first) {braces : Bool}

include hfirst

theorem yields_climb_and_raise (n : Nat) :
    (∀ left base, left.Spelled → Yields Reading.Spelled (g.climb first braces n left base)) ∧
      ∀ right level, right.Spelled →
        Yields Reading.Spelled (g.raise first braces n right level) := by
  induction n with
  | zero =>
    constructor
    · intro left base _
      mvcgen [climb]
    · intro right level _
      mvcgen [raise]
  | succ n ih =>
    obtain ⟨hclimb, hraise⟩ := ih
    constructor
    · intro left base hleft
      mvcgen [climb, hclimb, hraise, hfirst]
      all_goals grind [plainWords_of_operator?, spelled_combine]
    · intro right level hright
      mvcgen [raise, hclimb, hraise]
      all_goals grind

@[spec]
theorem yields_climb (n : Nat) {left : Reading} (hleft : left.Spelled) (base : Level) :
    Yields Reading.Spelled (g.climb first braces n left base) :=
  (yields_climb_and_raise hg hfirst n).1 left base hleft

@[spec]
theorem yields_raise (n : Nat) {right : Reading} (hright : right.Spelled) (level : Level) :
    Yields Reading.Spelled (g.raise first braces n right level) :=
  (yields_climb_and_raise hg hfirst n).2 right level hright

end Operators

omit hg in
@[spec]
theorem keeps_steps : Keeps steps := by
  mvcgen [steps]

/-! ## 8. Statements -/

theorem yields_leadingOf : Yields Reading.Spelled g.leadingOf := by
  mvcgen [leadingOf]
  all_goals grind

theorem yields_exprOf (braces : Bool) (level : Level) :
    Yields Expr.Spelled (g.exprOf braces level) := by
  mvcgen [exprOf]
  all_goals grind

theorem yields_operandOf (braces : Bool) (level : Level) :
    Yields Expr.Spelled (g.operandOf braces level) := by
  mvcgen [operandOf]
  all_goals grind

end Grammar

end Source

end CodeCausality
