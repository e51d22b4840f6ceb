import CodeCausality.Proofs.Source.Grammar.Expr
import CodeCausality.Source.Grammar.Item

/-!
# Statements and items of plain words

One triple for each production of items and statements, given those of the productions that are
nested in it. Of the items that are only read to know where they end, what is left is all that
matters.
-/

namespace CodeCausality

namespace Source

open Std.Do Production

set_option mvcgen.warning false

namespace Grammar

variable {g : Grammar} (hg : g.Spelled)

include hg

/-! ## 1. Functions -/

@[spec]
theorem keeps_receiver : Keeps g.receiver := by
  mvcgen [receiver]
  all_goals grind

omit hg in
/-- If the parameter is a single name, it is one. -/
def Parameter.Spelled (p : Parameter) : Prop := ∀ x, p = .typed (some x) → Named x

@[spec]
theorem yields_parameter : Yields Parameter.Spelled g.parameter := by
  mvcgen [parameter]
  all_goals grind [Parameter.Spelled, Pattern.Spelled]

@[spec]
theorem yields_parameters : Yields (fun xs => ∀ x, some x ∈ xs → Named x) g.parameters := by
  have hcommas := @yields_commasToEnd _ Parameter.Spelled
  have henclosed := @yields_enclosed _ fun ps : List Parameter => ∀ p ∈ ps, p.Spelled
  mvcgen [parameters, henclosed, hcommas]
  case vc7.post.success found rest typed placed =>
    -- what is given are the names of typed parameters after the receiver
    intro ts hfound hts
    have hrest : ∀ p ∈ rest, p.Spelled := by grind
    have hnamed : ∀ p ∈ typed, p.Spelled := fun p hp => hrest p (List.takeWhile_subset _ hp)
    clear_value placed typed
    refine yields_ite (?_ : Yields _ _) ?_ ts hts
    · mvcgen
      refine ⟨fun x hx => ?_, ‹_›⟩
      obtain ⟨p, hp, hpx⟩ := List.mem_filterMap.mp hx
      split at hpx
      · exact hnamed _ hp x (Option.some.inj hpx ▸ rfl)
      · cases hpx
    · mvcgen
  all_goals grind

omit hg in
@[spec]
theorem keeps_qualifiers (foreign : Bool) : Keeps (qualifiers foreign) := by
  mvcgen [qualifiers]
  all_goals grind

@[spec]
theorem yields_signature (foreign : Bool) : Yields Function.Spelled (g.signature foreign) := by
  mvcgen [signature]
  all_goals grind [Function.Spelled]

@[spec]
theorem yields_function (foreign : Bool) :
    Yields (fun f => ∀ f', f = some f' → f'.Spelled) (g.function foreign) := by
  mvcgen [function]
  all_goals grind [Function.Spelled]

/-! ## 2. Types -/

omit hg in
@[spec]
theorem keeps_namedFields : Keeps g.namedFields := by
  mvcgen [namedFields, keeps_enclosed]

omit hg in
@[spec]
theorem keeps_unnamedFields : Keeps g.unnamedFields := by
  mvcgen [unnamedFields, keeps_enclosed]

@[spec]
theorem keeps_structItem : Keeps g.structItem := by
  mvcgen [structItem]
  all_goals grind

@[spec]
theorem keeps_enumItem : Keeps g.enumItem := by
  mvcgen [enumItem, keeps_enclosed]
  all_goals grind

@[spec]
theorem keeps_unionItem : Keeps g.unionItem := by
  mvcgen [unionItem]
  all_goals grind

@[spec]
theorem keeps_typeItem (before after : Bool) : Keeps (g.typeItem before after) := by
  mvcgen [typeItem]
  all_goals grind

/-! ## 3. Constants, imports and other small items -/

@[spec]
theorem keeps_initialValue : Keeps g.initialValue := by
  mvcgen [initialValue]
  all_goals grind

@[spec]
theorem keeps_constItem : Keeps g.constItem := by
  mvcgen [constItem]
  all_goals grind

@[spec]
theorem keeps_staticItem : Keeps g.staticItem := by
  mvcgen [staticItem]
  all_goals grind

omit hg in
@[spec]
theorem keeps_importTree (n : Nat) : Keeps (importTree n) := by
  induction n with
  | zero => mvcgen [importTree]
  | succ n ih =>
    mvcgen [importTree, keeps_enclosed, ih]
    all_goals grind

omit hg in
@[spec]
theorem keeps_importItem : Keeps importItem := by
  mvcgen [importItem]

omit hg in
@[spec]
theorem keeps_invocationItem : Keeps invocationItem := by
  mvcgen [invocationItem]
  all_goals grind

omit hg in
@[spec]
theorem keeps_definitionItem : Keeps definitionItem := by
  mvcgen [definitionItem]
  all_goals grind

/-! ## 4. Traits, foreign items and implementations -/

@[spec]
theorem keeps_traitItem : Keeps g.traitItem := by
  mvcgen [traitItem, keeps_enclosed]
  all_goals grind

omit hg in
@[spec]
theorem keeps_foreignItem : Keeps g.foreignItem := by
  mvcgen [foreignItem, keeps_enclosed]
  all_goals grind

@[spec]
theorem yields_implementedItem :
    Yields (fun f => ∀ f', f = some f' → f'.Spelled) g.implementedItem := by
  mvcgen [implementedItem]
  all_goals grind

@[spec]
theorem yields_implementation (visible : Bool) :
    Yields Item.Spelled (g.implementation visible) := by
  have hmethods := yields_manyToEnd (yields_implementedItem hg)
  have henclosed := @yields_enclosed _ fun found : List (Option Function) =>
    ∀ f ∈ found, ∀ f', f = some f' → f'.Spelled
  -- the steps before the types keep plain words whether they are taken or not
  refine yields_after (keeps_word? _) fun _ => yields_after (keeps_word? _) fun _ =>
    yields_after (keeps_word _) fun _ => yields_after (keeps_ahead _) fun _ => ?_
  refine yields_afterOption (keeps_typeParameters hg) (yields_after (keeps_ahead _) fun _ => ?_)
  refine yields_afterOption (keeps_marks _) ?_
  mvcgen [henclosed, hmethods]
  all_goals grind

/-! ## 5. All items -/

@[spec]
theorem yields_item : Yields Item.Spelled g.item := hg.item

@[spec]
theorem yields_moduleItem : Yields Item.Spelled g.moduleItem := by
  have hitems := (yields_manyToEnd hg.item).weaken fun _ => spelledItems_iff.mpr
  have henclosed := @yields_enclosed _ SpelledItems
  mvcgen [moduleItem, henclosed, hitems]
  all_goals grind

omit hg in
@[spec]
theorem yields_skipped {p : Production Unit} (h : Keeps p) : Yields Item.Spelled (skipped p) := by
  mvcgen [skipped, h]

theorem yields_itemOf : Yields Item.Spelled g.itemOf := by
  mvcgen [itemOf]
  all_goals grind

/-! ## 6. Statements -/

@[spec]
theorem yields_bindStmt (line : Nat) {values : List Expr} (hvalues : SpelledAll values) :
    Yields Stmt.Spelled (g.bindStmt line values) := by
  mvcgen [bindStmt]
  all_goals grind [Pattern.Spelled]

@[spec]
theorem yields_statement : Yields (fun s => s.1.Spelled) g.statement := by
  mvcgen [statement]
  case vc11.post.success.h_2.isFalse line values rest h _ _ _ isItem _ =>
    -- whether an item or an expression follows is decided by what comes next
    clear_value isItem line
    have hvalues := h.1
    refine yields_ite (?_ : Yields _ _) ?_ rest h.2
    · mvcgen
      grind
    · mvcgen
      all_goals grind
  all_goals grind

@[spec]
theorem yields_statementsAtMost (n : Nat) : Yields SpelledBody (g.statementsAtMost n) := by
  induction n with
  | zero => mvcgen [statementsAtMost]
  | succ n ih =>
    mvcgen [statementsAtMost, keeps_manyWhile, ih]
    all_goals grind

theorem yields_statementsOf : Yields SpelledBody g.statementsOf := by
  mvcgen [statementsOf]

end Grammar

end Source

end CodeCausality
