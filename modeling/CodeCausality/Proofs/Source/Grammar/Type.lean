import CodeCausality.Proofs.Source.Grammar.Basic
import CodeCausality.Source.Grammar.Type

/-!
# Paths, types and bounds of plain words

One triple for each production, given those of the productions that are nested in it.
-/

namespace CodeCausality

namespace Source

open Std.Do Production

set_option mvcgen.warning false

namespace Grammar

variable {g : Grammar}

/-! ## 1. Attributes and visibility -/

@[spec]
theorem keeps_wordPath : Keeps wordPath := by
  mvcgen [wordPath, keeps_many]
  all_goals grind

@[spec]
theorem keeps_visibility : Keeps visibility := by
  mvcgen [visibility]
  all_goals grind [PlainWords]

section Nested

variable (hg : g.Spelled)

include hg

@[spec]
theorem yields_anyExpr : Yields Expr.Spelled g.anyExpr := hg.expr true .loosest

@[spec]
theorem yields_type (plus : Bool) : Yields TypeShape.Spelled (g.type plus) := hg.type plus

@[spec]
theorem yields_statements : Yields SpelledBody g.statements := hg.statements

@[spec]
theorem yields_attributeBody : Yields SpelledAll g.attributeBody := by
  mvcgen [attributeBody]
  all_goals grind

@[spec]
theorem yields_attributes : Yields SpelledAll g.attributes := by
  have hbody := yields_enclosed (yields_attributeBody hg)
  have hmany := @yields_manyWhile _ SpelledAll
  mvcgen [attributes, hmany, hbody]
  all_goals grind

@[spec]
theorem yields_innerAttributes : Yields SpelledAll g.innerAttributes := by
  have hbody := yields_enclosed (yields_attributeBody hg)
  have hmany := @yields_manyWhile _ SpelledAll
  mvcgen [innerAttributes, hmany, hbody]
  all_goals grind

@[spec]
theorem yields_blockWithAttributes :
    Yields (fun found => SpelledAll found.1 ∧ SpelledBody found.2) g.blockWithAttributes := by
  have henclosed := @yields_enclosed _ fun found : List Expr × List Stmt =>
    SpelledAll found.1 ∧ SpelledBody found.2
  mvcgen [blockWithAttributes, henclosed]
  all_goals grind

@[spec]
theorem yields_markedBlock : Yields Expr.Spelled g.markedBlock := by
  mvcgen [markedBlock]
  all_goals grind

/-! ## 2. Paths -/

@[spec]
theorem yields_constantArgument : Yields Expr.Spelled g.constantArgument := by
  mvcgen [constantArgument]
  all_goals grind [named_of_startsName]

omit hg in
@[spec]
theorem keeps_lifetimeBounds (stop : List Tree → Bool) : Keeps (lifetimeBounds stop) := by
  mvcgen [lifetimeBounds, keeps_many]

@[spec]
theorem yields_quantifiedLifetimes :
    Yields (fun values => ∀ es, values = some es → SpelledAll es) g.quantifiedLifetimes := by
  have hcommas := @yields_commas _ SpelledAll
  mvcgen [quantifiedLifetimes, hcommas]
  all_goals grind

@[spec]
theorem yields_result? (plus : Bool) :
    Yields (fun t => ∀ shape, t = some shape → shape.Spelled) (g.result? plus) := by
  mvcgen [result?]
  all_goals grind

@[spec]
theorem yields_functionArguments : Yields SpelledAll g.functionArguments := by
  have hparams := yields_enclosed (yields_commasToEnd (hg.type true))
  mvcgen [functionArguments, hparams]
  all_goals grind

@[spec]
theorem yields_typeArgument : Yields SpelledAll g.typeArgument := by
  have hbounds := yields_joinedBy hg.bound
  mvcgen [typeArgument, hbounds]
  case vc5 => grind
  case vc8 t named _ =>
    -- whether a name or a bound follows is decided by what the type is
    intro rest ht hrest
    clear_value named
    refine yields_ite (?_ : Yields SpelledAll _) ?_ rest hrest
    · mvcgen [hbounds]
      all_goals grind
    · mvcgen

@[spec]
theorem yields_typeArguments : Yields SpelledAll g.typeArguments := by
  have hargs := yields_commas (yields_typeArgument hg)
  mvcgen [typeArguments, hargs]
  all_goals grind

omit hg in
/-- The segment is a name, and so are the names in its arguments. -/
def SegmentSpelled (s : String × Option (List Expr)) : Prop :=
  Named s.1 ∧ ∀ es, s.2 = some es → SpelledAll es

@[spec]
theorem yields_segment (inExpr : Bool) : Yields SegmentSpelled (g.segment inExpr) := by
  mvcgen [segment]
  all_goals grind [SegmentSpelled, named_of_startsOneOf, named_of_startsWord]

@[spec]
theorem yields_moreSegments (inExpr : Bool) :
    Yields (fun ss => ∀ s ∈ ss, SegmentSpelled s) (g.moreSegments inExpr) := by
  mvcgen [moreSegments, yields_manyWhile]
  all_goals grind

omit hg in
theorem spelled_ofSegments {anchored : Bool} {ss : List (String × Option (List Expr))}
    (h : ∀ s ∈ ss, SegmentSpelled s) : (ofSegments anchored ss).Spelled where
  segments s hs := by
    obtain ⟨t, ht, rfl⟩ := List.mem_map.mp hs
    exact (h t ht).1
  parts := by
    rw [ofSegments, spelledAll_flatMap]
    exact fun s hs => spelledAll_getD.mpr (h s hs).2

@[spec]
theorem yields_path (inExpr : Bool) : Yields Path.Spelled (g.path inExpr) := by
  mvcgen [path]
  all_goals grind [spelled_ofSegments]

@[spec]
theorem yields_withFunctionArguments {p : Path} (hp : p.Spelled) :
    Yields Path.Spelled (g.withFunctionArguments p) := by
  mvcgen [withFunctionArguments]
  all_goals grind [Path.Spelled]

/-! ## 3. Bounds -/

@[spec]
theorem yields_pathBound : Yields SpelledAll g.pathBound := by
  mvcgen [pathBound]
  all_goals grind

@[spec]
theorem yields_boundOf : Yields SpelledAll g.boundOf := by
  have hinner := yields_enclosed (yields_pathBound hg)
  mvcgen [boundOf, keeps_commas, hinner]
  all_goals grind

@[spec]
theorem yields_qualifiedPath (inExpr : Bool) : Yields Path.Spelled (g.qualifiedPath inExpr) := by
  have hmany := @yields_manyWhile _ SegmentSpelled
  mvcgen [qualifiedPath, hmany]
  all_goals grind [Path.Spelled, spelled_ofSegments]

@[spec]
theorem yields_boundAndKind : Yields (fun b => SpelledAll b.2) g.boundAndKind := by
  mvcgen [boundAndKind]
  all_goals grind

@[spec]
theorem yields_boundsOfType (plus : Bool) : Yields SpelledAll (g.boundsOfType plus) := by
  have hbounds := yields_joinedBy (yields_boundAndKind hg)
  mvcgen [boundsOfType, hbounds]
  all_goals grind

/-! ## 4. Types -/

/-- What an invocation encloses is spelled in names, if it can be read. -/
theorem spelledAll_arguments {inner : List Tree} (hinner : PlainWords inner) :
    SpelledAll ((whole (commasToEnd g.anyExpr) inner).getD []) :=
  spelledAll_getD.mpr fun _ hargs =>
    spelledAll_iff.mpr (of_whole (yields_commasToEnd (yields_anyExpr hg)) hinner hargs)

@[spec]
theorem yields_addedBounds (plus : Bool) {first : List Expr} (hfirst : SpelledAll first) :
    Yields SpelledAll (g.addedBounds plus first) := by
  have hmany := @yields_many _ SpelledAll
  mvcgen [addedBounds, hmany]
  all_goals grind

@[spec]
theorem yields_functionType : Yields TypeShape.Spelled g.functionType := by
  have hcommas := @yields_commasToEnd _ SpelledAll
  have henclosed := @yields_enclosed _ fun parts : List (List Expr) => ∀ es ∈ parts, SpelledAll es
  mvcgen [functionType, henclosed, hcommas]
  all_goals grind

@[spec]
theorem yields_pathType (plus : Bool) {quantified : Option (List Expr)}
    (hquantified : ∀ es, quantified = some es → SpelledAll es) :
    Yields TypeShape.Spelled (g.pathType plus quantified) := by
  mvcgen [pathType]
  all_goals grind [Path.Spelled, SegmentSpelled, spelledAll_arguments]

@[spec]
theorem yields_groupedType (plus : Bool) :
    Yields TypeShape.Spelled (g.groupedType plus) := by
  have hcommas := yields_commasToEnd (hg.type true)
  have henclosed := @yields_enclosed _ fun parts : List (List Expr) => ∀ es ∈ parts, SpelledAll es
  mvcgen [groupedType, henclosed, hcommas]
  all_goals grind

@[spec]
theorem yields_typeBody (plus : Bool) {quantified : Option (List Expr)}
    (hquantified : ∀ es, quantified = some es → SpelledAll es) :
    Yields TypeShape.Spelled (g.typeBody plus quantified) := by
  have henclosed := @yields_enclosed _ TypeShape.Spelled
  mvcgen [typeBody, henclosed]
  all_goals grind

@[spec]
theorem yields_typeOf (plus : Bool) : Yields TypeShape.Spelled (g.typeOf plus) := by
  mvcgen [typeOf]
  all_goals grind

/-! ## 5. Type parameters -/

@[spec]
theorem keeps_boundsUpTo (stop : List Tree → Bool) : Keeps (g.boundsUpTo stop) := by
  mvcgen [boundsUpTo, keeps_many]
  all_goals grind

@[spec]
theorem keeps_typeParameter : Keeps g.typeParameter := by
  mvcgen [typeParameter]
  all_goals grind

@[spec]
theorem keeps_typeParameters : Keeps g.typeParameters := by
  mvcgen [typeParameters, keeps_commas]
  all_goals grind

@[spec]
theorem keeps_conditions : Keeps g.conditions := by
  mvcgen [conditions, keeps_many]
  all_goals grind

end Nested

end Grammar

end Source

end CodeCausality
