import CodeCausality.Proofs.Source.Grammar.Type
import CodeCausality.Source.Grammar.Pattern

/-!
# Patterns of plain words

One triple for each production of patterns, given those of the productions that are nested in it.
-/

namespace CodeCausality

namespace Source

open Std.Do Production

set_option mvcgen.warning false

namespace Pattern

theorem spelled_ofParts {parts : List Expr} (h : SpelledAll parts) : (ofParts parts).Spelled where
  names _ hx := absurd hx List.not_mem_nil
  name _ hx := nomatch hx
  parts := h

theorem spelled_bound {x : String} (hx : Named x) {name? : Option String}
    (hname : ∀ y, name? = some y → y = x) {parts : List Expr} (h : SpelledAll parts) :
    Spelled ⟨[x], name?, parts⟩ where
  names _ hy := List.mem_singleton.mp hy ▸ hx
  name y hy := hname y hy ▸ hx
  parts := h

theorem spelled_joined {ps : List Pattern} (h : ∀ p ∈ ps, p.Spelled) : (joined ps).Spelled where
  names x hx := by
    obtain ⟨p, hp, hx⟩ := List.mem_flatMap.mp hx
    exact (h p hp).names x hx
  name _ hx := nomatch hx
  parts := spelledAll_flatMap.mpr fun p hp => (h p hp).parts

section Change

variable {p : Pattern} (h : p.Spelled) {values : List Expr}

include h

theorem Spelled.hidden : p.hidden.Spelled := spelled_ofParts h.parts

theorem Spelled.unnamed : Spelled { p with name? := none } where
  names := h.names
  name _ hx := nomatch hx
  parts := h.parts

theorem Spelled.withParts {parts : List Expr} (hparts : SpelledAll parts) :
    Spelled { p with parts } where
  names := h.names
  name := h.name
  parts := hparts

theorem Spelled.marked (hvalues : SpelledAll values) : (p.marked values).Spelled :=
  h.withParts (spelledAll_append.mpr ⟨hvalues, h.parts⟩)

end Change

attribute [grind ←] spelled_ofParts spelled_joined Spelled.hidden Spelled.unnamed Spelled.withParts
  Spelled.marked

end Pattern

namespace Grammar

variable {g : Grammar} (hg : g.Spelled)

include hg

@[spec]
theorem yields_pattern : Yields Pattern.Spelled g.pattern := hg.pattern

/-! ## 1. Alternatives -/

@[spec]
theorem yields_alternatives : Yields Pattern.Spelled g.alternatives := by
  have hmany := @yields_manyWhile _ Pattern.Spelled
  mvcgen [alternatives, hmany]
  all_goals grind

/-! ## 2. Ranges -/

@[spec]
theorem yields_rangeBound : Yields (fun e => ∀ e', e = some e' → e'.Spelled) g.rangeBound := by
  mvcgen [rangeBound]
  all_goals grind [Path.Spelled.toExpr]

omit hg in
@[spec]
theorem keeps_rangeMark : Keeps rangeMark := by
  mvcgen [rangeMark]

@[spec]
theorem yields_rangeAfter {start : List Expr} (hstart : SpelledAll start) :
    Yields Pattern.Spelled (g.rangeAfter start) := by
  mvcgen [rangeAfter]
  all_goals grind

/-! ## 3. Patterns by what they start with -/

@[spec]
theorem yields_patternList : Yields (fun ps => (Pattern.joined ps).Spelled) g.patternList :=
  (yields_commasToEnd (yields_alternatives hg)).weaken fun _ => Pattern.spelled_joined

omit hg in
@[spec]
theorem yields_member : Yields (fun x => ∀ y, x = some y → Named y) member := by
  mvcgen [member]
  all_goals grind [named_of_startsName]

@[spec]
theorem yields_fieldPattern : Yields Pattern.Spelled g.fieldPattern := by
  mvcgen [fieldPattern]
  all_goals grind [Pattern.Spelled]

@[spec]
theorem yields_fieldPatterns : Yields Pattern.Spelled g.fieldPatterns := by
  have hcommas := @yields_commasToEnd _ Pattern.Spelled
  mvcgen [fieldPatterns, hcommas]
  all_goals grind

@[spec]
theorem yields_pathPattern : Yields Pattern.Spelled g.pathPattern := by
  have hmembers := yields_enclosed (yields_patternList hg)
  have hfields := yields_enclosed (yields_fieldPatterns hg)
  mvcgen [pathPattern, hmembers, hfields]
  all_goals grind [spelledAll_arguments, Path.Spelled.toExpr]

@[spec]
theorem yields_namePattern : Yields Pattern.Spelled g.namePattern := by
  mvcgen [namePattern]
  all_goals grind [Pattern.spelled_bound, named_of_startsWord]

@[spec]
theorem yields_tuplePattern : Yields Pattern.Spelled g.tuplePattern := by
  have henclosed := @yields_enclosed _ fun found : List Pattern × Bool =>
    (Pattern.joined found.1).Spelled
  mvcgen [tuplePattern, henclosed]
  all_goals grind

@[spec]
theorem yields_patternOf : Yields Pattern.Spelled g.patternOf := by
  have hlist := yields_enclosed (yields_patternList hg)
  mvcgen [patternOf, hlist]
  all_goals grind

end Grammar

end Source

end CodeCausality
