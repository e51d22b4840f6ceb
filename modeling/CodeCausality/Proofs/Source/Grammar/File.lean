import CodeCausality.Proofs.Source.Grammar.Item
import CodeCausality.Proofs.Source.Grammar.Words
import CodeCausality.Proofs.Traversal
import CodeCausality.Source.Grammar.File

/-!
# All that is read is spelled in names

* `Grammar.spelled_ofDepth` -- by induction on how deep things may be nested: the productions of a
  grammar read what is spelled in names if those of the grammar one step below do;
* `spelled_of_readFiles` -- so all functions of files that can be read are.
-/

namespace CodeCausality

namespace Source

open Std.Do Production

set_option mvcgen.warning false

/-! ## 1. The grammars -/

/-- **Whatever the depth, the grammar reads from plain words what is spelled in names.** -/
theorem Grammar.spelled_ofDepth (n : Nat) : (Grammar.ofDepth n).Spelled := by
  induction n with
  | zero => exact spelled_empty
  | succ n ih => exact {
      expr := yields_exprOf ih
      operand := yields_operandOf ih
      unary := fun braces => by
        have hunary := yields_unaryOf ih braces
        refine (?_ : Yields Expr.Spelled (Reading.expr <$> _))
        mvcgen [hunary]
      leading := yields_leadingOf ih
      type := yields_typeOf ih
      bound := yields_boundOf ih
      pattern := yields_patternOf ih
      statements := yields_statementsOf ih
      item := yields_itemOf ih }

theorem spelledItems_of_itemsOf? {text : String} {items : List Item}
    (h : itemsOf? text = some items) : SpelledItems items := by
  obtain ⟨ts, hts, hitems⟩ := Option.bind_eq_some_iff.mp h
  have hg := Grammar.spelled_ofDepth (sufficientDepth ts)
  have hread := yields_after (Grammar.yields_innerAttributes hg).keeps fun _ =>
    yields_manyToEnd hg.item
  exact spelledItems_iff.mpr (of_whole hread (plainWords_of_treesOf? hts) hitems)

/-! ## 2. The functions -/

mutual

theorem spelled_of_mem_definitionsOfItem {i : Item} (hi : i.Spelled) (outer : String) :
    ∀ d ∈ definitionsOfItem outer i, d.function.Spelled :=
  match i, hi with
  | .function f, hi => fun d hd => List.mem_singleton.mp hd ▸ hi
  | .implementation (some t) methods, hi => fun d hd => by
    obtain ⟨f, hf, rfl⟩ := List.mem_map.mp hd
    exact hi f hf
  | .implementation none _, _ => fun _ hd => nomatch hd
  | .module _ items, hi => spelled_of_mem_definitions (show SpelledItems items from hi) _
  | .other, _ => fun _ hd => nomatch hd

theorem spelled_of_mem_definitions {items : List Item} (hitems : SpelledItems items)
    (outer : String) : ∀ d ∈ definitions outer items, d.function.Spelled :=
  match items, hitems with
  | [], _ => fun _ hd => nomatch hd
  | _ :: _, ⟨hi, hrest⟩ => fun d hd => by
    obtain hd | hd := List.mem_append.mp hd
    · exact spelled_of_mem_definitionsOfItem hi outer d hd
    · exact spelled_of_mem_definitions hrest outer d hd

end

/-- **All functions of files that can be read are spelled in names.** -/
theorem spelled_of_readFiles {strict : Bool} {files : List SourceFile} {units : List SourceUnit}
    (h : readFiles strict files = .ok units) : Spelled units := by
  induction files generalizing units with
  | nil =>
    obtain rfl := Except.ok.inj h
    exact fun u hu => nomatch hu
  | cons file rest ih =>
    rw [readFiles] at h
    split at h
    · rename_i u hu
      obtain ⟨later, hlater, rfl⟩ := map_eq_ok_iff.mp h
      obtain ⟨items, hitems, rfl⟩ := Option.map_eq_some_iff.mp hu
      intro v hv
      obtain rfl | hv := List.mem_cons.mp hv
      · exact spelled_of_mem_definitions (spelledItems_of_itemsOf? hitems) _
      · exact ih hlater v hv
    · split at h
      · cases h
      · exact ih h

end Source

end CodeCausality
