import CodeCausality.Proofs.Source.Grammar.Basic
import CodeCausality.Source.Lexeme

/-!
# The words of a text are plain

A word takes characters that continue names, and the two marks that make a reserved word a name.
None of them is a mark that ids are put together with. So

* `plainWord_of_scan?` -- no lexeme of a text holds such a mark in a word;
* `plainWords_of_assemble?` -- neither do the trees that lexemes are put together to, whatever the
  groups that are still open;
* `plainWords_of_treesOf?` -- neither do the trees of a text.
-/

namespace CodeCausality

namespace Source

open Text

/-! ## 1. Words -/

theorem ne_of_continuesNames {c : Char} (h : continuesNames c = true) :
    c ≠ ':' ∧ c ≠ '@' ∧ c ≠ '!' := by
  refine ⟨?_, ?_, ?_⟩
  all_goals
    rintro rfl
    exact absurd h (by decide)

theorem continuesNames_of_mem_take {s : List Char} {c : Char} (h : c ∈ s.take (nameSize s)) :
    continuesNames c = true := by
  cases s with
  | nil => cases h
  | cons d rest =>
    rw [nameSize] at h
    split at h
    · rename_i hd
      rw [Nat.add_comm, List.take_succ_cons,
        ← List.prefix_iff_eq_take.mp (List.takeWhile_prefix _)] at h
      obtain rfl | hmem := List.mem_cons.mp h
      · exact continuesNames_of_startsNames hd
      · exact List.mem_takeWhile_imp hmem
    · cases h

namespace Lexeme

theorem plain_wordSize {s : List Char} (hsize : wordSize s ≠ 0) :
    Plain (String.ofList (s.take (wordSize s))) := by
  have hname : ∀ {t : List Char} {c : Char}, c ∈ t.take (nameSize t) →
      c ≠ ':' ∧ c ≠ '@' ∧ c ≠ '!' :=
    fun h => ne_of_continuesNames (continuesNames_of_mem_take h)
  have hword : ∀ c ∈ s.take (wordSize s), c ≠ ':' ∧ c ≠ '@' ∧ c ≠ '!' := by
    intro c hc
    unfold wordSize at hc
    split at hc
    · -- the two marks before a reserved word
      dsimp only at hc
      split at hc
      · cases hc
      · rw [List.take_succ_cons, List.take_succ_cons] at hc
        obtain rfl | hc := List.mem_cons.mp hc
        · decide
        obtain rfl | hc := List.mem_cons.mp hc
        · decide
        · exact hname hc
    · exact hname hc
  have hne : s ≠ [] := by
    rintro rfl
    exact hsize rfl
  constructor
  · rw [String.toList_ofList]
    exact fun h => (hword _ h).1 rfl
  · rw [String.toList_ofList]
    exact fun h => (hword _ h).2.1 rfl
  · rw [String.toList_ofList]
    exact fun h => (hword _ h).2.2 rfl
  · intro hempty
    have hnil := congrArg String.toList hempty
    rw [String.toList_ofList, String.toList_empty, List.take_eq_nil_iff] at hnil
    exact hnil.elim hsize hne

/-- If the lexeme is a word, it is plain. -/
def PlainWord (x : Lexeme) : Prop := ∀ s, x = .word s → Plain s

theorem plainWord_documentation (inner : Bool) (content : List Char) :
    ∀ x ∈ documentation inner content, x.PlainWord := by
  rintro x hx s rfl
  obtain rfl : s = "doc" := by
    cases inner <;> simpa [documentation] using hx
  decide

theorem plainWord_of_comment? {s : List Char} {found : List Lexeme} {size : Nat}
    (h : comment? s = some (found, size)) : ∀ x ∈ found, x.PlainWord := by
  have hline : ∀ {inner : Bool} {s : List Char}, lineDocumentation inner s = some (found, size) →
      ∀ x ∈ found, x.PlainWord := by
    intro inner s h
    simp only [lineDocumentation, Option.ite_none_right_eq_some, Option.some.injEq,
      Prod.mk.injEq] at h
    exact h.2.1 ▸ plainWord_documentation _ _
  have hblock : ∀ {inner : Bool} {s : List Char},
      blockDocumentation inner s = some (found, size) → ∀ x ∈ found, x.PlainWord := by
    intro inner s h
    simp only [blockDocumentation, Option.bind_eq_bind, Option.bind_eq_some_iff,
      Option.ite_none_right_eq_some, Option.some.injEq, Prod.mk.injEq] at h
    obtain ⟨_, _, _, hfound, _⟩ := h
    exact hfound ▸ plainWord_documentation _ _
  unfold comment? at h
  split at h
  all_goals first
    | exact hline h
    | exact hblock h
    | grind [Option.map_eq_some_iff]

theorem plainWord_of_delimiter? {c : Char} {x : Lexeme} (h : delimiter? c = some x) :
    x.PlainWord := by
  rintro s rfl
  unfold delimiter? at h
  split at h
  all_goals cases h

theorem plainWord_of_mark? {s : List Char} {found : List Lexeme} {size : Nat}
    (h : mark? s = some (found, size)) : ∀ x ∈ found, x.PlainWord := by
  unfold mark? at h
  grind [PlainWord]

theorem plainWord_of_word? {s : List Char} {found : List Lexeme} {size : Nat}
    (h : word? s = some (found, size)) : ∀ x ∈ found, x.PlainWord := by
  simp only [word?, Option.ite_none_left_eq_some, Option.some.injEq, Prod.mk.injEq] at h
  obtain ⟨_, hsize, rfl, _⟩ := h
  rintro x hx t rfl
  obtain rfl := Lexeme.word.inj (List.mem_singleton.mp hx)
  exact plain_wordSize hsize

theorem plainWord_of_next? {s : List Char} {found : List Lexeme} {size : Nat}
    (h : next? s = some (found, size)) : ∀ x ∈ found, x.PlainWord := by
  unfold next? at h
  split at h
  · cases h
  rename_i c rest
  split at h
  · grind
  split at h
  · exact plainWord_of_comment? h
  split at h
  · rename_i d hd
    obtain ⟨rfl, -⟩ := Prod.mk.inj (Option.some.inj h)
    intro x hx
    exact List.mem_singleton.mp hx ▸ plainWord_of_delimiter? hd
  · simp only [Option.orElse_eq_orElse, Option.orElse_eq_or, Option.or_eq_some_iff] at h
    obtain h | ⟨-, h | ⟨-, h⟩⟩ := h
    · obtain ⟨r, -, hr⟩ := Option.map_eq_some_iff.mp h
      obtain ⟨rfl, -⟩ := Prod.mk.inj hr
      rintro x hx s rfl
      cases List.mem_singleton.mp hx
    · exact plainWord_of_mark? h
    · exact plainWord_of_word? h

theorem plainWord_of_scan? {l skip : Nat} {s : List Char} {lexemes : List (Lexeme × Nat)}
    (h : scan? l skip s = some lexemes) : ∀ x ∈ lexemes, x.1.PlainWord := by
  fun_induction scan? l skip s generalizing lexemes with
  | case1 => grind
  | case2 =>
    rename_i ih
    exact ih h
  | case3 =>
    rename_i ih
    simp only [Option.bind_eq_bind, Option.bind_eq_some_iff, Option.pure_def,
      Option.some.injEq] at h
    obtain ⟨⟨found, size⟩, hnext, more, hmore, rfl⟩ := h
    intro x hx
    obtain hx | hx := List.mem_append.mp hx
    · obtain ⟨y, hy, rfl⟩ := List.mem_map.mp hx
      exact plainWord_of_next? hnext y hy
    · exact ih _ hmore x hx

end Lexeme

/-! ## 2. Trees -/

theorem plainWords_iff {ts : List Tree} : PlainWords ts ↔ ∀ t ∈ ts, PlainWords [t] := by
  induction ts with
  | nil => simp [PlainWords]
  | cons t ts ih =>
    cases t <;> simp [PlainWords, ih]

theorem PlainWords.reverse {ts : List Tree} (h : PlainWords ts) : PlainWords ts.reverse :=
  plainWords_iff.mpr fun t ht => plainWords_iff.mp h t (List.mem_reverse.mp ht)

theorem plainWords_of_assemble? {opened : List OpenGroup} {found ts : List Tree}
    {lexemes : List (Lexeme × Nat)} (hopened : ∀ g ∈ opened, PlainWords g.before)
    (hfound : PlainWords found) (hlexemes : ∀ x ∈ lexemes, x.1.PlainWord)
    (h : assemble? opened found lexemes = some ts) : PlainWords ts := by
  fun_induction assemble? opened found lexemes with
  | case1 => exact Option.some.inj h ▸ hfound.reverse
  | case5 _ opened found _ _ ih =>
    refine ih (fun g hg => hopened g (List.mem_cons_of_mem _ hg)) ?_
      (fun x hx => hlexemes x (List.mem_cons_of_mem _ hx)) h
    rw [PlainWords]
    exact ⟨hfound.reverse, hopened _ List.mem_cons_self⟩
  | case7 _ found s _ _ ih =>
    refine ih hopened ?_ (fun x hx => hlexemes x (List.mem_cons_of_mem _ hx)) h
    rw [PlainWords]
    exact ⟨hlexemes _ List.mem_cons_self s rfl, hfound⟩
  | _ => grind [PlainWords]

theorem plainWords_of_treesOf? {text : String} {ts : List Tree} (h : treesOf? text = some ts) :
    PlainWords ts := by
  obtain ⟨lexemes, hscan, hassemble⟩ := Option.bind_eq_some_iff.mp h
  have hlexemes := Lexeme.plainWord_of_scan? hscan
  exact plainWords_of_assemble? (by simp) (by simp [PlainWords]) hlexemes hassemble

end Source

end CodeCausality
