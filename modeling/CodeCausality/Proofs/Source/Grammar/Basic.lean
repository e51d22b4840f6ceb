import Mathlib
import CodeCausality.Proofs.Source.Spelling
import CodeCausality.Source.Grammar.Basic

/-!
# What productions make of plain words

Names come into a syntax tree only as words of the token trees that are read. So if all these words
are plain, the names are:

* `PlainWords` -- trees all of whose words are plain, inside of groups too;
* `Yields`, `Keeps` -- from such trees, a production that gives something gives something of a kind,
  and leaves such trees;
* one such triple for each elementary step and for each kind of repetition;
* `Grammar.Spelled` -- the same of all productions of a grammar.
-/

namespace CodeCausality

namespace Source

open Std.Do Production

set_option mvcgen.warning false

/-! ## 1. Plain words -/

/-- All words are plain, those inside of groups among them. -/
def PlainWords : List Tree → Prop
  | [] => True
  | .word s _ :: rest => Plain s ∧ PlainWords rest
  | .group _ inner _ :: rest => PlainWords inner ∧ PlainWords rest
  | _ :: rest => PlainWords rest

theorem PlainWords.tail {t : Tree} {ts : List Tree} (h : PlainWords (t :: ts)) :
    PlainWords ts := by
  cases t <;> simp_all only [PlainWords]

theorem PlainWords.after {cs : List Char} {ts rest : List Tree} (h : PlainWords ts)
    (hrest : Tree.afterMarks? cs ts = some rest) : PlainWords rest := by
  fun_induction Tree.afterMarks? cs ts with
  | case1 ts => exact Option.some.inj hrest ▸ h
  | case2 c joint line ts => exact Option.some.inj hrest ▸ h.tail
  | case3 => cases hrest
  | case4 =>
    rename_i ih
    exact ih h.tail hrest
  | case5 => cases hrest
  | case6 => cases hrest

/-! ## 2. Triples -/

variable {α β : Type}

/-- From plain words, what the production gives has the property, and plain words are left. -/
abbrev Yields (P : α → Prop) (p : Production α) : Prop :=
  ⦃fun ts => ⌜PlainWords ts⌝⦄ p ⦃⇓? a ts => ⌜P a ∧ PlainWords ts⌝⦄

/-- From plain words, the production leaves plain words. -/
abbrev Keeps (p : Production α) : Prop :=
  ⦃fun ts => ⌜PlainWords ts⌝⦄ p ⦃⇓? _ ts => ⌜PlainWords ts⌝⦄

/-- What is to hold of what a production gives and leaves. -/
abbrev Outcome (α : Type) := PostCond α (.arg (List Tree) (.except PUnit .pure))

theorem wp_apply (p : Production α) (Q : Outcome α) (ts : List Tree) :
    wp⟦p⟧ Q ts = match p ts with
      | some (a, rest) => Q.1 a rest
      | none => Q.2.1 ⟨⟩ := by
  have hwp : wp⟦p⟧ Q ts = (wp (p ts)).apply (fun (a, rest) => Q.1 a rest, Q.2) := rfl
  rw [hwp]
  cases p ts with
  | none => rfl
  | some q => rfl

theorem yields_iff {P : α → Prop} {p : Production α} :
    Yields P p ↔ ∀ ts a rest, PlainWords ts → p ts = some (a, rest) → P a ∧ PlainWords rest := by
  unfold Yields
  rw [Triple.iff]
  constructor
  · intro h ts a rest hts hp
    have := h ts hts
    rw [wp_apply, hp] at this
    exact this
  · intro h ts hts
    rw [wp_apply]
    split
    · exact h _ _ _ hts ‹_›
    · trivial

theorem Yields.weaken {P P' : α → Prop} {p : Production α} (h : Yields P p)
    (hP : ∀ a, P a → P' a) : Yields P' p :=
  h.entails_wp_of_post ⟨fun a _ h => ⟨hP a h.1, h.2⟩, fun _ _ => trivial, trivial⟩

theorem Yields.keeps {P : α → Prop} {p : Production α} (h : Yields P p) : Keeps p :=
  h.entails_wp_of_post ⟨fun _ _ h => h.2, fun _ _ => trivial, trivial⟩

theorem Keeps.yields {P : α → Prop} {p : Production α} (h : Keeps p) (hP : ∀ a, P a) : Yields P p :=
  h.entails_wp_of_post ⟨fun a _ h => ⟨hP a, h⟩, fun _ _ => trivial, trivial⟩

/-! ## 3. Single steps -/

@[spec]
theorem spec_ahead (test : List Tree → Bool) (Q : Outcome Bool) :
    ⦃fun ts => Q.1 (test ts) ts⦄ ahead test ⦃Q⦄ := fun ts h => by
  rw [wp_apply]
  exact h

@[spec]
theorem spec_failure (Q : Outcome α) : ⦃fun _ => Q.2.1 ⟨⟩⦄ (failure : Production α) ⦃Q⦄ :=
  fun ts h => by
    rw [wp_apply]
    exact h

@[spec]
theorem spec_discard (p : Production α) (Q : Outcome PUnit) :
    ⦃wp⟦p⟧ (fun _ => Q.1 ⟨⟩, Q.2)⦄ (discard p : Production PUnit) ⦃Q⦄ := fun ts h => by
  have hmap : (discard p : Production PUnit) ts = (p ts).bind fun q => some (⟨⟩, q.2) := rfl
  rw [wp_apply] at h ⊢
  rw [hmap]
  cases hp : p ts with
  | none =>
    rw [hp] at h
    exact h
  | some q =>
    rw [hp] at h
    exact h

/-- Where the first production gives nothing, the second starts from the same trees. -/
@[spec]
theorem spec_orElse (p q : Production α) (Q : Outcome α) :
    ⦃fun ts => wp⟦p⟧ (Q.1, fun _ => wp⟦q⟧ Q ts, Q.2.2) ts⦄ (p <|> q) ⦃Q⦄ := fun ts h => by
  have hchoice : (p <|> q) ts = (p ts <|> q ts) := rfl
  dsimp only at h
  rw [wp_apply] at h ⊢
  rw [hchoice]
  cases hp : p ts with
  | none =>
    rw [hp] at h
    dsimp only at h
    rw [wp_apply] at h
    exact h
  | some a =>
    rw [hp] at h
    exact h

@[spec]
theorem keeps_tree : Keeps tree := fun ts h => by
  rw [wp_apply]
  cases ts with
  | nil => trivial
  | cons t ts => exact PlainWords.tail h

/-- The word that is taken is the one that came next. -/
@[spec]
theorem spec_anyWord (before : List Tree) :
    ⦃fun ts => ⌜ts = before ∧ PlainWords ts⌝⦄ anyWord
      ⦃⇓? s ts => ⌜Plain s ∧ Tree.startsWord s before = true ∧ PlainWords ts⌝⦄ := fun ts h => by
  obtain ⟨rfl, h⟩ := h
  rw [wp_apply]
  unfold anyWord
  split
  · rename_i s rest hword
    split at hword
    · obtain ⟨rfl, rfl⟩ := Prod.mk.inj (Option.some.inj hword)
      rw [PlainWords] at h
      exact ⟨h.1, by simp [Tree.startsWord, Tree.word?], h.2⟩
    · cases hword
  · trivial

@[spec]
theorem keeps_marks (s : String) : Keeps (marks s) := fun ts h => by
  rw [wp_apply]
  unfold marks
  cases hrest : Tree.afterMarks? s.toList ts with
  | none => trivial
  | some rest => exact PlainWords.after h hrest

@[spec]
theorem keeps_marks? (s : String) : Keeps (marks? s) := fun ts h => by
  rw [wp_apply]
  unfold marks?
  cases hrest : Tree.afterMarks? s.toList ts with
  | none => exact h
  | some rest => exact PlainWords.after h hrest

@[spec]
theorem yields_anyGroup : Yields (fun found => PlainWords found.2) anyGroup := fun ts h => by
  rw [wp_apply]
  unfold anyGroup
  split
  · rename_i found rest hgroup
    split at hgroup
    · obtain ⟨rfl, rfl⟩ := Prod.mk.inj (Option.some.inj hgroup)
      simpa only [PlainWords] using h
    · cases hgroup
  · trivial

@[spec]
theorem keeps_atEnd : Keeps atEnd := by
  mvcgen [atEnd]

theorem keeps_ahead (test : List Tree → Bool) : Keeps (ahead test) := by
  mvcgen

section Word

variable {ts : List Tree} {s : String} (hword : Tree.startsWord s ts = true) (hplain : Plain s)

include hword hplain

/-- A word other than `return` that has to come next is a name. -/
theorem named_of_startsWord {t : String} (hnext : Tree.startsWord t ts = true)
    (ht : t ≠ "return") : Named s := by
  refine ⟨hplain, ?_⟩
  unfold Tree.startsWord at hword hnext
  rw [eq_of_beq hnext] at hword
  exact Option.some.inj (eq_of_beq hword) ▸ ht

theorem named_of_startsOneOf {words : List String} (hone : Tree.startsOneOf words ts = true)
    (hreturn : "return" ∉ words) : Named s := by
  obtain ⟨t, ht, hnext⟩ := List.any_eq_true.mp hone
  exact named_of_startsWord hword hplain hnext fun heq => hreturn (heq ▸ ht)

/-- A word that is not reserved is a name. -/
theorem named_of_startsName (hname : Tree.startsName ts = true) : Named s := by
  refine ⟨hplain, ?_⟩
  rintro rfl
  unfold Tree.startsName at hname
  split at hname
  · obtain rfl : _ = "return" := by simpa [Tree.startsWord, Tree.word?] using hword
    exact absurd hname (by decide)
  · cases hname

end Word

@[spec]
theorem yields_name : Yields Named name := by
  mvcgen [name]
  rename_i hname s rest
  exact fun hplain hword hrest => ⟨named_of_startsName hword hplain hname, hrest⟩

@[spec]
theorem keeps_word (s : String) : Keeps (word s) := by
  mvcgen [word]

@[spec]
theorem keeps_word? (s : String) : Keeps (word? s) := by
  mvcgen [word?]

@[spec]
theorem keeps_lifetime : Keeps lifetime := by
  mvcgen [lifetime]

@[spec]
theorem yields_literal : Yields Expr.Spelled literal := by
  mvcgen [literal]

theorem yields_after {P : α → Prop} {p : Production β} {k : β → Production α} (hp : Keeps p)
    (hk : ∀ b, Yields P (k b)) : Yields P (p >>= k) := by
  mvcgen [hp, hk]

theorem yields_ite {P : α → Prop} {p q : Production α} {taken : Bool} (hp : Yields P p)
    (hq : Yields P q) : Yields P (if taken = true then p else q) := by
  split
  · exact hp
  · exact hq

/-- What follows a step that is left out in some cases is looked at once. -/
theorem yields_afterOption {P : α → Prop} {p : Production Unit} {k : Unit → Production α}
    (hp : Keeps p) (hk : Yields P (k ())) {taken : Bool} :
    Yields P (if taken = true then p >>= k else k ()) :=
  yields_ite (yields_after hp fun _ => hk) hk

/-! ## 4. Groups and repetition -/

section Repetition

variable {P : α → Prop}

theorem whole_eq_some {p : Production α} {inner : List Tree} {a : α}
    (h : whole p inner = some a) : p inner = some (a, []) := by
  unfold whole at h
  split at h
  · rename_i b hb
    exact Option.some.inj h ▸ hb
  · cases h

theorem of_whole {p : Production α} (h : Yields P p) {inner : List Tree} (hinner : PlainWords inner)
    {a : α} (ha : whole p inner = some a) : P a :=
  (yields_iff.mp h _ _ _ hinner (whole_eq_some ha)).1

theorem yields_enclosed {p : Production α} (h : Yields P p) (d : Delimiter) :
    Yields P (enclosed d p) := by
  mvcgen [enclosed]
  rename_i a ha rest hrest
  exact ⟨of_whole h hrest.1 ha, hrest.2⟩

theorem keeps_enclosed (d : Delimiter) (p : Production α) : Keeps (enclosed d p) := by
  mvcgen [enclosed]
  all_goals grind

theorem yields_repeatAtMost {p : Production (Option α)}
    (h : Yields (fun found => ∀ a, found = some a → P a) p) (n : Nat) :
    Yields (fun as => ∀ a ∈ as, P a) (repeatAtMost p n) := by
  induction n with
  | zero =>
    mvcgen [repeatAtMost]
    grind
  | succ n ih =>
    mvcgen [repeatAtMost, h, ih]
    all_goals grind

theorem yields_many {p : Production (Option α)}
    (h : Yields (fun found => ∀ a, found = some a → P a) p) :
    Yields (fun as => ∀ a ∈ as, P a) (many p) := by
  have hrepeat := yields_repeatAtMost h
  mvcgen [many, hrepeat]

theorem keeps_many {p : Production (Option α)} (h : Keeps p) : Keeps (many p) :=
  (yields_many (h.yields fun _ _ _ => trivial)).keeps

theorem yields_manyWhile {p : Production α} (h : Yields P p) (goOn : List Tree → Bool) :
    Yields (fun as => ∀ a ∈ as, P a) (manyWhile goOn p) := by
  mvcgen [manyWhile, yields_many, h]
  all_goals grind

theorem keeps_manyWhile {p : Production α} (h : Keeps p) (goOn : List Tree → Bool) :
    Keeps (manyWhile goOn p) := (yields_manyWhile (h.yields fun _ => trivial) goOn).keeps

theorem yields_manyToEnd {p : Production α} (h : Yields P p) :
    Yields (fun as => ∀ a ∈ as, P a) (manyToEnd p) := yields_manyWhile h _

theorem yields_separatedAtMost {p : Production α} (h : Yields P p) (mark : String)
    (stop : List Tree → Bool) (n : Nat) :
    Yields (fun as => ∀ a ∈ as, P a) (separatedAtMost mark stop p n) := by
  induction n with
  | zero => mvcgen [separatedAtMost]
  | succ n ih =>
    mvcgen [separatedAtMost, h, ih]
    all_goals grind

theorem yields_commas {p : Production α} (h : Yields P p) (stop : List Tree → Bool) :
    Yields (fun as => ∀ a ∈ as, P a) (commas stop p) := by
  have hseparated := yields_separatedAtMost h
  mvcgen [commas, hseparated]

theorem keeps_commas {p : Production α} (h : Keeps p) (stop : List Tree → Bool) :
    Keeps (commas stop p) := (yields_commas (h.yields fun _ => trivial) stop).keeps

theorem yields_commasToEnd {p : Production α} (h : Yields P p) :
    Yields (fun as => ∀ a ∈ as, P a) (commasToEnd p) := yields_commas h _

theorem yields_joinedBy {p : Production α} (h : Yields P p) (mark : String)
    (stop : List Tree → Bool) : Yields (fun as => ∀ a ∈ as, P a) (joinedBy mark stop p) := by
  mvcgen [joinedBy, yields_many, h]
  all_goals grind

end Repetition

/-! ## 5. What is read -/

attribute [simp] Expr.Spelled SpelledAll SpelledOptional Arm.Spelled SpelledArms Stmt.Spelled
  SpelledBody

attribute [grind =] Expr.Spelled SpelledAll Arm.Spelled SpelledArms Stmt.Spelled SpelledBody

@[grind =]
theorem spelledAll_append {es es' : List Expr} :
    SpelledAll (es ++ es') ↔ SpelledAll es ∧ SpelledAll es' := by
  induction es with
  | nil => simp
  | cons e es ih => simp [ih, and_assoc]

@[grind =]
theorem spelledAll_flatten {parts : List (List Expr)} :
    SpelledAll parts.flatten ↔ ∀ es ∈ parts, SpelledAll es := by
  induction parts with
  | nil => simp
  | cons es parts ih => simp [spelledAll_append, ih]

@[grind =]
theorem spelledAll_flatMap {f : α → List Expr} {as : List α} :
    SpelledAll (as.flatMap f) ↔ ∀ a ∈ as, SpelledAll (f a) := by
  induction as with
  | nil => simp
  | cons a as ih => simp [spelledAll_append, ih]

@[grind =]
theorem spelledAll_getD {es : Option (List Expr)} :
    SpelledAll (es.getD []) ↔ ∀ es', es = some es' → SpelledAll es' := by
  cases es <;> simp

@[grind =]
theorem spelledAll_map_getD {f : α → List Expr} {a : Option α} :
    SpelledAll ((a.map f).getD []) ↔ ∀ b, a = some b → SpelledAll (f b) := by
  cases a <;> simp

@[grind =]
theorem spelledOptional_iff {e : Option Expr} :
    SpelledOptional e ↔ ∀ e', e = some e' → e'.Spelled := by
  cases e <;> simp

@[grind =]
theorem spelledAll_toList {e : Option Expr} :
    SpelledAll e.toList ↔ ∀ e', e = some e' → e'.Spelled := by
  cases e <;> simp

theorem Expr.Spelled.mark {e : Expr} (h : e.Spelled) {values : List Expr}
    (hvalues : SpelledAll values) : (e.mark values).Spelled := by
  unfold Expr.mark
  split
  · exact h
  · rw [Expr.Spelled]
    exact ⟨hvalues, h⟩

attribute [grind ←] Expr.Spelled.mark

theorem spelledAll_iff {es : List Expr} : SpelledAll es ↔ ∀ e ∈ es, e.Spelled := by
  induction es with
  | nil => simp
  | cons e es ih => simp [ih]

theorem spelledArms_iff {arms : List Arm} : SpelledArms arms ↔ ∀ a ∈ arms, a.Spelled := by
  induction arms with
  | nil => simp
  | cons a arms ih => simp [ih]

/-- All segments of the path are names, and so are the names in its parts. -/
structure Path.Spelled (p : Path) : Prop where
  segments : ∀ s ∈ p.segments, Named s
  parts : SpelledAll p.parts

/-- All names in the parts of the type are. -/
abbrev TypeShape.Spelled (t : TypeShape) : Prop := SpelledAll t.parts

structure Pattern.Spelled (p : Pattern) : Prop where
  names : ∀ x ∈ p.names, Named x
  name : ∀ x, p.name? = some x → Named x
  parts : SpelledAll p.parts

abbrev Reading.Spelled (r : Reading) : Prop := r.expr.Spelled

mutual

/-- All functions that the item defines are spelled in names. -/
def Item.Spelled : Item → Prop
  | .function f => f.Spelled
  | .implementation _ methods => ∀ f ∈ methods, f.Spelled
  | .module _ items => SpelledItems items
  | .other => True

def SpelledItems : List Item → Prop
  | [] => True
  | i :: rest => i.Spelled ∧ SpelledItems rest

end

attribute [simp, grind =] Item.Spelled SpelledItems

theorem spelledItems_iff {items : List Item} : SpelledItems items ↔ ∀ i ∈ items, i.Spelled := by
  induction items with
  | nil => simp
  | cons i items ih => simp [ih]

attribute [grind →] Path.Spelled.parts Pattern.Spelled.parts

/-- From plain words, all productions of the grammar read what is spelled in names. -/
structure Grammar.Spelled (g : Grammar) : Prop where
  expr : ∀ braces level, Yields Expr.Spelled (g.expr braces level)
  operand : ∀ braces level, Yields Expr.Spelled (g.operand braces level)
  unary : ∀ braces, Yields Expr.Spelled (g.unary braces)
  leading : Yields Reading.Spelled g.leading
  type : ∀ plus, Yields TypeShape.Spelled (g.type plus)
  bound : Yields SpelledAll g.bound
  pattern : Yields Pattern.Spelled g.pattern
  statements : Yields SpelledBody g.statements
  item : Yields Item.Spelled g.item

theorem Grammar.spelled_empty : Grammar.empty.Spelled := by
  constructor
  all_goals
    intros
    unfold Grammar.empty
    mvcgen

theorem Path.Spelled.toExpr {p : Path} (h : p.Spelled) : p.toExpr.Spelled := by
  unfold Path.toExpr
  split
  · rename_i x hx
    unfold Path.name? at hx
    split at hx
    · rename_i y hy
      split at hx
      · obtain rfl := Option.some.inj hx
        rw [Expr.Spelled]
        exact h.segments y (by rw [hy]; exact List.mem_cons_self)
      · cases hx
    · cases hx
  · exact h.parts

end Source

end CodeCausality
