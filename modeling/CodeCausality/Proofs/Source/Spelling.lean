import CodeCausality.Source.Index

/-!
# Names in a text

A name has none of the marks in it that ids are put together with, and one that stands for a value
is not the word `return`.

* `Plain`, `Named` -- such a word, and such a name;
* `Expr.Spelled`, `Stmt.Spelled`, `SpelledBody`, `Function.Spelled` -- a text all of whose names are;
* `Spelled` -- files all of whose functions are.
-/

namespace CodeCausality

namespace Source

/-- A word without the marks that ids are put together with. -/
structure Plain (x : String) : Prop where
  noColon : ':' ∉ x.toList
  noAt : '@' ∉ x.toList
  noBang : '!' ∉ x.toList
  nonempty : x ≠ ""

instance (x : String) : Decidable (Plain x) :=
  decidable_of_iff (':' ∉ x.toList ∧ '@' ∉ x.toList ∧ '!' ∉ x.toList ∧ x ≠ "")
    ⟨fun ⟨hcolon, hat, hbang, hne⟩ => ⟨hcolon, hat, hbang, hne⟩,
      fun ⟨hcolon, hat, hbang, hne⟩ => ⟨hcolon, hat, hbang, hne⟩⟩

/-- A word that can stand for a value. -/
def Named (x : String) : Prop := Plain x ∧ x ≠ "return"

instance (x : String) : Decidable (Named x) := inferInstanceAs (Decidable (_ ∧ _))

mutual

/-- All single names in the expression, and all that are bound there, are names. -/
def Expr.Spelled : Expr → Prop
  | .name x => Named x
  | .path _ parts => SpelledAll parts
  | .text _ => True
  | .parts es => SpelledAll es
  | .operation left right => left.Spelled ∧ right.Spelled
  | .assign target value _ => target.Spelled ∧ value.Spelled
  | .update target value _ => target.Spelled ∧ value.Spelled
  | .call values callee args _ => SpelledAll values ∧ callee.Spelled ∧ SpelledAll args
  | .method values receiver _ typeArgs args _ =>
    SpelledAll values ∧ receiver.Spelled ∧ SpelledAll typeArgs ∧ SpelledAll args
  | .invocation _ args _ => SpelledAll args
  | .branch condition body otherwise =>
    condition.Spelled ∧ SpelledBody body ∧ SpelledOptional otherwise
  | .whileLoop condition body => condition.Spelled ∧ SpelledBody body
  | .select subject arms => subject.Spelled ∧ SpelledArms arms
  | .forLoop names patternParts source body _ =>
    (∀ x ∈ names, Named x) ∧ SpelledAll patternParts ∧ source.Spelled ∧ SpelledBody body
  | .block body => SpelledBody body
  | .giveBack value => SpelledOptional value
  | .marked values e => SpelledAll values ∧ e.Spelled

def SpelledAll : List Expr → Prop
  | [] => True
  | e :: es => e.Spelled ∧ SpelledAll es

def SpelledOptional : Option Expr → Prop
  | none => True
  | some e => e.Spelled

def Arm.Spelled : Arm → Prop
  | ⟨patternParts, guard, body⟩ => SpelledAll patternParts ∧ SpelledOptional guard ∧ body.Spelled

def SpelledArms : List Arm → Prop
  | [] => True
  | a :: rest => a.Spelled ∧ SpelledArms rest

def Stmt.Spelled : Stmt → Prop
  | .item => True
  | .bind names patternParts value otherwise _ =>
    (∀ x ∈ names, Named x) ∧ SpelledAll patternParts ∧ SpelledOptional value ∧
      SpelledOptional otherwise
  | .run e _ => e.Spelled

def SpelledBody : List Stmt → Prop
  | [] => True
  | s :: rest => s.Spelled ∧ SpelledBody rest

end

theorem Expr.Spelled.named {e : Expr} (h : e.Spelled) {x : String} (hx : e.name? = some x) :
    Named x := by
  fun_induction Expr.name? e with
  | case1 y =>
    obtain rfl := Option.some.inj hx
    rwa [Expr.Spelled] at h
  | case2 values e ih =>
    rw [Expr.Spelled] at h
    exact ih h.2 hx
  | case3 => cases hx

/-- The function has a name, and so have its parameters and all that is named in the body. -/
structure Function.Spelled (f : Function) : Prop where
  name : Named f.name
  params : ∀ x, some x ∈ f.params → Named x
  body : SpelledBody f.body

/-- All functions of the files are spelled in names. -/
def Spelled (units : List SourceUnit) : Prop :=
  ∀ u ∈ units, ∀ d ∈ u.definitions, d.function.Spelled

end Source

end CodeCausality
