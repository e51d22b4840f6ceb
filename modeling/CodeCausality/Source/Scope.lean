import CodeCausality.Source.Flow

/-!
# Scopes

What a text does to its names, in the order of the text, and which of their values are in scope.

* `Event`, `Expr.events`, `eventsOfBody` -- blocks start and end, and names are given values;
* `Scope` -- how many values each name has been given, and which variables are in scope; a block that
  ends takes its own with it;
* `Giving` -- a place of a text where a name is given a value, with the expression that this is of;
* `versionId` -- the element that stands for a value of a name.

The names in the patterns of arms and conditions and those of the parameters of closures are not in
the syntax tree, so they are not given values here.
-/

namespace CodeCausality

namespace Source

/-! ## 1. What a text does to its names -/

inductive Event where
  /-- A block starts. -/
  | enter
  /-- A block ends. -/
  | leave
  /-- A name is given the value of an expression; if it `binds`, as a new variable. So many events
  are `inside` of the expression, and so many stand between these and here. -/
  | give (binds : Bool) (name : String) (reads : List Read) (inside since : Nat)

/-- The name that is given a value. -/
def Event.name? : Event → Option String
  | .give _ x _ _ _ => some x
  | _ => none

/-- New variables of the names. -/
def bindings (reads : List Read) (inside : Nat) : Nat → List String → List Event
  | _, [] => []
  | since, x :: names => .give true x reads inside since :: bindings reads inside (since + 1) names

mutual

/-- What an expression does to names, in the order of the text. -/
def Expr.events : Expr → List Event
  | .name _ => []
  | .path _ parts => eventsOfAll parts
  | .text _ => []
  | .parts es => eventsOfAll es
  | .operation left right => left.events ++ right.events
  | .assign target value _ =>
    match target.name? with
    | some x => value.events ++ [.give false x value.reads value.events.length 0]
    | none => target.events ++ value.events
  | .update target value _ =>
    match target.name? with
    | some x => value.events ++ [.give false x (.name x :: value.reads) value.events.length 0]
    | none => target.events ++ value.events
  | .call values callee args _ => eventsOfAll values ++ callee.events ++ eventsOfAll args
  | .method values receiver _ typeArgs args _ =>
    eventsOfAll values ++ receiver.events ++ eventsOfAll typeArgs ++ eventsOfAll args
  | .invocation _ args _ => eventsOfAll args
  | .branch condition body otherwise =>
    condition.events ++ [.enter] ++ eventsOfBody body ++ [.leave] ++ eventsOfOptional otherwise
  | .whileLoop condition body => condition.events ++ [.enter] ++ eventsOfBody body ++ [.leave]
  | .select subject arms => subject.events ++ eventsOfArms arms
  | .forLoop names _ source body _ =>
    source.events ++ [.enter] ++ bindings source.reads source.events.length 1 names ++
      eventsOfBody body ++ [.leave]
  | .block body => [.enter] ++ eventsOfBody body ++ [.leave]
  | .giveBack value => eventsOfOptional value
  | .marked values e => (if Walk.hidesAttributes e then [] else eventsOfAll values) ++ e.events

def eventsOfAll : List Expr → List Event
  | [] => []
  | e :: es => e.events ++ eventsOfAll es

def eventsOfOptional : Option Expr → List Event
  | none => []
  | some e => e.events

def eventsOfArms : List Arm → List Event
  | [] => []
  | ⟨_, guard, body⟩ :: rest =>
    [.enter] ++ eventsOfOptional guard ++ body.events ++ [.leave] ++ eventsOfArms rest

/-- A variable is bound after the expression that it gets its value from. -/
def Stmt.events : Stmt → List Event
  | .item => []
  | .bind names _ none _ _ => bindings [] 0 0 names
  | .bind names _ (some value) otherwise _ =>
    value.events ++ eventsOfOptional otherwise ++
      bindings value.reads value.events.length (eventsOfOptional otherwise).length names
  | .run e _ => e.events

def eventsOfBody : List Stmt → List Event
  | [] => []
  | a :: rest => a.events ++ eventsOfBody rest

end

/-! ## 2. What is in scope -/

/-- What stands in a list of scopes: a variable with the version that it has got, or the start of a
block. -/
inductive Scoped where
  | block
  | binding (name : String) (version : Nat)
  deriving DecidableEq

/-- The version that a variable of the name has. -/
def Scoped.version? (y : String) : Scoped → Option Nat
  | .block => none
  | .binding x n => if x = y then some n else none

structure Scope where
  /-- How many values each name has been given. -/
  latest : String → Nat
  /-- The variables in scope, and where blocks start between them; the innermost first. -/
  visible : List Scoped

namespace Scope

/-- The parameters are in scope. -/
def entered (params : List (Option String)) : Scope where
  latest y := if some y ∈ params then 1 else 0
  visible := (params.filterMap id).map (.binding · 1)

/-- What is in scope outside of the innermost block. -/
def outside : List Scoped → List Scoped
  | [] => []
  | .block :: rest => rest
  | .binding _ _ :: rest => outside rest

/-- The innermost variable of the name has another version. -/
def renew (x : String) (n : Nat) : List Scoped → List Scoped
  | [] => []
  | .block :: rest => .block :: renew x n rest
  | .binding y m :: rest =>
    if y = x then .binding y n :: rest else .binding y m :: renew x n rest

def step (s : Scope) : Event → Scope
  | .enter => { s with visible := .block :: s.visible }
  | .leave => { s with visible := outside s.visible }
  | .give binds x _ _ _ =>
    let n := s.latest x + 1
    { latest := fun y => if y = x then n else s.latest y
      visible := if binds then .binding x n :: s.visible else renew x n s.visible }

/-- What is in scope after a part of the body of a function. -/
def after (params : List (Option String)) (events : List Event) : Scope :=
  events.foldl step (entered params)

/-- The versions that the variables of a name in scope have, the innermost first. -/
def versionsOf (s : Scope) (y : String) : List Nat := s.visible.filterMap (Scoped.version? y)

/-- **The version that a name stands for by the scopes of the text.** -/
def current? (s : Scope) (y : String) : Option Nat := (s.versionsOf y).head?

end Scope

/-! ## 3. Where names are given values -/

/-- What a value of a name is called. -/
def versioned (name : String) (version : Nat) : String :=
  if version = 1 then name else name ++ "@" ++ toString version

/-- The element of a function that stands for a value of a name. -/
def versionId (function name : String) (version : Nat) : String :=
  within function (versioned name version)

/-- The names that a read may be of. -/
def Read.names : Read → List String
  | .name x => [x]
  | .captured content => Walk.placeholders none content.toList
  | .call _ => []
  | .method _ => []

/-- A place where a name is given a value: what comes before the expression, what is inside of it,
what stands between it and here. -/
structure Giving where
  before : List Event
  inside : List Event
  since : List Event
  binds : Bool
  name : String
  reads : List Read

namespace Giving

def event (p : Giving) : Event := .give p.binds p.name p.reads p.inside.length p.since.length

/-- The text has this place. -/
def In (p : Giving) (events : List Event) : Prop :=
  ∃ after, events = p.before ++ p.inside ++ p.since ++ p.event :: after

variable (params : List (Option String)) (p : Giving)

/-- What is in scope where the expression starts. -/
def scope : Scope := Scope.after params p.before

/-- Which value of its name this is. -/
def version : Nat := (Scope.after params (p.before ++ p.inside ++ p.since)).latest p.name + 1

/-- All names that the expression reads. -/
def names : List String := p.reads.flatMap Read.names

end Giving

/-- A walk has noted that the value of an element depends on another one. -/
def Walk.HasFlow {α : Type} (w : Walk α) (a b : String) : Prop :=
  ∃ r ∈ w.relations, r.kind = .causal .dataFlow ∧ r.source = a ∧ r.target = b

instance {α : Type} (w : Walk α) (a b : String) : Decidable (w.HasFlow a b) :=
  inferInstanceAs (Decidable (∃ r ∈ w.relations, _))

end Source

end CodeCausality
