import CodeCausality.Source.Index
import CodeCausality.Text.Blank

/-!
# The flow of values through a function

A walk through the body of a function follows the text and notes

* an element for the function, each named parameter, its return, each value that a name is given,
  and each visible effect;
* a relation from all that an expression reads to the element that its value reaches, and from a
  function to those that it calls, with the arguments reaching their parameters;
* for each new element, and for a return, on which conditions it depends.

A name that is given a value again stands for a new element from there on: `f::x`, `f::x@2`, and
so on. What a branch or a block gave it stays after that has ended.
-/

namespace CodeCausality

namespace Source

/-! ## 1. Names that have an effect -/

/-- Invocations that print or log. -/
def effectInvocations : List String :=
  ["print", "println", "eprint", "eprintln", "dbg", "trace", "debug", "info", "warn", "error",
    "log"]

/-- Methods that send or write something. -/
def effectMethods : List String := ["write", "write_all", "write_fmt", "flush", "send"]

/-- Segments of paths to functions that read or write something outside of the program. -/
def effectRoots : List String := ["fs", "File", "OpenOptions", "io"]

/-- Whether a segment before the last makes the call of a path an effect. -/
def isEffectPath (segments : List String) : Bool := segments.dropLast.any effectRoots.contains

/-! ## 2. The state of a walk -/

/-- What stays the same during the walk through one function. -/
structure Setting where
  index : FunctionIndex
  /-- The module of the file, from which calls are resolved. -/
  module : String
  path : String
  /-- The id of the function. -/
  function : String
  hasReturn : Bool

/-- What a walk has found, the latest first. -/
structure Walk (α : Type) where
  /-- The element that each name stands for. -/
  locals : Dictionary String
  /-- How many values each name has been given. -/
  versions : Dictionary Nat
  elements : List Element
  relations : List (Relation α)
  controls : List ControlDependency

namespace Walk

variable {α : Type}

def start : Walk α := ⟨.empty, .empty, [], [], []⟩

def ids (w : Walk α) : List String := w.elements.map (·.id)

/-- Notes an element. -/
def element (s : Setting) (id : String) (kind : ElementKind) (line : Nat) (w : Walk α) : Walk α :=
  let attributes := [("function", s.function), ("file", s.path), ("line", toString line)]
  { w with elements := .of id kind attributes :: w.elements }

/-- Notes a relation. -/
def relate (source target : String) (kind : EdgeKind) (w : Walk α) : Walk α :=
  { w with relations := ⟨source, target, .causal kind, none⟩ :: w.relations }

/-- Notes that the value of a target depends on each of the sources. -/
def flow (sources : List String) (target : String) (w : Walk α) : Walk α :=
  sources.foldl (fun w a => w.relate a target .dataFlow) w

/-- Notes that the guards decide whether the dependent element is reached. -/
def guarded (guards : List String) (dependent : String) (w : Walk α) : Walk α :=
  let found := ((sortedIds guards).filter (· != dependent)).map (⟨·, dependent⟩)
  { w with controls := found.reverse ++ w.controls }

/-! ## 3. What an expression reads -/

/-- The names in the placeholders of a format text: what stands in braces, up to a colon. The first
argument is what has been read of an open placeholder, latest first. -/
def placeholders : Option (List Char) → List Char → List String
  | _, [] => []
  | none, c :: rest => placeholders (if c = '\x7b' then some [] else none) rest
  | some inside, c :: rest =>
    if c = '\x7d' then
      String.ofList (Text.trim (inside.reverse.takeWhile (· != ':'))) :: placeholders none rest
    else placeholders (some (c :: inside)) rest

/-- The elements that stand for names, and the returns of functions that are called. -/
structure Sources where
  locals : List String
  returns : List String

/-- The elements of a single read, given what names stand for. -/
def sourcesOfRead (s : Setting) (locals : Dictionary String) : Read → Sources
  | .name x => ⟨(locals.get? x).toList, []⟩
  | .captured content => ⟨(placeholders none content.toList).filterMap locals.get?, []⟩
  | .call segments => ⟨[], returnOf (s.index.resolveCall segments s.module)⟩
  | .method name => ⟨[], returnOf (s.index.resolveMethod name)⟩
where
  returnOf : Option Signature → List String
    | some f => if f.hasReturn then [within f.id "return"] else []
    | none => []

/-- The elements of several reads. -/
def sourcesOf (s : Setting) (locals : Dictionary String) (reads : List Read) : Sources :=
  let found := reads.map (sourcesOfRead s locals)
  ⟨sortedIds (found.flatMap (·.locals)), sortedIds (found.flatMap (·.returns))⟩

def Sources.all (r : Sources) : List String := r.locals ++ r.returns

/-- All that an expression reads at this point of the walk. -/
def sources (s : Setting) (w : Walk α) (e : Expr) : Sources := sourcesOf s w.locals e.reads

/-! ## 4. New elements -/

/-- The first of `base#n`, `base#(n + 1)`, … that is not used, of at most so many. -/
def freshFrom (used : List String) (base : String) : Nat → Nat → String
  | 0, n => base ++ "#" ++ toString n
  | tries + 1, n =>
    let candidate := base ++ "#" ++ toString n
    if used.contains candidate then freshFrom used base tries (n + 1) else candidate

/-- An id that is not used: `base` itself, or the first of `base#2`, `base#3` and so on. -/
def fresh (used : List String) (base : String) : String :=
  if used.contains base then freshFrom used base used.length 2 else base

/-- Gives a name a new value, which depends on the sources. -/
def define (s : Setting) (guards sources : List String) (line : Nat) (name : String)
    (w : Walk α) : Walk α :=
  let version := (w.versions.get? name).getD 0 + 1
  let base := within s.function name
  let id := fresh w.ids (if version = 1 then base else base ++ "@" ++ toString version)
  let w := { w with versions := w.versions.insert name version }
  let w := ((w.element s id .namedValue line).flow sources id).guarded guards id
  { w with locals := w.locals.insert name id }

/-- Gives each of the names a new value. -/
def defineAll (s : Setting) (guards sources : List String) (line : Nat) (names : List String)
    (w : Walk α) : Walk α :=
  names.foldl (fun w x => w.define s guards sources line x) w

/-- Notes a visible effect of the given name. -/
def effect (s : Setting) (guards sources : List String) (line : Nat) (name : String)
    (w : Walk α) : Walk α :=
  let id := fresh w.ids (within s.function name ++ "@" ++ toString line)
  ((w.element s id .effect line).flow sources id).guarded guards id

/-- Notes that the sources reach the return of the function, if it has one. -/
def returns (s : Setting) (guards sources : List String) (w : Walk α) : Walk α :=
  if s.hasReturn then
    let id := within s.function "return"
    (w.flow sources id).guarded guards id
  else w

/-- Notes a call, and what its arguments give to the parameters. -/
def calls (s : Setting) (callee : Signature) (args : List Expr) (w : Walk α) : Walk α :=
  let w := w.relate s.function callee.id .call
  (callee.params.zip args).foldl (fun w (param, arg) =>
    match param with
    | some x => w.flow (w.sources s arg).all (within callee.id x)
    | none => w) w

/-- The function itself, its parameters and its return. -/
def enter (s : Setting) (f : Signature) (w : Walk α) : Walk α :=
  let w := w.element s f.id .function f.place.line
  let w := (f.params.filterMap id).foldl (fun w x =>
    let id := within f.id x
    let w := (w.element s id .namedValue f.place.line).relate f.id id .dataFlow
    { w with locals := w.locals.insert x id, versions := w.versions.insert x 1 }) w
  if f.hasReturn then w.element s (within f.id "return") .returnSite f.place.line else w

/-! ## 5. The walk -/

/-- The effect of a call that is not resolved, if its path has one. -/
def callOf (s : Setting) (guards : List String) (callee : Expr) (args : List Expr) (line : Nat)
    (w : Walk α) : Walk α :=
  match s.index.resolveCall callee.segments s.module with
  | some f => w.calls s f args
  | none =>
    if isEffectPath callee.segments then
      w.effect s guards (sourcesOf s w.locals (readsAll args)).all line
        ("::".intercalate callee.segments)
    else w

def methodOf (s : Setting) (guards : List String) (receiver : Expr) (name : String)
    (args : List Expr) (line : Nat) (w : Walk α) : Walk α :=
  match s.index.resolveMethod name with
  | some f => w.calls s f args
  | none =>
    if effectMethods.contains name then
      w.effect s guards (sourcesOf s w.locals (receiver.reads ++ readsAll args)).all line name
    else w

def invocationOf (s : Setting) (guards : List String) (name : String) (args : List Expr)
    (line : Nat) (w : Walk α) : Walk α :=
  if effectInvocations.contains name then
    w.effect s guards (sourcesOf s w.locals (readsOfArguments args)).all line (name ++ "!")
  else w

/-- Whether the walk passes over the attributes of an expression, of which it takes what it needs. -/
def hidesAttributes : Expr → Bool
  | .assign target _ _ | .update target _ _ => target.name?.isSome
  | .branch .. | .whileLoop .. | .select .. | .forLoop .. | .giveBack _ => true
  | .marked _ e => hidesAttributes e
  | _ => false

mutual

/-- Walks through an expression. `guards` are the elements that decide whether it is reached. -/
def expr (s : Setting) (guards : List String) : Expr → Walk α → Walk α
  | .name _, w => w
  | .path _ parts, w => exprs s guards parts w
  | .text _, w => w
  | .parts es, w => exprs s guards es w
  | .operation left right, w => expr s guards right (expr s guards left w)
  | .assign target value line, w =>
    match target.name? with
    | some x =>
      let sources := w.sources s value
      (expr s guards value w).define s guards sources.all line x
    | none => expr s guards value (expr s guards target w)
  | .update target value line, w =>
    match target.name? with
    | some x =>
      let sources := sourcesOf s w.locals (.name x :: value.reads)
      (expr s guards value w).define s guards sources.all line x
    | none => expr s guards value (expr s guards target w)
  | .call values callee args line, w =>
    let w := exprs s guards values (w.callOf s guards callee args line)
    exprs s guards args (expr s guards callee w)
  | .method values receiver called typeArgs args line, w =>
    let w := exprs s guards values (w.methodOf s guards receiver called args line)
    exprs s guards args (exprs s guards typeArgs (expr s guards receiver w))
  | .invocation called args line, w =>
    exprs s guards args (w.invocationOf s guards called args line)
  | .branch condition body otherwise, w =>
    let inner := guards ++ (w.sources s condition).locals
    optional s inner otherwise (stmts s inner body (expr s guards condition w))
  | .whileLoop condition body, w =>
    stmts s (guards ++ (w.sources s condition).locals) body (expr s guards condition w)
  | .select subject arms, w =>
    selected s (guards ++ (w.sources s subject).locals) arms (expr s guards subject w)
  | .forLoop names _ source body line, w =>
    let found := w.sources s source
    let inner := guards ++ found.locals
    stmts s inner body ((expr s guards source w).defineAll s inner found.all line names)
  | .block body, w => stmts s guards body w
  | .giveBack none, w => w
  | .giveBack (some e), w =>
    let sources := w.sources s e
    (expr s guards e w).returns s guards sources.all
  | .marked values e, w =>
    expr s guards e (if hidesAttributes e then w else exprs s guards values w)

def exprs (s : Setting) (guards : List String) : List Expr → Walk α → Walk α
  | [], w => w
  | e :: rest, w => exprs s guards rest (expr s guards e w)

def optional (s : Setting) (guards : List String) : Option Expr → Walk α → Walk α
  | none, w => w
  | some e, w => expr s guards e w

/-- Walks through the arms of a selection. -/
def selected (s : Setting) (guards : List String) : List Arm → Walk α → Walk α
  | [], w => w
  | ⟨_, guard, body⟩ :: rest, w =>
    selected s guards rest (expr s guards body (optional s guards guard w))

def stmt (s : Setting) (guards : List String) : Stmt → Walk α → Walk α
  | .item, w => w
  | .bind names _ none _ line, w => w.defineAll s guards [] line names
  | .bind names _ (some value) otherwise line, w =>
    let sources := w.sources s value
    (optional s guards otherwise (expr s guards value w)).defineAll s guards sources.all line names
  | .run e _, w => expr s guards e w

def stmts (s : Setting) (guards : List String) : List Stmt → Walk α → Walk α
  | [], w => w
  | a :: rest, w => stmts s guards rest (stmt s guards a w)

end

/-- Walks through the body of a function. The value of the last statement is what it returns. -/
def body (s : Setting) : List Stmt → Walk α → Walk α
  | [], w => w
  | [.run e false], w =>
    let sources := w.sources s e
    (expr s [] e w).returns s [] sources.all
  | a :: rest, w => body s rest (stmt s [] a w)

/-- A statement of a body gives the value that is returned, or the walk goes on behind it. -/
theorem body_cons (s : Setting) (a : Stmt) (rest : List Stmt) (w : Walk α) :
    (∃ e, a = .run e false ∧ rest = [] ∧
        body s (a :: rest) w = (expr s [] e w).returns s [] (w.sources s e).all) ∨
      body s (a :: rest) w = body s rest (stmt s [] a w) := by
  by_cases hlast : ∃ e, a = .run e false ∧ rest = []
  · obtain ⟨e, rfl, rfl⟩ := hlast
    exact .inl ⟨e, rfl, rfl, by rw [body]⟩
  · refine .inr ?_
    rw [body]
    rintro e rfl rfl
    exact hlast ⟨e, rfl, rfl⟩

/-- The walk through a function. -/
def ofFunction (s : Setting) (f : Signature) (b : List Stmt) : Walk α :=
  body s b (enter s f start)

end Walk

end Source

end CodeCausality
