/-!
# Syntax trees

A source file as far as the flow of values through its functions depends on it: which names an
expression reads, what it calls, what it assigns and returns, and where it branches. All else about
an expression is only the order of its parts, which is that of the text.

* The names that a pattern binds are a list; the expressions inside of a pattern are another.
* `line` is where a construct starts, with the attributes before it.
* Of attributes only the values that they give (`#[doc = x]`) are kept, with the expression that they
  belong to, or among the parts of anything else.
-/

namespace CodeCausality

namespace Source

mutual

inductive Expr where
  /-- A single name. -/
  | name (x : String)
  /-- Any other path, with the expressions among its type arguments. -/
  | path (segments : List String) (parts : List Expr)
  /-- A literal text. -/
  | text (content : String)
  /-- An expression that is no more than its parts. -/
  | parts (es : List Expr)
  /-- Two operands; an operator that assigns makes an `update`. -/
  | operation (left right : Expr)
  | assign (target value : Expr) (line : Nat)
  | update (target value : Expr) (line : Nat)
  /-- A call is noted before its attributes are looked at, so it has their values itself. -/
  | call (values : List Expr) (callee : Expr) (args : List Expr) (line : Nat)
  | method (values : List Expr) (receiver : Expr) (name : String) (typeArgs args : List Expr)
    (line : Nat)
  /-- A use such as `name!(…)`; it has arguments if what it encloses is a list of expressions. -/
  | invocation (name : String) (args : List Expr) (line : Nat)
  | branch (condition : Expr) (body : List Stmt) (otherwise : Option Expr)
  | whileLoop (condition : Expr) (body : List Stmt)
  | select (subject : Expr) (arms : List Arm)
  | forLoop (names : List String) (patternParts : List Expr) (source : Expr) (body : List Stmt)
    (line : Nat)
  | block (body : List Stmt)
  | giveBack (value : Option Expr)
  /-- Any other expression with the values that its attributes give. -/
  | marked (values : List Expr) (e : Expr)

inductive Arm where
  | mk (patternParts : List Expr) (guard : Option Expr) (body : Expr)

inductive Stmt where
  /-- A declaration inside of a function. -/
  | item
  | bind (names : List String) (patternParts : List Expr) (value otherwise : Option Expr)
    (line : Nat)
  /-- An expression; `ended` says whether a semicolon follows. -/
  | run (e : Expr) (ended : Bool)

end

instance : Inhabited Expr := ⟨.parts []⟩

/-- The path that an expression is, empty if it is none. -/
def Expr.segments : Expr → List String
  | .name x => [x]
  | .path s _ => s
  | .marked _ e => e.segments
  | _ => []

/-- The single name that an expression is. -/
def Expr.name? : Expr → Option String
  | .name x => some x
  | .marked _ e => e.name?
  | _ => none

/-- Whether the expression is a path. -/
def Expr.isPath : Expr → Bool
  | .name _ | .path _ _ => true
  | .marked _ e => e.isPath
  | _ => false

/-- The expression with the values of attributes that belong to it. -/
def Expr.mark (values : List Expr) (e : Expr) : Expr :=
  if values.isEmpty then e else .marked values e

/-- The expression when attributes on line `l` stand before it. They belong to its leftmost
operand; every assignment and operation that starts with that starts there too. -/
def Expr.startingAt (l : Nat) (values : List Expr) : Expr → Expr
  | .assign target value _ => .assign (target.startingAt l values) value l
  | .update target value _ => .update (target.startingAt l values) value l
  | .operation left right => .operation (left.startingAt l values) right
  | .call more callee args _ => .call (values ++ more) callee args l
  | .method more receiver called typeArgs args _ =>
    .method (values ++ more) receiver called typeArgs args l
  | .forLoop names patternParts source body _ =>
    (Expr.forLoop names patternParts source body l).mark values
  | .marked more e => e.startingAt l (values ++ more)
  | e => e.mark values

/-- A function with a body. A parameter has a name if its pattern is a single name. -/
structure Function where
  name : String
  line : Nat
  params : List (Option String)
  hasReturn : Bool
  body : List Stmt

inductive Item where
  | function (f : Function)
  /-- Methods of a type; the type has a name if it is a path. -/
  | implementation (typeName : Option String) (methods : List Function)
  | module (name : String) (items : List Item)
  | other

/-! ## What an expression reads -/

/-- A place from which an expression may take a value. -/
inductive Read where
  | name (x : String)
  /-- A format text, whose placeholders may be names. -/
  | captured (content : String)
  | call (segments : List String)
  | method (name : String)
  deriving Repr, DecidableEq

/-- The format text that an argument is. -/
def Expr.captured : Expr → List Read
  | .text content => [.captured content]
  | .marked _ e => e.captured
  | _ => []

mutual

/-- All that an expression reads, in the order of the text. The attributes of a path are passed
over. -/
def Expr.reads : Expr → List Read
  | .name x => [.name x]
  | .path _ _ => []
  | .text _ => []
  | .parts es => readsAll es
  | .operation left right => left.reads ++ right.reads
  | .assign target value _ => target.reads ++ value.reads
  | .update target value _ => target.reads ++ value.reads
  | .call values callee args _ =>
    .call callee.segments :: (readsAll values ++ callee.reads ++ readsAll args)
  | .method values receiver called typeArgs args _ =>
    .method called ::
      (readsAll values ++ receiver.reads ++ readsAll typeArgs ++ readsAll args)
  | .invocation _ args _ => readsOfArguments args
  | .branch condition body otherwise =>
    condition.reads ++ readsOfBody body ++ readsOfOptional otherwise
  | .whileLoop condition body => condition.reads ++ readsOfBody body
  | .select subject arms => subject.reads ++ readsOfArms arms
  | .forLoop _ patternParts source body _ =>
    readsAll patternParts ++ source.reads ++ readsOfBody body
  | .block body => readsOfBody body
  | .giveBack value => readsOfOptional value
  | .marked values e => (if e.isPath then [] else readsAll values) ++ e.reads

def readsAll : List Expr → List Read
  | [] => []
  | e :: es => e.reads ++ readsAll es

def readsOfOptional : Option Expr → List Read
  | none => []
  | some e => e.reads

/-- The arguments of an invocation may also be format texts. -/
def readsOfArguments : List Expr → List Read
  | [] => []
  | e :: es => e.captured ++ e.reads ++ readsOfArguments es

def Arm.reads : Arm → List Read
  | ⟨patternParts, guard, body⟩ => readsAll patternParts ++ readsOfOptional guard ++ body.reads

def readsOfArms : List Arm → List Read
  | [] => []
  | a :: rest => a.reads ++ readsOfArms rest

def Stmt.reads : Stmt → List Read
  | .item => []
  | .bind _ patternParts value otherwise _ =>
    readsAll patternParts ++ readsOfOptional value ++ readsOfOptional otherwise
  | .run e _ => e.reads

def readsOfBody : List Stmt → List Read
  | [] => []
  | s :: rest => s.reads ++ readsOfBody rest

end

end Source

end CodeCausality
