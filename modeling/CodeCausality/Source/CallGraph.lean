import CodeCausality.Source.Index

/-!
# Which functions call which

The calls in the text of a function, resolved as the walk through it resolves them. Unlike what an
expression reads, they include those in the type arguments of paths.

* `Expr.calls`, `callsOfBody` -- the calls in a text;
* `FunctionIndex.resolve` -- the function that a call is of, if a single one comes into question;
* `callEdges` -- caller and callee of every call in a function of the index.
-/

namespace CodeCausality

namespace Source

/-! ## 1. Calls in a text -/

mutual

/-- All calls in an expression, in the order of the text. -/
def Expr.calls : Expr → List Read
  | .name _ => []
  | .path _ parts => callsOfAll parts
  | .text _ => []
  | .parts es => callsOfAll es
  | .operation left right => left.calls ++ right.calls
  | .assign target value _ => target.calls ++ value.calls
  | .update target value _ => target.calls ++ value.calls
  | .call values callee args _ =>
    .call callee.segments :: (callsOfAll values ++ callee.calls ++ callsOfAll args)
  | .method values receiver called typeArgs args _ =>
    .method called ::
      (callsOfAll values ++ receiver.calls ++ callsOfAll typeArgs ++ callsOfAll args)
  | .invocation _ args _ => callsOfAll args
  | .branch condition body otherwise =>
    condition.calls ++ callsOfBody body ++ callsOfOptional otherwise
  | .whileLoop condition body => condition.calls ++ callsOfBody body
  | .select subject arms => subject.calls ++ callsOfArms arms
  | .forLoop _ patternParts source body _ =>
    callsOfAll patternParts ++ source.calls ++ callsOfBody body
  | .block body => callsOfBody body
  | .giveBack value => callsOfOptional value
  | .marked values e => callsOfAll values ++ e.calls

def callsOfAll : List Expr → List Read
  | [] => []
  | e :: es => e.calls ++ callsOfAll es

def callsOfOptional : Option Expr → List Read
  | none => []
  | some e => e.calls

def Arm.calls : Arm → List Read
  | ⟨patternParts, guard, body⟩ => callsOfAll patternParts ++ callsOfOptional guard ++ body.calls

def callsOfArms : List Arm → List Read
  | [] => []
  | a :: rest => a.calls ++ callsOfArms rest

def Stmt.calls : Stmt → List Read
  | .item => []
  | .bind _ patternParts value otherwise _ =>
    callsOfAll patternParts ++ callsOfOptional value ++ callsOfOptional otherwise
  | .run e _ => e.calls

def callsOfBody : List Stmt → List Read
  | [] => []
  | s :: rest => s.calls ++ callsOfBody rest

end

/-! ## 2. Functions -/

/-- The function that is called from inside of a module. -/
def FunctionIndex.resolve (x : FunctionIndex) (module : String) : Read → Option Signature
  | .call segments => x.resolveCall segments module
  | .method name => x.resolveMethod name
  | _ => none

/-- The functions that a definition calls, if the index holds it; each with the caller before it. -/
def callEdgesOf (index : FunctionIndex) (u : SourceUnit) (d : Definition) :
    List (String × String) :=
  match index.get? d.id with
  | some f =>
    if f.place = d.place u.path then
      ((callsOfBody d.function.body).filterMap (index.resolve u.module)).map fun g => (f.id, g.id)
    else []
  | none => []

/-- Caller and callee of every call in a function of the index. -/
def callEdges (units : List SourceUnit) : List (String × String) :=
  units.flatMap fun u => u.definitions.flatMap (callEdgesOf (FunctionIndex.ofUnits units) u)

/-- One function calls the other. -/
def Calls (units : List SourceUnit) (f g : String) : Prop := (f, g) ∈ callEdges units

end Source

end CodeCausality
