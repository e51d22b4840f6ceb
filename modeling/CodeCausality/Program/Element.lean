import CodeCausality.Dictionary

/-!
# Program elements and their relations

What an analysis of a program hands over: the elements (functions, values of variables, return
sites, visible effects), the relations between them, and which branch conditions gate which
elements. The nodes of a causal graph are elements too.
-/

namespace CodeCausality

/-! ## 1. Elements -/

inductive ElementKind where
  | function
  | namedValue
  | returnSite
  | effect
  deriving Repr, DecidableEq

namespace ElementKind

def name : ElementKind → String
  | function => "function"
  | namedValue => "variable"
  | returnSite => "return"
  | effect => "effect"

def all : List ElementKind := [function, namedValue, returnSite, effect]

/-- The kind of the given name. -/
def ofName? (s : String) : Option ElementKind := all.find? fun k => k.name == s

theorem ofName?_name (k : ElementKind) : ofName? k.name = some k := by
  cases k <;> decide

end ElementKind

/-- An element of a program, and a node of a causal graph. -/
structure Element where
  id : String
  kind : ElementKind
  attributes : Dictionary String
  deriving DecidableEq

/-- An element with the given attributes; of two of one key the later stands. -/
def Element.of (id : String) (kind : ElementKind) (attributes : List (String × String)) : Element :=
  ⟨id, kind, Dictionary.ofList attributes⟩

/-! ## 2. Relations -/

/-- How a cause reaches its effect. -/
inductive EdgeKind where
  | dataFlow
  | controlFlow
  | call
  deriving Repr, DecidableEq

namespace EdgeKind

def name : EdgeKind → String
  | dataFlow => "data_flow"
  | controlFlow => "control_flow"
  | call => "call"

def all : List EdgeKind := [dataFlow, controlFlow, call]

def ofName? (s : String) : Option EdgeKind := all.find? fun k => k.name == s

theorem ofName?_name (k : EdgeKind) : ofName? k.name = some k := by
  cases k <;> decide

/-- A call implies control dependence, and that implies data dependence. -/
def strength : EdgeKind → Nat
  | dataFlow => 0
  | controlFlow => 1
  | call => 2

/-- The stronger of two kinds. -/
def stronger (a b : EdgeKind) : EdgeKind := if a.strength ≤ b.strength then b else a

end EdgeKind

/-- Where a relation comes from. Imports and declarations describe structure only. -/
inductive RelationKind where
  | causal (kind : EdgeKind)
  | importing
  | declaration
  deriving Repr, DecidableEq

namespace RelationKind

def name : RelationKind → String
  | causal k => k.name
  | importing => "import"
  | declaration => "declaration"

def ofName? (s : String) : Option RelationKind :=
  if s = "import" then some importing
  else if s = "declaration" then some declaration
  else (EdgeKind.ofName? s).map causal

/-- The kind of edge that the relation contributes, if any. -/
def edgeKind? : RelationKind → Option EdgeKind
  | causal k => some k
  | _ => none

end RelationKind

/-- A directed relation between two elements. -/
structure Relation (α : Type) where
  source : String
  target : String
  kind : RelationKind
  weight : Option α

/-- The branch condition at `condition` decides whether execution reaches `dependent`. -/
structure ControlDependency where
  condition : String
  dependent : String
  deriving Repr, DecidableEq

/-- All that an analysis finds in a program. -/
structure ProgramStructure (α : Type) where
  elements : List Element
  relations : List (Relation α)
  controls : List ControlDependency

/-- A source text, where it stands and which package it belongs to. -/
structure SourceFile where
  package : String
  path : String
  content : String
  deriving Repr, DecidableEq

end CodeCausality
