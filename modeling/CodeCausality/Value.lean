import CodeCausality.Numeric.Scalar
import CodeCausality.Json.Shape
import CodeCausality.Json.Printer
import CodeCausality.Text.Quoted

/-!
# Values and their domains

A value is what a trace observed at a node or what an intervention forces there. A node's `Domain`
says which values it takes; inside the simulator a value is one number, its code: itself if it is a
number, 0 or 1 for a truth value, the position of its label for a category. `Domain.encode?` and
`Domain.decode?` are the two directions, and `Domain.features` what a code contributes to a
regression: a category is expanded against its first label.
-/

namespace CodeCausality

/-! ## 1. Values -/

inductive Value (α : Type) where
  | boolean (b : Bool)
  | number (x : α)
  | category (label : String)

/-- The three kinds of values. -/
inductive ValueKind where
  | boolean
  | number
  | category
  deriving Repr, DecidableEq

def ValueKind.name : ValueKind → String
  | boolean => "boolean"
  | number => "number"
  | category => "category"

namespace Value

variable {α : Type}

def kind : Value α → ValueKind
  | boolean _ => .boolean
  | number _ => .number
  | category _ => .category

/-- How a value is shown to a reader. -/
def display : Value Float → String
  | boolean b => if b then "true" else "false"
  | number x => Decimal.plain x
  | category c => Text.quoted c

/-- A literal as typed: a truth value, a number, or else a label. Blanks around it do not count. -/
def ofLiteral (text : String) : Value Float :=
  let s := Text.trim text.toList
  if s = "true".toList then boolean true
  else if s = "false".toList then boolean false
  else match Decimal.readFloat? s with
    | some x => number x
    | none => category (String.ofList s)

def ofJson? : Json → Option (Value Float)
  | .bool b => some (boolean b)
  | .number n => n.toFloat?.map number
  | .text s => some (category s)
  | _ => none

def toJson : Value Float → Json
  | boolean b => .bool b
  | number x => Json.ofFloat x
  | category c => .text c

end Value

/-! ## 2. Domains -/

/-- Which values a node takes. -/
inductive Domain where
  | continuous
  | boolean
  | categorical (labels : List String)
  deriving Repr, DecidableEq

namespace Domain

variable {α : Type} [Scalar α]

def name : Domain → String
  | continuous => "continuous"
  | boolean => "boolean"
  | categorical _ => "categorical"

def labels : Domain → List String
  | categorical ls => ls
  | _ => []

/-- The code of a value, if the value belongs to the domain. -/
def encode? : Domain → Value α → Option α
  | continuous, .number x => if Scalar.isFinite x then some x else none
  | boolean, .boolean b => some (Scalar.indicator b)
  | categorical ls, .category c => (ls.idxOf? c).map Scalar.ofNat
  | _, _ => none

/-- The value that a code stands for. -/
def decode? : Domain → α → Option (Value α)
  | continuous, x => some (.number x)
  | boolean, x =>
    if x == 0 then some (.boolean false) else if x == 1 then some (.boolean true) else none
  | categorical ls, x => (ls[Scalar.floor x]?).map .category

/-- How many regression features a code expands to. -/
def featureWidth : Domain → Nat
  | categorical ls => ls.length - 1
  | _ => 1

/-- The regression features of a code: for a category one indicator for each label but the
first. -/
@[specialize] def features : Domain → α → List α
  | categorical ls, x =>
    let k := Scalar.floor x
    (List.range' 1 (ls.length - 1)).map fun i => Scalar.indicator (decide (k = i))
  | _, x => [x]

/-- The features of values of several domains together. -/
def totalWidth (ds : List Domain) : Nat := ds.foldr (fun d n => d.featureWidth + n) 0

theorem length_features (d : Domain) (x : α) : (d.features x).length = d.featureWidth := by
  cases d <;> simp [features, featureWidth]

end Domain

end CodeCausality
