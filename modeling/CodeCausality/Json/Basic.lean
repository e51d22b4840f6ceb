import CodeCausality.Decimal.Notation
import CodeCausality.Decimal.Reader

/-!
# JSON values

A JSON value as it is written: an object keeps its members in the order of the text, repeated names
included, and a number keeps its decimal, so that a reader of a value can tell `1` from `1.0` and
decide what a repeated name means. Of what no value can be made -- a string with half of a
surrogate pair, an object with such a name, what nests too deep -- only that it was there is kept
(`unusable`): the text is no less JSON, and whoever passes over that part can use the rest.
-/

namespace CodeCausality

/-- A number as written; `whole` if it has neither point nor exponent. -/
structure JsonNumber where
  decimal : Decimal.Literal
  whole : Bool
  deriving Repr, DecidableEq

inductive Json where
  | null
  | bool (b : Bool)
  | number (n : JsonNumber)
  | text (s : String)
  | array (xs : List Json)
  | object (members : List (String × Json))
  /-- A part of the text of which no value can be made. -/
  | unusable

namespace Json

/-! ## 1. Building values -/

def ofNat (n : Nat) : Json := number ⟨⟨false, n, 0⟩, true⟩

def ofStrings (xs : List String) : Json := array (xs.map text)

/-- A float by its shortest decimal; JSON has no text for the others. -/
def ofFloat (x : Float) : Json :=
  match Binary64.view x with
  | .finite s m e =>
    if m = 0 then number ⟨⟨s, 0, 0⟩, false⟩
    else
      let d := Decimal.shortest .toEven m e
      number ⟨⟨s, d.digits, d.exponent⟩, false⟩
  | _ => null

def ofOption {β : Type} (f : β → Json) : Option β → Json
  | some b => f b
  | none => null

/-! ## 2. Looking into values -/

/-- The last member of the name. -/
def member? (j : Json) (name : String) : Option Json :=
  match j with
  | object ms => (ms.reverse.find? fun m => m.1 == name).map (·.2)
  | _ => none

/-- The last member of the name, `null` counting as none. -/
def given? (j : Json) (name : String) : Option Json :=
  match j.member? name with
  | some null => none
  | m => m

end Json

/-- The float nearest to the number; none if it is out of range. -/
def JsonNumber.toFloat? (n : JsonNumber) : Option Float :=
  let x := n.decimal.toFloat
  if x.isFinite then some x else none

/-- The number as a natural number below `2 ^ 64`, if it is written as one. -/
def JsonNumber.toWord? (n : JsonNumber) : Option Nat :=
  if n.whole && !n.decimal.negative && decide (n.decimal.mantissa < UInt64.size) then
    some n.decimal.mantissa
  else none

end CodeCausality
