import CodeCausality.Decimal.Binary64

/-!
# Reading decimals

A decimal literal is an optional sign, digits with an optional point (at least one digit on either
side of it), and an optional exponent. `infinity`, `inf` and `nan` are read in any case. The value is
the float nearest to the decimal.
-/

namespace CodeCausality

namespace Decimal

/-! ## 1. Digits -/

/-- The value of a run of decimal digits. -/
def digitsValue (ds : List Char) : Nat := ds.foldl (fun n c => 10 * n + (c.toNat - '0'.toNat)) 0

/-- The digits at the front of the text, and what follows them. -/
def spanDigits (s : List Char) : List Char × List Char := (s.takeWhile Char.isDigit, s.dropWhile Char.isDigit)

/-- An optional sign, and what follows it. -/
def spanSign : List Char → Bool × List Char
  | '-' :: r => (true, r)
  | '+' :: r => (false, r)
  | s => (false, s)

/-- A signed run of at least one digit that fills the whole text. -/
def exponentValue? (s : List Char) : Option Int :=
  let (negative, rest) := spanSign s
  if rest.isEmpty || rest.any (fun c => !c.isDigit) then none
  else some (if negative then -(digitsValue rest : Int) else digitsValue rest)

/-! ## 2. Literals -/

/-- A decimal as written: `mantissa * 10 ^ exponent`, with its sign. -/
structure Literal where
  negative : Bool
  mantissa : Nat
  exponent : Int
  deriving Repr, DecidableEq

/-- The nearest float; the sign is kept on zero. -/
def Literal.toFloat (l : Literal) : Float :=
  let x := Binary64.ofDecimal l.mantissa l.exponent
  if l.negative then -x else x

/-- What may follow the digits: nothing, or an exponent. -/
def readExponent? : List Char → Option Int
  | [] => some 0
  | c :: r => if c = 'e' ∨ c = 'E' then exponentValue? r else none

/-- The unsigned part of a literal. -/
def readMagnitude? (s : List Char) : Option (Nat × Int) :=
  let (whole, r) := spanDigits s
  let (fraction, r) := match r with
    | '.' :: r => spanDigits r
    | r => ([], r)
  if whole.isEmpty && fraction.isEmpty then none
  else (readExponent? r).map fun e => (digitsValue (whole ++ fraction), e - fraction.length)

def readLiteral? (s : List Char) : Option Literal :=
  let (negative, r) := spanSign s
  (readMagnitude? r).map fun (m, e) => ⟨negative, m, e⟩

/-! ## 3. Floats -/

/-- The float that a word stands for. -/
def readWord? (s : List Char) : Option Float :=
  let word := String.ofList (s.map Char.toLower)
  if word = "inf" ∨ word = "infinity" then some (1 / 0)
  else if word = "nan" then some (0 / 0)
  else none

/-- Reads a float that fills the whole text. -/
def readFloat? (s : List Char) : Option Float :=
  match readLiteral? s with
  | some l => some l.toFloat
  | none =>
    let (negative, r) := spanSign s
    (readWord? r).map fun x => if negative then -x else x

end Decimal

end CodeCausality
