import CodeCausality.Decimal.Shortest

/-!
# Decimal notations

* `Style` is one record of decisions (which leading places are written positionally, whether a
  whole number keeps a point, which way a tie goes); `Style.write` writes the shortest decimal of a
  float in that style. The formats of this library each name their own style.
* `fixedPlaces` writes a given number of places after the point, `scientific` one digit before the
  point and a given number after it; both round the exact binary value, a tie to the even digit.
-/

namespace CodeCausality

namespace Decimal

open Binary64 (digitCount View view)

/-! ## 1. Building blocks -/

/-- The decimal digits of `n`. -/
def digitText (n : Nat) : String := String.ofList (Nat.toDigits 10 n)

def zeros (n : Nat) : String := String.ofList (List.replicate n '0')

/-- The digits of `n`, filled with zeros on the left to at least `width` characters. -/
def padded (width n : Nat) : String :=
  let text := digitText n
  zeros (width - text.length) ++ text

/-- An integer, with a minus sign where it is negative. -/
def intText (z : Int) : String := if z < 0 then "-" ++ digitText z.natAbs else digitText z.natAbs

/-- `n / 10 ^ places` with that many places after the point, and no point for none. -/
def pointed (n places : Nat) : String :=
  if places = 0 then digitText n
  else digitText (n / Nat.pow 10 places) ++ "." ++ padded places (n % Nat.pow 10 places)

def signText (negative : Bool) : String := if negative then "-" else ""

/-! ## 2. Shortest decimals in a style -/

/-- How the shortest decimal of a finite number is laid out. -/
structure Style where
  /-- Which exponents of the leading digit are written positionally. -/
  positional : Int → Bool
  /-- What follows the digits of a whole number in positional notation. -/
  wholeMark : String
  /-- The sign of an exponent that is not negative. -/
  plusMark : String
  /-- Which of two equally near shortest decimals is taken. -/
  tie : Tie

/-- The digits in positional notation. -/
def Style.positionalText (style : Style) (d : Digits) : String :=
  if 0 ≤ d.exponent then digitText (d.digits * Nat.pow 10 d.exponent.toNat) ++ style.wholeMark
  else pointed d.digits (-d.exponent).toNat

/-- The digits with a point after the first and an exponent. -/
def Style.exponentText (style : Style) (d : Digits) : String :=
  let places := digitCount d.digits - 1
  let e := d.exponent + places
  pointed d.digits places ++ "e" ++ (if e < 0 then "" else style.plusMark) ++ intText e

/-- The text of a decimal in the style; `place` is the exponent of its leading digit. -/
def Style.layout (style : Style) (d : Digits) : String :=
  if style.positional (d.exponent + digitCount d.digits - 1) then style.positionalText d
  else style.exponentText d

/-- The text of the magnitude `m * 2 ^ e`. -/
def Style.magnitude (style : Style) (m : Nat) (e : Int) : String :=
  if m = 0 then "0" ++ style.wholeMark else style.layout (shortest style.tie m e)

/-- Positional at every size, without a mark on whole numbers: `100000`, `0.0000001`, `-0`. -/
def plainStyle : Style := ⟨fun _ => true, "", "", .up⟩

/-- The text of any float in plain notation, as values are shown to a reader. -/
def plain (x : Float) : String :=
  match view x with
  | .nan => "NaN"
  | .infinite s => signText s ++ "inf"
  | .finite s m e => signText s ++ plainStyle.magnitude m e

/-! ## 3. A given number of digits -/

/-- The text of a number with `places` digits after the point. -/
def fixedPlaces (places : Nat) (x : Float) : String :=
  match view x with
  | .nan => "NaN"
  | .infinite s => signText s ++ "inf"
  | .finite s m e =>
    let (p, q) := gridRatio e (-(places : Int))
    signText s ++ pointed (roundDiv .toEven (m * p) q) places

/-- `m * 2 ^ e` rounded to `places + 1` digits. -/
def significant (places m : Nat) (e : Int) : Digits :=
  if m = 0 then ⟨0, -(places : Int)⟩
  else
    let k := leadingPlace m e - places
    let (p, q) := gridRatio e k
    let n := roundDiv .toEven (m * p) q
    -- rounding up may reach the next power of ten
    if n = Nat.pow 10 (places + 1) then ⟨Nat.pow 10 places, k + 1⟩ else ⟨n, k⟩

/-- The text of a number with one digit before the point, `places` after it, and an exponent. -/
def scientific (places : Nat) (x : Float) : String :=
  match view x with
  | .nan => "NaN"
  | .infinite s => signText s ++ "inf"
  | .finite s m e =>
    let d := significant places m e
    signText s ++ pointed d.digits places ++ "e"
      ++ intText (if m = 0 then 0 else d.exponent + places)

end Decimal

end CodeCausality
