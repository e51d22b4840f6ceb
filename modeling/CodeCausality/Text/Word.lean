import CodeCausality.Decimal.Reader

/-!
# Words as text
-/

namespace CodeCausality

namespace Text

/-- A number of 64 bits as typed: digits after an optional plus sign. -/
def word? (s : List Char) : Option Nat :=
  let digits := match s with
    | '+' :: rest => rest
    | s => s
  if digits.isEmpty || digits.any fun c => !c.isDigit then none
  else
    let n := Decimal.digitsValue digits
    if n < UInt64.size then some n else none

end Text

end CodeCausality
