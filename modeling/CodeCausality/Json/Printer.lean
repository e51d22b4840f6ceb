import CodeCausality.Json.Basic
import CodeCausality.Text.Quoted

/-!
# Writing JSON

`Json.compact` writes a value without blanks, `Json.pretty` with one member or element a line,
indented by two spaces a level; an empty array or object stays on its line. A number that is not
whole is positional for leading places from -5 to 15 and keeps a point (`numberStyle`). What has no
value is written as `null`.
-/

namespace CodeCausality

namespace Json

/-! ## 1. Leaves -/

/-- Whole floats keep `.0`; very small and very large ones have a signed exponent; a tie goes to
the even neighbour. -/
def numberStyle : Decimal.Style :=
  ⟨fun p => decide (-5 ≤ p) && decide (p < 16), ".0", "+", .toEven⟩

def numberText (n : JsonNumber) : String :=
  let d := n.decimal
  Decimal.signText d.negative ++
    (if n.whole then Decimal.digitText d.mantissa
     else if d.mantissa = 0 then "0" ++ numberStyle.wholeMark
     else numberStyle.layout (Decimal.Digits.strip ⟨d.mantissa, d.exponent⟩))

/-- What stands for a character in a string. -/
def escapeChar (c : Char) : List Char :=
  if c = '"' then ['\\', '"']
  else if c = '\\' then ['\\', '\\']
  else if c = '\x08' then ['\\', 'b']
  else if c = '\x0c' then ['\\', 'f']
  else if c = '\n' then ['\\', 'n']
  else if c = '\r' then ['\\', 'r']
  else if c = '\t' then ['\\', 't']
  else if c.toNat < 0x20 then
    ['\\', 'u', '0', '0'] ++ (if c.toNat < 0x10 then ['0'] else []) ++ Text.hexText c.toNat
  else [c]

def stringText (s : String) : String :=
  String.ofList ('"' :: (s.toList.flatMap escapeChar ++ ['"']))

/-! ## 2. Compact -/

mutual

def compact : Json → String
  | .null => "null"
  | .bool b => if b then "true" else "false"
  | .number n => numberText n
  | .text s => stringText s
  | .array xs => "[" ++ compactElements xs ++ "]"
  | .object ms => "\x7b" ++ compactMembers ms ++ "\x7d"
  | .unusable => "null"

def compactElements : List Json → String
  | [] => ""
  | [x] => compact x
  | x :: xs => compact x ++ "," ++ compactElements xs

def compactMembers : List (String × Json) → String
  | [] => ""
  | [(k, x)] => stringText k ++ ":" ++ compact x
  | (k, x) :: ms => stringText k ++ ":" ++ compact x ++ "," ++ compactMembers ms

end

/-! ## 3. Pretty -/

/-- A line break and the indentation of a level. -/
def lineBreak (level : Nat) : String := "\n" ++ String.ofList (List.replicate (2 * level) ' ')

mutual

/-- The text of a value whose line is indented by `level`. -/
def prettyAt (level : Nat) : Json → String
  | .array [] => "[]"
  | .object [] => "\x7b\x7d"
  | .array xs => "[" ++ prettyElements (level + 1) xs ++ lineBreak level ++ "]"
  | .object ms => "\x7b" ++ prettyMembers (level + 1) ms ++ lineBreak level ++ "\x7d"
  | .null => "null"
  | .bool b => if b then "true" else "false"
  | .number n => numberText n
  | .text s => stringText s
  | .unusable => "null"

def prettyElements (level : Nat) : List Json → String
  | [] => ""
  | [x] => lineBreak level ++ prettyAt level x
  | x :: xs => lineBreak level ++ prettyAt level x ++ "," ++ prettyElements level xs

def prettyMembers (level : Nat) : List (String × Json) → String
  | [] => ""
  | [(k, x)] => lineBreak level ++ stringText k ++ ": " ++ prettyAt level x
  | (k, x) :: ms =>
    lineBreak level ++ stringText k ++ ": " ++ prettyAt level x ++ "," ++ prettyMembers level ms

end

def pretty (j : Json) : String := prettyAt 0 j

end Json

end CodeCausality
