import CodeCausality.Json.Basic

/-!
# Reading JSON

Each reader takes the text from where its production starts and gives what it read and the rest.
`Json.parse?` reads one value and allows only blanks around it.

A string is read in two steps: escapes become characters or UTF-16 units (`Piece`), then a pair of
surrogate units becomes one character. A unit that is left without its partner makes the string
`unusable`, or the object whose member it names; so is an array or object more than 127 levels deep.
`isUsable` tells whether all of a value can be used.
-/

namespace CodeCausality

namespace Json

/-! ## 1. Blanks and literals -/

def isSpace (c : Char) : Bool := c == ' ' || c == '\n' || c == '\r' || c == '\t'

def skipSpace (s : List Char) : List Char := s.dropWhile isSpace

/-- The rest after `word`, if the text starts with it. -/
def afterWord? (word : List Char) (s : List Char) : Option (List Char) :=
  if word.isPrefixOf s then some (s.drop word.length) else none

/-! ## 2. Strings -/

/-- A character of a string, or one UTF-16 unit written by its code. -/
inductive Piece where
  | char (c : Char)
  | unit (n : Nat)

def hexDigit? (c : Char) : Option Nat :=
  if '0' ≤ c ∧ c ≤ '9' then some (c.toNat - '0'.toNat)
  else if 'a' ≤ c ∧ c ≤ 'f' then some (c.toNat - 'a'.toNat + 10)
  else if 'A' ≤ c ∧ c ≤ 'F' then some (c.toNat - 'A'.toNat + 10)
  else none

/-- The value of hexadecimal digits. -/
def hexValue? (ds : List Char) : Option Nat :=
  ds.foldlM (fun n c => (hexDigit? c).map fun d => 16 * n + d) 0

/-- The character that a backslash and `c` stand for. -/
def escaped? (c : Char) : Option Char :=
  match c with
  | '"' => some '"'
  | '\\' => some '\\'
  | '/' => some '/'
  | 'b' => some '\x08'
  | 'f' => some '\x0c'
  | 'n' => some '\n'
  | 'r' => some '\r'
  | 't' => some '\t'
  | _ => none

/-- The pieces of a string up to its closing quote, and the rest after it. -/
def readPieces : List Char → Option (List Piece × List Char)
  | [] => none
  | '"' :: rest => some ([], rest)
  | ['\\'] => none
  | '\\' :: c :: rest =>
    if c = 'u' then
      match rest with
      | a :: b :: c :: d :: rest =>
        match hexValue? [a, b, c, d], readPieces rest with
        | some n, some (ps, r) => some (.unit n :: ps, r)
        | _, _ => none
      | _ => none
    else
      match escaped? c, readPieces rest with
      | some c, some (ps, r) => some (.char c :: ps, r)
      | _, _ => none
  | c :: rest =>
    if c.toNat < 0x20 then none
    else (readPieces rest).map fun (ps, r) => (.char c :: ps, r)

def isHighSurrogate (n : Nat) : Bool := decide (0xD800 ≤ n) && decide (n < 0xDC00)
def isLowSurrogate (n : Nat) : Bool := decide (0xDC00 ≤ n) && decide (n < 0xE000)

/-- The characters that the pieces stand for. -/
def joinPieces : List Piece → Option (List Char)
  | [] => some []
  | .char c :: rest => (joinPieces rest).map (c :: ·)
  | .unit h :: .unit l :: rest =>
    if isHighSurrogate h && isLowSurrogate l then
      (joinPieces rest).map (Char.ofNat (0x10000 + (h - 0xD800) * 0x400 + (l - 0xDC00)) :: ·)
    else if isHighSurrogate h || isLowSurrogate h then none
    else (joinPieces (.unit l :: rest)).map (Char.ofNat h :: ·)
  | .unit u :: rest =>
    if isHighSurrogate u || isLowSurrogate u then none
    else (joinPieces rest).map (Char.ofNat u :: ·)

/-- A string after its opening quote; none for one that has half of a surrogate pair. -/
def readString (s : List Char) : Option (Option String × List Char) :=
  (readPieces s).map fun (ps, rest) => ((joinPieces ps).map String.ofList, rest)

/-! ## 3. Numbers -/

/-- The digits before the point: one zero, or digits that start with none. -/
def readWhole (s : List Char) : Option (List Char × List Char) :=
  match s with
  | '0' :: rest => some (['0'], rest)
  | s =>
    let (ds, rest) := Decimal.spanDigits s
    if ds.isEmpty then none else some (ds, rest)

/-- A point with at least one digit after it, or nothing. -/
def readFraction (s : List Char) : Option (List Char × List Char) :=
  match s with
  | '.' :: rest =>
    let (ds, rest) := Decimal.spanDigits rest
    if ds.isEmpty then none else some (ds, rest)
  | s => some ([], s)

/-- An exponent with at least one digit, or nothing. -/
def readExponent (s : List Char) : Option (Option Int × List Char) :=
  match s with
  | c :: rest =>
    if c = 'e' ∨ c = 'E' then
      let (negative, rest) := Decimal.spanSign rest
      let (ds, rest) := Decimal.spanDigits rest
      if ds.isEmpty then none
      else
        let n : Int := Decimal.digitsValue ds
        some (some (if negative then -n else n), rest)
    else some (none, s)
  | [] => some (none, s)

/-- An unsigned number. -/
def readMagnitude (negative : Bool) (s : List Char) : Option (JsonNumber × List Char) := do
  let (whole, s) ← readWhole s
  let (fraction, s) ← readFraction s
  let (exponent, s) ← readExponent s
  let decimal := ⟨negative, Decimal.digitsValue (whole ++ fraction),
    exponent.getD 0 - fraction.length⟩
  -- a negative zero is no whole number
  let isWhole := fraction.isEmpty && exponent.isNone && !(negative && whole == ['0'])
  return (⟨decimal, isWhole⟩, s)

def readNumber (s : List Char) : Option (JsonNumber × List Char) :=
  match s with
  | '-' :: rest => readMagnitude true rest
  | s => readMagnitude false s

/-! ## 4. Values -/

/-- How deep values may nest. -/
def nestingLimit : Nat := 127

/-- An array or object where `depth` levels of nesting are left. -/
def nested (depth : Nat) (j : Json) : Json := if depth = 0 then .unusable else j

@[simp] theorem nested_succ (depth : Nat) (j : Json) : nested (depth + 1) j = j :=
  if_neg (Nat.succ_ne_zero depth)

mutual

/-- A value, after blanks; `depth` levels of nesting are left. -/
def readValue (fuel depth : Nat) (s : List Char) : Option (Json × List Char) :=
  match fuel with
  | 0 => none
  | fuel + 1 =>
    match skipSpace s with
    | '"' :: rest => (readString rest).map fun (t, r) => (t.elim .unusable .text, r)
    | '[' :: rest =>
      match skipSpace rest with
      | ']' :: r => some (nested depth (.array []), r)
      | r => (readElements fuel (depth - 1) r).map fun (xs, r) => (nested depth (.array xs), r)
    | '\x7b' :: rest =>
      match skipSpace rest with
      | '\x7d' :: r => some (nested depth (.object []), r)
      | r => (readMembers fuel (depth - 1) r).map fun (ms, r) =>
        (nested depth (ms.elim .unusable .object), r)
    | 't' :: rest => (afterWord? "rue".toList rest).map fun r => (.bool true, r)
    | 'f' :: rest => (afterWord? "alse".toList rest).map fun r => (.bool false, r)
    | 'n' :: rest => (afterWord? "ull".toList rest).map fun r => (.null, r)
    | s => (readNumber s).map fun (n, r) => (.number n, r)

/-- Elements up to the closing bracket. -/
def readElements (fuel depth : Nat) (s : List Char) : Option (List Json × List Char) :=
  match fuel with
  | 0 => none
  | fuel + 1 =>
    match readValue fuel depth s with
    | none => none
    | some (x, rest) =>
      match skipSpace rest with
      | ']' :: r => some ([x], r)
      | ',' :: r => (readElements fuel depth r).map fun (xs, r) => (x :: xs, r)
      | _ => none

/-- Members up to the closing brace; none if one of the names has half of a surrogate pair. -/
def readMembers (fuel depth : Nat) (s : List Char) :
    Option (Option (List (String × Json)) × List Char) :=
  match fuel with
  | 0 => none
  | fuel + 1 =>
    match skipSpace s with
    | '"' :: rest =>
      match readString rest with
      | none => none
      | some (name, rest) =>
        match skipSpace rest with
        | ':' :: rest =>
          match readValue fuel depth rest with
          | none => none
          | some (x, rest) =>
            match skipSpace rest with
            | '\x7d' :: r => some (name.map fun k => [(k, x)], r)
            | ',' :: r => (readMembers fuel depth r).map fun (ms, r) =>
              (name.bind fun k => ms.map fun ms => (k, x) :: ms, r)
            | _ => none
        | _ => none
    | _ => none

end

/-- The value that fills the text. -/
def parse? (text : String) : Option Json :=
  let s := text.toList
  match readValue (2 * s.length + 2) nestingLimit s with
  | some (j, rest) => if (skipSpace rest).isEmpty then some j else none
  | none => none

mutual

/-- All of the value can be used: nothing of it is `unusable`, and every number is in the range of
binary64. -/
def isUsable : Json → Bool
  | .number n => n.toFloat?.isSome
  | .array xs => elementsUsable xs
  | .object ms => membersUsable ms
  | .unusable => false
  | _ => true

def elementsUsable : List Json → Bool
  | [] => true
  | x :: xs => isUsable x && elementsUsable xs

def membersUsable : List (String × Json) → Bool
  | [] => true
  | (_, x) :: ms => isUsable x && membersUsable ms

end

end Json

end CodeCausality
