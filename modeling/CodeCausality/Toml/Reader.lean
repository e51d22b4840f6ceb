import CodeCausality.Json.Reader
import CodeCausality.Time.Instant
import CodeCausality.Toml.Basic

/-!
# Reading TOML

A document is read line by line: a header, a key with its value, or nothing, each with an optional
comment. Readers take the text from where their production starts and give what they read and the
rest. `Toml.parse?` gives the entries of the document.
-/

namespace CodeCausality

namespace Toml

abbrev Reader (β : Type) := List Char → Option (β × List Char)

/-! ## 1. Blanks, comments, line ends -/

def isBlank (c : Char) : Bool := c == ' ' || c == '\t'

def skipBlanks (s : List Char) : List Char := s.dropWhile isBlank

/-- A control character that may not stand in a text of one line. -/
def isControl (c : Char) : Bool := (c.toNat < 0x20 && c != '\t') || c.toNat == 0x7F

/-- The rest after a comment, if one starts here. -/
def skipComment : Reader Unit
  | '#' :: rest =>
    let body := rest.takeWhile fun c => c != '\n' && c != '\r'
    if body.any fun c => isControl c && c.toNat != 0x7F then none
    else some ((), rest.drop body.length)
  | s => some ((), s)

/-- The rest after a line end, if one stands here. -/
def lineEnd? : List Char → Option (List Char)
  | '\n' :: rest => some rest
  | '\r' :: '\n' :: rest => some rest
  | _ => none

/-- What may follow a header or a value: a comment, then the end of the line or of the text. -/
def endLine (s : List Char) : Option (List Char) :=
  match skipComment (skipBlanks s) with
  | none => none
  | some ((), []) => some []
  | some ((), s) => lineEnd? s

/-- Blanks, comments and line ends, as they may stand between the elements of a list. -/
def skipLines : Nat → List Char → Option (List Char)
  | 0, _ => none
  | fuel + 1, s =>
    match skipComment (skipBlanks s) with
    | none => none
    | some ((), s) =>
      match lineEnd? s with
      | some rest => skipLines fuel rest
      | none => some s

/-! ## 2. Texts -/

/-- The character of a code point. -/
def scalarValue? (n : Nat) : Option Char :=
  if n < 0xD800 ∨ (0xE000 ≤ n ∧ n < 0x110000) then some (Char.ofNat n) else none

/-- What a backslash stands for, after it. -/
def readEscape : Reader Char
  | 'b' :: r => some ('\x08', r)
  | 't' :: r => some ('\t', r)
  | 'n' :: r => some ('\n', r)
  | 'f' :: r => some ('\x0c', r)
  | 'r' :: r => some ('\r', r)
  | '"' :: r => some ('"', r)
  | '\\' :: r => some ('\\', r)
  | 'u' :: r => readCode 4 r
  | 'U' :: r => readCode 8 r
  | _ => none
where
  readCode (n : Nat) (r : List Char) : Option (Char × List Char) :=
    if (r.take n).length = n then
      match Json.hexValue? (r.take n) >>= scalarValue? with
      | some c => some (c, r.drop n)
      | none => none
    else none

/-- A text between double quotes, after the opening one. -/
def readBasic : Nat → Reader (List Char)
  | 0, _ => none
  | _, [] => none
  | fuel + 1, c :: rest =>
    if c = '"' then some ([], rest)
    else if c = '\\' then
      match readEscape rest with
      | none => none
      | some (e, rest) => (readBasic fuel rest).map fun (cs, r) => (e :: cs, r)
    else if isControl c then none
    else (readBasic fuel rest).map fun (cs, r) => (c :: cs, r)

/-- A text between apostrophes, after the opening one. -/
def readLiteral : Reader (List Char)
  | [] => none
  | c :: rest =>
    if c = '\'' then some ([], rest)
    else if isControl c then none
    else (readLiteral rest).map fun (cs, r) => (c :: cs, r)

/-- The rest after blanks, a line end and more blanks and line ends, as they follow a backslash. -/
def skipContinuation (s : List Char) : Option (List Char) :=
  match lineEnd? (skipBlanks s) with
  | none => none
  | some rest => some (rest.dropWhile fun c => isBlank c || c == '\n' || c == '\r')

/-- How many of the mark stand at the front. -/
def countMarks (mark : Char) (s : List Char) : Nat := (s.takeWhile (· == mark)).length

/-- A text over several lines between three marks, after the opening ones. Up to two marks may
stand before the closing ones. -/
def readLines (mark : Char) : Nat → Reader (List Char)
  | 0, _ => none
  | _, [] => none
  | fuel + 1, c :: rest =>
    if c = mark then
      let n := countMarks mark (c :: rest)
      if n < 3 then (readLines mark fuel rest).map fun (cs, r) => (c :: cs, r)
      else if n ≤ 5 then some (List.replicate (n - 3) mark, (c :: rest).drop n)
      else none
    else if c = '\\' ∧ mark = '"' then
      match skipContinuation rest with
      | some rest => readLines mark fuel rest
      | none =>
        match readEscape rest with
        | none => none
        | some (e, rest) => (readLines mark fuel rest).map fun (cs, r) => (e :: cs, r)
    else if c = '\n' then (readLines mark fuel rest).map fun (cs, r) => (c :: cs, r)
    else if c = '\r' then
      match rest with
      | '\n' :: after => (readLines mark fuel after).map fun (cs, r) => ('\n' :: cs, r)
      | _ => none
    else if isControl c then none
    else (readLines mark fuel rest).map fun (cs, r) => (c :: cs, r)

/-- Three marks and the line end right after them, if one stands there. -/
def openLines? (mark : Char) : List Char → Option (List Char)
  | a :: b :: c :: rest =>
    if a = mark ∧ b = mark ∧ c = mark then some ((lineEnd? rest).getD rest) else none
  | _ => none

/-- A text of one line, quoted either way. -/
def readQuoted : Reader (List Char)
  | '"' :: rest => readBasic (rest.length + 1) rest
  | '\'' :: rest => readLiteral rest
  | _ => none

/-- A text value. -/
def readText (s : List Char) : Option (List Char × List Char) :=
  match openLines? '"' s, openLines? '\'' s with
  | some rest, _ => readLines '"' (rest.length + 1) rest
  | none, some rest => readLines '\'' (rest.length + 1) rest
  | none, none => readQuoted s

/-! ## 3. Keys -/

def isBareKey (c : Char) : Bool := c.isAlphanum || c == '_' || c == '-'

def readSimpleKey (s : List Char) : Option (String × List Char) :=
  match s with
  | '"' :: _ | '\'' :: _ => (readQuoted s).map fun (cs, r) => (String.ofList cs, r)
  | s =>
    let name := s.takeWhile isBareKey
    if name.isEmpty then none else some (String.ofList name, s.drop name.length)

/-- Keys between points. -/
def readKey : Nat → Reader (List String)
  | 0, _ => none
  | fuel + 1, s =>
    match readSimpleKey (skipBlanks s) with
    | none => none
    | some (k, rest) =>
      match skipBlanks rest with
      | '.' :: rest => (readKey fuel rest).map fun (ks, r) => (k :: ks, r)
      | rest => some ([k], rest)

/-! ## 4. Numbers and moments -/

/-- Digits with underscores between them; gives the digits. -/
def groupedDigits? (isDigit : Char → Bool) (s : List Char) : Option (List Char) :=
  let parts := s.splitOn '_'
  if parts.all fun p => !p.isEmpty && p.all isDigit then some parts.flatten else none

/-- Decimal digits without a superfluous zero in front. -/
def wholeDigits? (s : List Char) : Option (List Char) :=
  match groupedDigits? Char.isDigit s with
  | some ('0' :: _ :: _) => none
  | ds => ds

/-- An integer of 64 bits. -/
def inWord? (n : Int) : Option Int := 
  if Int64.minValue.toInt ≤ n ∧ n ≤ Int64.maxValue.toInt then some n else none

def signed (negative : Bool) (n : Nat) : Int := if negative then -n else n

/-- Digits of a base given by a mark after a zero. -/
def radixInteger? (base : Nat) (s : List Char) : Option Int :=
  let isDigit (c : Char) : Bool := match Json.hexDigit? c with
    | some d => decide (d < base)
    | none => false
  match groupedDigits? isDigit s with
  | none => none
  | some ds => inWord? (ds.foldl (fun n c => base * n + (Json.hexDigit? c).getD 0) 0 : Nat)

def integer? (s : List Char) : Option Int :=
  match s with
  | '0' :: 'x' :: ds => radixInteger? 16 ds
  | '0' :: 'o' :: ds => radixInteger? 8 ds
  | '0' :: 'b' :: ds => radixInteger? 2 ds
  | s =>
    let (negative, ds) := Decimal.spanSign s
    match wholeDigits? ds with
    | some ds => inWord? (signed negative (Decimal.digitsValue ds))
    | none => none

/-- The exponent after its letter. -/
def exponent? (s : List Char) : Option Int :=
  let (negative, ds) := Decimal.spanSign s
  (groupedDigits? Char.isDigit ds).map fun ds => signed negative (Decimal.digitsValue ds)

/-- A float without sign; it needs a fraction or an exponent. -/
def magnitude? (s : List Char) : Option (Nat × Int) :=
  let isMark (c : Char) : Bool := c == '.' || c == 'e' || c == 'E'
  let whole := s.takeWhile fun c => !isMark c
  match wholeDigits? whole, s.drop whole.length with
  | some ds, '.' :: rest =>
    let fraction := rest.takeWhile fun c => !isMark c
    match groupedDigits? Char.isDigit fraction, rest.drop fraction.length with
    | some fs, [] => some (Decimal.digitsValue (ds ++ fs), -(fs.length : Int))
    | some fs, c :: rest =>
      if c = '.' then none
      else (exponent? rest).map fun e => (Decimal.digitsValue (ds ++ fs), e - fs.length)
    | none, _ => none
  | some ds, _ :: rest => (exponent? rest).map fun e => (Decimal.digitsValue ds, e)
  | _, _ => none

/-- A float; one above the range is refused. -/
def float? (s : List Char) : Option Float :=
  let (negative, m) := Decimal.spanSign s
  let sign (x : Float) : Float := if negative then -x else x
  if m = "inf".toList then some (sign (1 / 0))
  else if m = "nan".toList then some (sign (0 / 0))
  else match magnitude? m with
    | none => none
    | some (d, e) =>
      let x := sign (Decimal.Literal.toFloat ⟨false, d, e⟩)
      if x == 1 / 0 then none else some x

/-- The number that fills `n` digits. -/
def fixedDigits? (n : Nat) (s : List Char) : Option Nat :=
  if s.length = n ∧ s.all Char.isDigit then some (Decimal.digitsValue s) else none

def isDate (s : List Char) : Bool :=
  match s.splitOn '-' with
  | [y, m, d] =>
    match fixedDigits? 4 y, fixedDigits? 2 m, fixedDigits? 2 d with
    | some y, some m, some d => Date.isValid ⟨y, m, d⟩
    | _, _, _ => false
  | _ => false

/-- Hours and minutes, and seconds with an optional fraction. -/
def isTime (s : List Char) : Bool :=
  let below (n : Nat) (ds : List Char) : Bool := match fixedDigits? 2 ds with
    | some k => decide (k < n)
    | none => false
  match s.splitOn ':' with
  | [h, m, sec] =>
    let fraction := sec.drop 2
    below 24 h && below 60 m && below 61 (sec.take 2) &&
      (fraction.isEmpty || (fraction.head? == some '.' && decide (1 < fraction.length)
        && (fraction.drop 1).all Char.isDigit))
  | _ => false

/-- A time with an optional offset. -/
def isZonedTime (s : List Char) : Bool :=
  match s.getLast? with
  | some 'Z' | some 'z' => isTime s.dropLast
  | _ =>
    let clock := s.takeWhile fun c => c != '+' && c != '-'
    let zone := s.drop (clock.length + 1)
    isTime clock && (decide (clock.length = s.length) || isTime (zone ++ ":00".toList))

/-- A date, a time, or a date and a time. -/
def isMoment (s : List Char) : Bool :=
  isDate s || isTime s ||
    (isDate (s.take 10) && ((s.drop 10).head?.any fun c => c == 'T' || c == 't' || c == ' ')
      && isZonedTime (s.drop 11))

/-- Characters of numbers, moments and words. -/
def isPlain (c : Char) : Bool :=
  c.isAlphanum || c == '+' || c == '-' || c == '.' || c == '_' || c == ':'

/-- The text of a plain value; a blank after a date belongs to it if a time follows. -/
def spanPlain (s : List Char) : List Char × List Char :=
  let word := s.takeWhile isPlain
  let rest := s.drop word.length
  match rest with
  | ' ' :: c :: more =>
    if isDate word && c.isDigit then
      let time := (c :: more).takeWhile isPlain
      (word ++ ' ' :: time, (c :: more).drop time.length)
    else (word, rest)
  | _ => (word, rest)

/-- A truth value, a number or a moment. -/
def plainValue? (s : List Char) : Option Value :=
  if s = "true".toList then some (.boolean true)
  else if s = "false".toList then some (.boolean false)
  else match integer? s with
    | some n => some (.integer n)
    | none =>
      match float? s with
      | some x => some (.float x)
      | none => if isMoment s then some .moment else none

/-! ## 5. Values -/

/-- How deep values may nest. -/
def nestingLimit : Nat := 80

mutual

def readValue (fuel depth : Nat) (s : List Char) : Option (Value × List Char) :=
  match fuel with
  | 0 => none
  | fuel + 1 =>
    match s with
    | '"' :: _ | '\'' :: _ => (readText s).map fun (cs, r) => (.text (String.ofList cs), r)
    | '[' :: rest =>
      if depth = 0 then none
      else (readElements fuel (depth - 1) rest).map fun (xs, r) => (.list xs, r)
    | '\x7b' :: rest =>
      if depth = 0 then none
      else match skipBlanks rest with
        | '\x7d' :: r => some (.inlineTable [], r)
        | r => (readMembers fuel (depth - 1) [] r).map fun (es, r) => (.inlineTable es, r)
    | s =>
      let (word, rest) := spanPlain s
      (plainValue? word).map fun v => (v, rest)

/-- Elements up to the closing bracket; a comma may stand after the last. -/
def readElements (fuel depth : Nat) (s : List Char) : Option (List Value × List Char) :=
  match fuel with
  | 0 => none
  | fuel + 1 =>
    match skipLines (s.length + 1) s with
    | none => none
    | some (']' :: rest) => some ([], rest)
    | some s =>
      match readValue fuel depth s with
      | none => none
      | some (v, rest) =>
        match skipLines (rest.length + 1) rest with
        | some (']' :: rest) => some ([v], rest)
        | some (',' :: rest) =>
          (readElements fuel depth rest).map fun (vs, r) => (v :: vs, r)
        | _ => none

/-- Entries up to the closing brace, on one line. -/
def readMembers (fuel depth : Nat) (es : Entries) (s : List Char) :
    Option (Entries × List Char) :=
  match fuel with
  | 0 => none
  | fuel + 1 =>
    match readKey (s.length + 1) s with
    | some (key, '=' :: rest) =>
      match readValue fuel depth (skipBlanks rest) with
      | none => none
      | some (v, rest) =>
        match assign v key es with
        | none => none
        | some es =>
          match skipBlanks rest with
          | '\x7d' :: rest => some (es, rest)
          | ',' :: rest => readMembers fuel depth es rest
          | _ => none
    | _ => none

end

/-! ## 6. Documents -/

/-- A document in the making: its entries and the path that the last header opened. -/
structure Draft where
  entries : Entries
  header : List String

/-- A header, after its first bracket. -/
def readHeader (d : Draft) (s : List Char) : Option (Draft × List Char) :=
  match s with
  | '[' :: rest =>
    match readKey (rest.length + 1) rest with
    | some (path, ']' :: ']' :: rest) => (openElement path d.entries).map fun es => (⟨es, path⟩, rest)
    | _ => none
  | s =>
    match readKey (s.length + 1) s with
    | some (path, ']' :: rest) => (openTable path d.entries).map fun es => (⟨es, path⟩, rest)
    | _ => none

/-- A key and its value. -/
def readAssignment (d : Draft) (s : List Char) : Option (Draft × List Char) :=
  match readKey (s.length + 1) s with
  | some (key, '=' :: rest) =>
    match readValue (2 * rest.length + 2) nestingLimit (skipBlanks rest) with
    | none => none
    | some (v, rest) => (assignAt d.header key v d.entries).map fun es => (⟨es, d.header⟩, rest)
  | _ => none

/-- What stands on a line before its comment. -/
def readLine (d : Draft) (s : List Char) : Option (Draft × List Char) :=
  match s with
  | [] | '#' :: _ | '\n' :: _ | '\r' :: _ => some (d, s)
  | '[' :: rest => readHeader d rest
  | s => readAssignment d s

/-- The lines of a document, at most `fuel` of them. -/
def readDocument : Nat → Draft → List Char → Option Entries
  | 0, _, _ => none
  | _, d, [] => some d.entries
  | fuel + 1, d, s =>
    match readLine d (skipBlanks s) with
    | none => none
    | some (d, rest) =>
      match endLine rest with
      | none => none
      | some rest => readDocument fuel d rest

/-- The byte order mark. -/
def byteOrderMark : Char := Char.ofNat 0xFEFF

/-- The entries of the document that fills the text. -/
def parse? (text : String) : Option Entries :=
  let s := match text.toList with
    | c :: rest => if c = byteOrderMark then rest else c :: rest
    | [] => []
  readDocument (s.length + 1) ⟨[], []⟩ s

end Toml

end CodeCausality
