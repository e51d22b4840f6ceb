import CodeCausality.Source.Tree
import CodeCausality.Text.NameLetter

/-!
# Literals

How texts, characters and numbers are written in a source. Each reader takes the characters from
the start of the literal and gives what the literal is and how many characters it takes; what
follows a literal directly and could be a name is its suffix and belongs to it.

* A text between quotes knows escapes, and a backslash at the end of a line skips the blanks that
  follow; a raw text ends at a quote followed by as many `#` as stood before its first quote.
* A carriage return stands only before a line feed, and is not part of the text.
* A number with a point, or with an exponent, is a float, unless the point is followed by another
  point or by a name.
-/

namespace CodeCausality

namespace Source

open Text

/-! ## 1. Suffixes -/

/-- How many characters a name at the start takes, none if there is none. -/
def nameSize (s : List Char) : Nat :=
  match s with
  | c :: rest => if startsNames c then 1 + (rest.takeWhile continuesNames).length else 0
  | [] => 0

/-- A literal of the given size and its suffix. -/
def withSuffix (s : List Char) (size : Nat) : Nat := size + nameSize (s.drop size)

/-! ## 2. Escapes -/

/-- What may stand in a text between quotes. -/
structure QuoteRules where
  /-- Characters that stand for themselves. -/
  plain : Char → Bool
  /-- Numbers that may be written as two hexadecimal digits. -/
  byte : Nat → Bool
  /-- Numbers that may be written in braces, if any. -/
  scalar : Nat → Bool
  /-- Whether the null character has an escape of its own. -/
  null : Bool

def QuoteRules.text : QuoteRules := ⟨fun _ => true, (· < 0x80), fun _ => true, true⟩

def QuoteRules.bytes : QuoteRules := ⟨(·.toNat < 0x80), fun _ => true, fun _ => false, true⟩

/-- Texts that end with a null character hold none. -/
def QuoteRules.nullEnded : QuoteRules := ⟨(· != '\x00'), (· != 0), (· != 0), false⟩

def hexDigit? (c : Char) : Option Nat :=
  if c.isDigit then some (c.toNat - '0'.toNat)
  else if 'a' ≤ c ∧ c ≤ 'f' then some (c.toNat - 'a'.toNat + 10)
  else if 'A' ≤ c ∧ c ≤ 'F' then some (c.toNat - 'A'.toNat + 10)
  else none

/-- The number in braces after `\u`: one to six digits, underscores after the first. Gives the
number and how many characters are taken, with the closing brace. -/
def scalarNumber (value digits : Nat) : List Char → Option (Nat × Nat)
  | [] => none
  | c :: rest =>
    if c = '_' ∧ 0 < digits then (scalarNumber value digits rest).map fun r => (r.1, r.2 + 1)
    else if c = '}' ∧ 0 < digits then some (value, 1)
    else do
      let d ← hexDigit? c
      if digits = 6 then none
      else (scalarNumber (value * 16 + d) (digits + 1) rest).map fun r => (r.1, r.2 + 1)

/-- How many blanks a text skips after a backslash at the end of a line. -/
def skippedBlanks : List Char → Option Nat
  | '\r' :: '\n' :: rest => (skippedBlanks rest).map (· + 2)
  | '\r' :: _ => none
  | [] => none
  | c :: rest =>
    if c = ' ' ∨ c = '\t' ∨ c = '\n' then (skippedBlanks rest).map (· + 1) else some 0

/-- What follows a backslash in a character or a text: the character that it stands for, and how
many characters that takes. -/
def escape (rules : QuoteRules) : List Char → Option (Char × Nat)
  | 'n' :: _ => some ('\n', 1)
  | 'r' :: _ => some ('\r', 1)
  | 't' :: _ => some ('\t', 1)
  | '\\' :: _ => some ('\\', 1)
  | '\'' :: _ => some ('\'', 1)
  | '"' :: _ => some ('"', 1)
  | '0' :: _ => if rules.null then some ('\x00', 1) else none
  | 'x' :: a :: b :: _ => do
    let high ← hexDigit? a
    let low ← hexDigit? b
    if rules.byte (high * 16 + low) then some (Char.ofNat (high * 16 + low), 3) else none
  | 'u' :: '{' :: rest => do
    let (n, size) ← scalarNumber 0 0 rest
    if n.isValidChar ∧ rules.scalar n then some (Char.ofNat n, size + 2) else none
  | _ => none

/-! ## 3. Texts and characters -/

/-- The text up to the closing quote, and how many characters it takes with that quote. The first
argument counts the characters that an escape has already taken. -/
def quotedText (rules : QuoteRules) : Nat → List Char → Option (List Char × Nat)
  | _, [] => none
  | skip + 1, _ :: rest => (quotedText rules skip rest).map fun r => (r.1, r.2 + 1)
  | 0, c :: rest =>
    if c = '"' then some ([], 1)
    else if c = '\\' then
      match escape rules rest with
      | some (d, size) => (quotedText rules size rest).map fun r => (d :: r.1, r.2 + 1)
      | none =>
        if rest.head? = some '\n' ∨ rest.head? = some '\r' then do
          let size ← skippedBlanks rest
          (quotedText rules size rest).map fun r => (r.1, r.2 + 1)
        else none
    else if c = '\r' then
      if rest.head? = some '\n' then (quotedText rules 0 rest).map fun r => (r.1, r.2 + 1)
      else none
    else if rules.plain c then (quotedText rules 0 rest).map fun r => (c :: r.1, r.2 + 1)
    else none

/-- The text up to a quote followed by as many `#`, and how many characters it takes with them. -/
def rawText (plain : Char → Bool) (hashes : Nat) : List Char → Option (List Char × Nat)
  | [] => none
  | c :: rest =>
    if c = '"' ∧ (List.replicate hashes '#').isPrefixOf rest then some ([], 1 + hashes)
    else if c = '\r' ∧ rest.head? ≠ some '\n' then none
    else if plain c then (rawText plain hashes rest).map fun r => (c :: r.1, r.2 + 1)
    else none

/-- A raw text from the `#` before its first quote. -/
def rawFromHashes (plain : Char → Bool) (s : List Char) : Option (List Char × Nat) := do
  let hashes := (s.takeWhile (· == '#')).length
  if 255 < hashes then none
  match s.drop hashes with
  | '"' :: rest => (rawText plain hashes rest).map fun r => (r.1, r.2 + hashes + 1)
  | _ => none

/-- One character between apostrophes; `s` follows the first of them. -/
def quotedCharacter (rules : QuoteRules) (s : List Char) : Option Nat := do
  let size ← match s with
    | '\\' :: rest => (escape rules rest).map fun r => r.2 + 1
    | _ :: _ => some 1
    | [] => none
  if (s.drop size).head? = some '\'' then some (size + 1) else none

/-- A text or a character, whatever its kind. -/
def quotedLiteral (s : List Char) : Option (Literal × Nat) := do
  let (value, size) ← match s with
    | '"' :: rest => (quotedText .text 0 rest).map fun r => (.text (String.ofList r.1), r.2 + 1)
    | 'b' :: '"' :: rest => (quotedText .bytes 0 rest).map fun r => (.other, r.2 + 2)
    | 'c' :: '"' :: rest => (quotedText .nullEnded 0 rest).map fun r => (.other, r.2 + 2)
    | 'r' :: rest =>
      (rawFromHashes (fun _ => true) rest).map fun r => (.text (String.ofList r.1), r.2 + 1)
    | 'b' :: 'r' :: rest =>
      (rawFromHashes QuoteRules.bytes.plain rest).map fun r => (.other, r.2 + 2)
    | 'c' :: 'r' :: rest =>
      (rawFromHashes QuoteRules.nullEnded.plain rest).map fun r => (.other, r.2 + 2)
    | 'b' :: '\'' :: rest => (quotedCharacter .bytes rest).map fun n => (Literal.other, n + 2)
    | '\'' :: rest => (quotedCharacter .text rest).map fun n => (Literal.other, n + 1)
    | _ => none
  pure (value, withSuffix s size)

/-! ## 4. Numbers -/

/-- How many characters the digits of a float take up to its exponent, and whether it has a
point. -/
def floatDigits : Bool → List Char → Option (Nat × Bool)
  | point, [] => some (0, point)
  | point, c :: rest =>
    if c.isDigit || c == '_' then (floatDigits point rest).map fun r => (r.1 + 1, r.2)
    else if c = '.' ∧ !point then
      if rest.head?.any fun d => d == '.' || startsNames d then none
      else (floatDigits true rest).map fun r => (r.1 + 1, r.2)
    else some (0, point)

/-- How many characters an exponent takes after its letter, if it has a digit. -/
def exponentSize (s : List Char) : Option Nat :=
  let blanks := (s.takeWhile (· == '_')).length
  let rest := s.drop blanks
  let sign := match rest with
    | '+' :: _ => 1
    | '-' :: _ => 1
    | _ => 0
  let digits := (rest.drop sign).takeWhile fun c => c.isDigit || c == '_'
  if digits.any Char.isDigit then some (blanks + sign + digits.length) else none

/-- No name goes on directly after a number. -/
def wordEnd (s : List Char) (size : Nat) : Option Nat :=
  if (s.drop size).head?.any continuesNames then none else some size

/-- The size of a float without its suffix. -/
def floatSize (s : List Char) : Option Nat := do
  if !(s.head?.any Char.isDigit) then none
  let (size, point) ← floatDigits false s
  match s.drop size with
  | c :: rest =>
    if c = 'e' ∨ c = 'E' then
      match exponentSize rest with
      | some n => some (size + 1 + n)
      | none => if point then some size else none
    else if point then some size else none
  | [] => if point then some size else none

/-- The digits of an integer: its value, whether there was a digit, and how many characters they
take. A decimal digit that is too large for the base is refused; a letter ends the digits. -/
def integerDigits (base value : Nat) (seen : Bool) : List Char → Option (Nat × Bool × Nat)
  | [] => some (value, seen, 0)
  | c :: rest =>
    if c = '_' then
      if seen || base != 10 then
        (integerDigits base value seen rest).map fun r => (r.1, r.2.1, r.2.2 + 1)
      else none
    else
      match hexDigit? c with
      | some d =>
        if d < base then
          (integerDigits base (value * base + d) true rest).map fun r => (r.1, r.2.1, r.2.2 + 1)
        else if c.isDigit then none
        else some (value, seen, 0)
      | none => some (value, seen, 0)

/-- The value and the size of an integer without its suffix. -/
def integerSize (s : List Char) : Option (Nat × Nat) := do
  let (base, start) := match s with
    | '0' :: 'x' :: _ => (16, 2)
    | '0' :: 'o' :: _ => (8, 2)
    | '0' :: 'b' :: _ => (2, 2)
    | _ => (10, 0)
  let (value, seen, size) ← integerDigits base 0 false (s.drop start)
  if seen then some (value, start + size) else none

def numberLiteral (s : List Char) : Option (Literal × Nat) :=
  match floatSize s with
  | some size => (wordEnd s (withSuffix s size)).map fun n => (.float (s.take n), n)
  | none => do
    let (value, size) ← integerSize s
    let n ← wordEnd s (withSuffix s size)
    pure (.integer value (size < n), n)

/-- The literal at the start of the characters, and how many of them it takes. -/
def literal? (s : List Char) : Option (Literal × Nat) :=
  quotedLiteral s <|> numberLiteral s

end Source

end CodeCausality
