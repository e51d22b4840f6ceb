import CodeCausality.Source.Literal

/-!
# From characters to token trees

A source text is a sequence of lexemes with blanks and comments between them. `Lexeme.next?` reads
what stands at the start of the characters; `treesOf?` matches the delimiters.

* A comment that documents what follows is an attribute `#[doc = "…"]`, and one that documents
  what it stands in is `#![doc = "…"]`. All other comments are skipped; those between `/*` and `*/`
  nest.
* A character that starts no lexeme, a text or comment without an end, and delimiters that do not
  match make the whole text unreadable.
-/

namespace CodeCausality

namespace Source

open Text

/-- A token without its place, or one half of a pair of delimiters. -/
inductive Lexeme where
  | word (text : String)
  | mark (c : Char) (joint : Bool)
  | lifetime
  | literal (value : Literal)
  | opening (d : Delimiter)
  | closing (d : Delimiter)

namespace Lexeme

/-! ## 1. Blanks and comments -/

/-- Blanks, and the two marks of writing direction. -/
def isGap (c : Char) : Bool := isBlank c || c == '\u200E' || c == '\u200F'

/-- How many characters there are before the end of the line. -/
def restOfLine (s : List Char) : Nat := (s.takeWhile (· != '\n')).length

/-- How many characters a comment takes after its `/*`, with its `*/`. -/
def blockSize : Nat → List Char → Option Nat
  | depth, '/' :: '*' :: rest => (blockSize (depth + 1) rest).map (· + 2)
  | 0, '*' :: '/' :: _ => some 2
  | depth + 1, '*' :: '/' :: rest => (blockSize depth rest).map (· + 2)
  | depth, _ :: rest => (blockSize depth rest).map (· + 1)
  | _, [] => none

/-- Whether every carriage return stands before a line feed. -/
def returnsPaired : List Char → Bool
  | '\r' :: rest => rest.head? == some '\n' && returnsPaired rest
  | _ :: rest => returnsPaired rest
  | [] => true

/-- The lexemes of an attribute that holds the given documentation. -/
def documentation (inner : Bool) (content : List Char) : List Lexeme :=
  mark '#' false :: (if inner then [mark '!' false] else []) ++
    [opening .bracket, word "doc", mark '=' false, literal (.text (String.ofList content)),
      closing .bracket]

/-- The documentation on one line, from its first `/`. A carriage return at its end is not part of
it. -/
def lineDocumentation (inner : Bool) (s : List Char) : Option (List Lexeme × Nat) :=
  let content := (s.drop 3).take (restOfLine s - 3)
  let ended := (s.drop (restOfLine s)).head? == some '\n'
  let content := if ended && content.getLast? == some '\r' then content.dropLast else content
  if returnsPaired content then some (documentation inner content, restOfLine s) else none

/-- The documentation in a comment that may span lines, from its first `/`. -/
def blockDocumentation (inner : Bool) (s : List Char) : Option (List Lexeme × Nat) := do
  let size ← blockSize 0 (s.drop 2)
  let content := (s.drop 3).take (size - 3)
  if returnsPaired content then some (documentation inner content, size + 2) else none

/-- A comment, from its first `/`. -/
def comment? (s : List Char) : Option (List Lexeme × Nat) :=
  match s with
  | '/' :: '/' :: '!' :: _ => lineDocumentation true s
  | '/' :: '/' :: '/' :: '/' :: _ => some ([], restOfLine s)
  | '/' :: '/' :: '/' :: _ => lineDocumentation false s
  | '/' :: '/' :: _ => some ([], restOfLine s)
  | '/' :: '*' :: '!' :: _ => blockDocumentation true s
  | '/' :: '*' :: '*' :: '/' :: _ => some ([], 4)
  | '/' :: '*' :: '*' :: '*' :: _ => (blockSize 0 (s.drop 2)).map fun n => ([], n + 2)
  | '/' :: '*' :: '*' :: _ => blockDocumentation false s
  | '/' :: '*' :: rest => (blockSize 0 rest).map fun n => ([], n + 2)
  | _ => none

def startsComment : List Char → Bool
  | '/' :: '/' :: _ => true
  | '/' :: '*' :: _ => true
  | _ => false

/-! ## 2. Names and marks -/

/-- How many characters a name takes; `r#` before it makes a reserved word a name, except for a
few. -/
def wordSize (s : List Char) : Nat :=
  match s with
  | 'r' :: '#' :: rest =>
    let size := nameSize rest
    let name := String.ofList (rest.take size)
    if size = 0 ∨ ["_", "super", "self", "Self", "crate"].contains name then 0 else size + 2
  | _ => nameSize s

/-- The beginnings of literals, where no name stands. -/
def literalStarts : List (List Char) :=
  [['r', '"'], ['r', '#', '"'], ['r', '#', '#'], ['b', '"'], ['b', '\''], ['b', 'r', '"'],
    ['b', 'r', '#'], ['c', '"'], ['c', 'r', '"'], ['c', 'r', '#']]

def word? (s : List Char) : Option (List Lexeme × Nat) :=
  if literalStarts.any fun start => start.isPrefixOf s then none
  else
    let size := wordSize s
    if size = 0 then none else some ([word (String.ofList (s.take size))], size)

def markCharacters : List Char :=
  ['~', '!', '@', '#', '$', '%', '^', '&', '*', '-', '=', '+', '|', ';', ':', ',', '<', '.', '>',
    '/', '?', '\'']

/-- Whether the characters start with a mark. -/
def startsMark (s : List Char) : Bool :=
  !startsComment s && s.head?.any markCharacters.contains

def mark? (s : List Char) : Option (List Lexeme × Nat) :=
  if !startsMark s then none
  else
    match s with
    | '\'' :: rest =>
      let size := wordSize rest
      let next := (rest.drop size).head?
      if size = 0 ∨ next = some '\'' ∨ (next = some '#' ∧ !(['r', '#'].isPrefixOf rest)) then none
      else some ([lifetime], size + 1)
    | c :: rest => some ([mark c (startsMark rest)], 1)
    | [] => none

def delimiter? : Char → Option Lexeme
  | '(' => some (opening .parenthesis)
  | '[' => some (opening .bracket)
  | '{' => some (opening .brace)
  | ')' => some (closing .parenthesis)
  | ']' => some (closing .bracket)
  | '}' => some (closing .brace)
  | _ => none

/-! ## 3. The whole text -/

/-- What the characters start with, and how many of them that takes, never none. -/
def next? (s : List Char) : Option (List Lexeme × Nat) :=
  match s with
  | [] => none
  | c :: _ =>
    if isGap c then some ([], 1)
    else if startsComment s then comment? s
    else
      match delimiter? c with
      | some d => some ([d], 1)
      | none =>
        (literal? s).map (fun r => ([Lexeme.literal r.1], r.2)) <|> mark? s <|> word? s

/-- The lexemes of a text with their lines. The text starts on line `l`, and its first `skip`
characters have already been read. -/
def scan? : Nat → Nat → List Char → Option (List (Lexeme × Nat))
  | _, _, [] => some []
  | l, skip, c :: rest =>
    let l' := if c = '\n' then l + 1 else l
    match skip with
    | skip + 1 => scan? l' skip rest
    | 0 => do
      let (found, size) ← next? (c :: rest)
      let more ← scan? l' (size - 1) rest
      pure (found.map (·, l) ++ more)

end Lexeme

/-! ## 4. Groups -/

/-- A group that is not closed yet: its delimiter, its line, and the trees before it, latest
first. -/
structure OpenGroup where
  delimiter : Delimiter
  line : Nat
  before : List Tree

/-- Makes trees of lexemes. `found` are the trees since the innermost open group, latest first. -/
def assemble? : List OpenGroup → List Tree → List (Lexeme × Nat) → Option (List Tree)
  | [], found, [] => some found.reverse
  | _ :: _, _, [] => none
  | opened, found, (.opening d, l) :: rest => assemble? (⟨d, l, found⟩ :: opened) [] rest
  | [], _, (.closing _, _) :: _ => none
  | g :: opened, found, (.closing d, _) :: rest =>
    if g.delimiter = d then
      assemble? opened (.group d found.reverse g.line :: g.before) rest
    else none
  | opened, found, (.word s, l) :: rest => assemble? opened (.word s l :: found) rest
  | opened, found, (.mark c joint, l) :: rest => assemble? opened (.mark c joint l :: found) rest
  | opened, found, (.lifetime, l) :: rest => assemble? opened (.lifetime l :: found) rest
  | opened, found, (.literal v, l) :: rest => assemble? opened (.literal v l :: found) rest

def dropMark : List Char → List Char
  | '\uFEFF' :: rest => rest
  | s => s

/-- Without the byte order mark, and without a first line that is meant for the shell. -/
def withoutPreamble (s : List Char) : List Char :=
  match dropMark s with
  | '#' :: '!' :: rest =>
    let body := afterGaps 0 rest
    if body.head? = some '[' then '#' :: '!' :: rest else rest.dropWhile (· != '\n')
  | t => dropMark t
where
  /-- What follows blanks and comments that document nothing. -/
  afterGaps : Nat → List Char → List Char
    | _, [] => []
    | skip + 1, _ :: rest => afterGaps skip rest
    | 0, c :: rest =>
      if Lexeme.isGap c then afterGaps 0 rest
      else
        match if c = '/' then Lexeme.comment? (c :: rest) else none with
        | some ([], size) => afterGaps (size - 1) rest
        | _ => c :: rest

/-- The token trees of a source text, if it can be read. -/
def treesOf? (text : String) : Option (List Tree) := do
  assemble? [] [] (← Lexeme.scan? 1 0 (withoutPreamble text.toList))

end Source

end CodeCausality
