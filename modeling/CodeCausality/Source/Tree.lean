/-!
# Token trees

A source text is read in two steps: its characters make up tokens, and tokens between matching
delimiters make up one tree. This file fixes the trees and the questions that a parser asks about
the next of them.

* A mark made of several characters, such as `..=`, is written as that many marks of which all
  but the last are followed directly by another mark.
* Every tree knows the line on which it starts, counted from one.
-/

namespace CodeCausality

namespace Source

inductive Delimiter where
  | parenthesis
  | bracket
  | brace
  deriving Repr, DecidableEq

/-- What a literal is, as far as it matters where it stands. -/
inductive Literal where
  | text (content : String)
  | integer (value : Nat) (suffixed : Bool)
  | float (written : List Char)
  | other

/-- One token, or a group of them between delimiters. -/
inductive Tree where
  | word (text : String) (line : Nat)
  | mark (c : Char) (joint : Bool) (line : Nat)
  | lifetime (line : Nat)
  | literal (value : Literal) (line : Nat)
  | group (delimiter : Delimiter) (inner : List Tree) (line : Nat)

namespace Tree

def line : Tree → Nat
  | word _ l => l
  | mark _ _ l => l
  | lifetime l => l
  | literal _ l => l
  | group _ _ l => l

/-- The words that are not names. -/
def reserved : List String :=
  ["_", "abstract", "as", "async", "await", "become", "box", "break", "const", "continue",
    "crate", "do", "dyn", "else", "enum", "extern", "false", "final", "fn", "for", "if", "impl",
    "in", "let", "loop", "macro", "match", "mod", "move", "mut", "override", "priv", "pub", "ref",
    "return", "Self", "self", "static", "struct", "super", "trait", "true", "try", "type",
    "typeof", "unsafe", "unsized", "use", "virtual", "where", "while", "yield"]

/-- The word that a tree is, if it is one. -/
def word? : Tree → Option String
  | word s _ => some s
  | _ => none

/-! ## 1. What comes next -/

/-- Whether the trees start with the given word. -/
def startsWord (s : String) (ts : List Tree) : Bool := ts.head?.bind word? == some s

/-- Whether the trees start with any word, reserved or not. -/
def startsAnyWord (ts : List Tree) : Bool := (ts.head?.bind word?).isSome

/-- Whether the trees start with one of the given words. -/
def startsOneOf (words : List String) (ts : List Tree) : Bool :=
  words.any fun s => startsWord s ts

/-- Whether the trees start with a name. -/
def startsName : List Tree → Bool
  | word s _ :: _ => !reserved.contains s
  | _ => false

/-- What follows the given mark, if the trees start with it. A mark stands there also where it is
the start of a longer one. -/
def afterMarks? : List Char → List Tree → Option (List Tree)
  | [], ts => some ts
  | [c], mark d _ _ :: ts => if c = d then some ts else none
  | c :: cs, mark d joint _ :: ts => if c = d ∧ joint then afterMarks? cs ts else none
  | _, _ => none

def startsMarks (s : String) (ts : List Tree) : Bool := (afterMarks? s.toList ts).isSome

def startsLifetime : List Tree → Bool
  | lifetime _ :: _ => true
  | _ => false

def startsGroup (d : Delimiter) : List Tree → Bool
  | group e _ _ :: _ => d == e
  | _ => false

/-- Whether the trees start with a literal; the two truth values and a signed number are some. -/
def startsLiteral : List Tree → Bool
  | literal _ _ :: _ => true
  | word s _ :: _ => s == "true" || s == "false"
  | mark '-' _ _ :: literal (.integer ..) _ :: _ => true
  | mark '-' _ _ :: literal (.float _) _ :: _ => true
  | _ => false

/-- The line on which the next tree starts. -/
def startLine (ts : List Tree) : Nat := (ts.head?.map line).getD 0

/-- How many tokens there are, those inside of groups among them. -/
def count : List Tree → Nat
  | [] => 0
  | group _ inner _ :: rest => 1 + count inner + count rest
  | _ :: rest => 1 + count rest

end Tree

end Source

end CodeCausality
