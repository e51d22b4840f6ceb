import CodeCausality.Source.Lexeme
import CodeCausality.Source.Syntax

/-!
# Reading token trees

A production takes trees from the front of a list, or fails. This file fixes

* `Production`, its elementary steps, and repetition, which is bounded by the number of trees left;
* `Grammar`, the productions that contain themselves. Each of them reads what is nested in it with
  a grammar of one level less.
-/

namespace CodeCausality

namespace Source

abbrev Production := StateT (List Tree) Option

namespace Production

variable {α : Type}

/-! ## 1. One step -/

/-- Whether the trees that are left have a property. -/
def ahead (p : List Tree → Bool) : Production Bool := fun ts => some (p ts, ts)

def atEnd : Production Bool := ahead List.isEmpty

/-- Takes one tree. -/
def tree : Production Tree
  | [] => none
  | t :: ts => some (t, ts)

/-- Takes a word, whether it is reserved or not. -/
def anyWord : Production String
  | .word s _ :: ts => some (s, ts)
  | _ => none

/-- Takes a name. -/
def name : Production String := do
  if ← ahead Tree.startsName then anyWord else failure

/-- Takes the given word. -/
def word (s : String) : Production Unit := do
  if ← ahead (Tree.startsWord s) then discard tree else failure

/-- Takes the given word if it comes next. -/
def word? (s : String) : Production Bool := do
  if ← ahead (Tree.startsWord s) then
    word s
    return true
  return false

/-- Takes the given mark. -/
def marks (s : String) : Production Unit := fun ts =>
  (Tree.afterMarks? s.toList ts).map fun rest => ((), rest)

/-- Takes the given mark if it comes next. -/
def marks? (s : String) : Production Bool := fun ts =>
  match Tree.afterMarks? s.toList ts with
  | some rest => some (true, rest)
  | none => some (false, ts)

def lifetime : Production Unit := do
  if ← ahead Tree.startsLifetime then discard tree else failure

/-- Takes a literal, which may have a sign. -/
def literal : Production Expr := do
  if !(← ahead Tree.startsLiteral) then failure
  match ← tree with
  | .literal (.text s) _ => return .text s
  | .mark .. => discard tree
  | _ => pure ()
  return .parts []

/-! ## 2. Groups -/

/-- Reads the whole of a group's contents. -/
def whole (p : Production α) (inner : List Tree) : Option α :=
  match p inner with
  | some (a, []) => some a
  | _ => none

/-- Takes a group of any kind, unread. -/
def anyGroup : Production (Delimiter × List Tree)
  | .group d inner _ :: ts => some ((d, inner), ts)
  | _ => none

/-- Takes a group of the given kind, with `p` for all that is in it. -/
def enclosed (d : Delimiter) (p : Production α) : Production α := do
  let (e, inner) ← anyGroup
  if d = e then
    match whole p inner with
    | some a => return a
    | none => failure
  else failure

/-! ## 3. Repetition -/

/-- Repeats `p` until it gives nothing, at most `n` times. -/
def repeatAtMost (p : Production (Option α)) : Nat → Production (List α)
  | 0 => pure []
  | n + 1 => do
    match ← p with
    | none => return []
    | some a => return a :: (← repeatAtMost p n)

/-- Repeats `p`, which takes a tree whenever it gives something, until it gives nothing. -/
def many (p : Production (Option α)) : Production (List α) := do
  repeatAtMost p ((← get).length + 1)

/-- Repeats `p` as long as what is left has a property. -/
def manyWhile (goOn : List Tree → Bool) (p : Production α) : Production (List α) :=
  many do
    if ← ahead goOn then
      return some (← p)
    return none

/-- Repeats `p` to the end of what is left. -/
def manyToEnd (p : Production α) : Production (List α) := manyWhile (fun ts => !ts.isEmpty) p

/-- Members with a mark between them, up to where `stop` holds, at most `n`. -/
def separatedAtMost (mark : String) (stop : List Tree → Bool) (p : Production α) :
    Nat → Production (List α)
  | 0 => failure
  | n + 1 => do
    if ← ahead stop then
      return []
    let a ← p
    if ← ahead stop then
      return [a]
    marks mark
    return a :: (← separatedAtMost mark stop p n)

/-- Members with commas between them, up to where `stop` holds. A comma may follow the last. -/
def commas (stop : List Tree → Bool) (p : Production α) : Production (List α) := do
  separatedAtMost "," stop p ((← get).length + 1)

/-- Members with commas between them, to the end. -/
def commasToEnd (p : Production α) : Production (List α) := commas List.isEmpty p

/-- Members with a mark between them, one or more; the mark may follow the last where `stop`
holds. -/
def joinedBy (mark : String) (stop : List Tree → Bool) (p : Production α) :
    Production (List α) := do
  let first ← p
  let rest ← many do
    if ← marks? mark then
      if ← ahead stop then
        return none
      return some (← p)
    return none
  return first :: rest

end Production

/-! ## 4. Parts of the grammar -/

/-- A path as it is written. -/
structure Path where
  segments : List String
  /-- The expressions among its type arguments. -/
  parts : List Expr
  /-- Whether it starts with `::`, or with a type between angle brackets. -/
  anchored : Bool
  /-- Whether it starts with a type between angle brackets. -/
  qualified : Bool
  /-- Whether no segment has arguments. -/
  bare : Bool
  /-- Whether the last segment has none. -/
  endsBare : Bool

namespace Path

/-- The single name that the path is. -/
def name? (p : Path) : Option String :=
  match p.segments with
  | [x] => if !p.anchored && p.bare then some x else none
  | _ => none

def toExpr (p : Path) : Expr :=
  match p.name? with
  | some x => .name x
  | none => .path p.segments p.parts

end Path

/-- A type: the path that it is, if it is one, and the expressions in it. -/
structure TypeShape where
  path? : Option Path
  parts : List Expr

/-- A pattern: the names that it binds, the name that is all of it, and the expressions in it. -/
structure Pattern where
  names : List String
  name? : Option String
  parts : List Expr

/-- How tightly an operator binds, from the loosest. -/
inductive Level where
  | loosest
  | assignment
  | range
  | disjunction
  | conjunction
  | comparison
  | bitOr
  | bitXor
  | bitAnd
  | shift
  | sum
  | product
  | conversion
  deriving Repr, DecidableEq

namespace Level

def rank : Level → Nat
  | loosest => 0
  | assignment => 1
  | range => 2
  | disjunction => 3
  | conjunction => 4
  | comparison => 5
  | bitOr => 6
  | bitXor => 7
  | bitAnd => 8
  | shift => 9
  | sum => 10
  | product => 11
  | conversion => 12

end Level

/-- What an expression looks like from outside, as far as that decides what may follow it. -/
inductive Shape where
  | plain
  | range
  | comparison
  /-- Ends with a block, and needs no semicolon as a statement. -/
  | block
  | invocation (delimiter : Delimiter)
  deriving Repr, DecidableEq

/-- An expression, the line on which it starts, and its shape. -/
structure Reading where
  expr : Expr
  line : Nat
  shape : Shape

/-- The productions that are nested in others. Where `braces` is false, a brace ends an expression
instead of giving the fields of a value. -/
structure Grammar where
  /-- An expression whose operators bind at least as tightly as the level. -/
  expr : (braces : Bool) → Level → Production Expr
  /-- What may stand at the right of an operator of the level. -/
  operand : (braces : Bool) → Level → Production Expr
  /-- An expression without operators between operands. -/
  unary : (braces : Bool) → Production Expr
  /-- An expression that starts a statement, or the result of an arm. -/
  leading : Production Reading
  /-- A type; `plus` says whether bounds may be added to it. -/
  type : (plus : Bool) → Production TypeShape
  /-- A bound on a type. -/
  bound : Production (List Expr)
  /-- A pattern without alternatives. -/
  pattern : Production Pattern
  /-- The statements of a block, to the end of it. -/
  statements : Production (List Stmt)
  item : Production Item

/-- The grammar that reads nothing. -/
def Grammar.empty : Grammar where
  expr _ _ := failure
  operand _ _ := failure
  unary _ := failure
  leading := failure
  type _ := failure
  bound := failure
  pattern := failure
  statements := failure
  item := failure

/-- Any expression. -/
def Grammar.anyExpr (g : Grammar) : Production Expr := g.expr true .loosest

end Source

end CodeCausality
