import CodeCausality.Source.Grammar.Type

/-!
# Patterns

A pattern binds the names in it, as long as it is made of names, references, tuples and fields.
The names in alternatives, slices and parentheses are not counted, nor is what stands after `@`.
-/

namespace CodeCausality

namespace Source

open Production CodeCausality.Source.Tree

namespace Pattern

/-- A pattern that binds nothing. -/
def ofParts (parts : List Expr) : Pattern := ⟨[], none, parts⟩

/-- The pattern made of several others, which binds what they bind. -/
def joined (ps : List Pattern) : Pattern :=
  ⟨ps.flatMap (·.names), none, ps.flatMap (·.parts)⟩

/-- The pattern without its names. -/
def hidden (p : Pattern) : Pattern := ofParts p.parts

/-- The pattern with the values of attributes before it. -/
def marked (values : List Expr) (p : Pattern) : Pattern := { p with parts := values ++ p.parts }

end Pattern

namespace Grammar

/-! ## 1. Alternatives -/

def startsAlternative (ts : List Tree) : Bool :=
  startsMarks "|" ts && !startsMarks "||" ts && !startsMarks "|=" ts

/-- A pattern or alternatives. -/
def alternatives (g : Grammar) : Production Pattern := do
  let led ← marks? "|"
  let first ← g.pattern
  let more ← manyWhile startsAlternative do
    marks "|"
    g.pattern
  if led || !more.isEmpty then
    return (Pattern.joined (first :: more)).hidden
  return first

/-! ## 2. Ranges -/

/-- The end of a range, if it has one. -/
def rangeBound (g : Grammar) : Production (Option Expr) := do
  let ts ← get
  if ts.isEmpty || ["|", "=", ",", ";"].any (startsMarks · ts) ||
      startsMarks ":" ts && !startsMarks "::" ts || startsWord "if" ts then
    return none
  if startsLiteral ts then
    return some (← literal)
  if startsWord "const" ts then
    word "const"
    return some (← g.markedBlock)
  return some (← g.qualifiedPath true).toExpr

/-- The mark of a range, and whether it needs an end. -/
def rangeMark : Production Bool := do
  if ← marks? "..=" then return true
  if ← marks? "..." then return true
  marks ".."
  return false

/-- What follows the start of a range. -/
def rangeAfter (g : Grammar) (start : List Expr) : Production Pattern := do
  let closed ← rangeMark
  match ← g.rangeBound with
  | some e => return .ofParts (start ++ [e])
  | none => if closed then failure else return .ofParts start

/-! ## 3. Patterns by what they start with -/

/-- The patterns of a list, to the end of it. -/
def patternList (g : Grammar) : Production (List Pattern) := commasToEnd g.alternatives

/-- A name or a number that selects a field. -/
def member : Production (Option String) := do
  if ← ahead startsName then
    return some (← anyWord)
  match ← tree with
  | .literal (.integer n false) _ => if n < UInt32.size then return none else failure
  | _ => failure

/-- One field of a pattern. A name alone is both the field and what it binds. -/
def fieldPattern (g : Grammar) : Production Pattern := do
  let boxed ← word? "box"
  let byRef ← word? "ref"
  let mutable ← word? "mut"
  let marked := boxed || byRef || mutable
  match ← member with
  | some x =>
    if !marked && (← ahead (startsMarks ":")) then
      marks ":"
      g.alternatives
    else
      return ⟨if boxed then [] else [x], none, []⟩
  | none =>
    if marked then
      failure
    marks ":"
    g.alternatives

def fieldPatterns (g : Grammar) : Production Pattern := do
  let fields ← commasToEnd do
    let values ← g.attributes
    if ← marks? ".." then
      if !(← atEnd) then
        failure
      return .ofParts values
    return (← g.fieldPattern).marked values
  return .joined fields

/-- A pattern that starts with a path. -/
def pathPattern (g : Grammar) : Production Pattern := do
  let line := startLine (← get)
  let p ← g.qualifiedPath true
  let ts ← get
  if startsMarks "!" ts && !startsMarks "!=" ts && p.bare && !p.qualified then
    marks "!"
    let (_, inner) ← anyGroup
    return .ofParts [.invocation (p.segments.getLast?.getD "")
      ((whole (commasToEnd g.anyExpr) inner).getD []) line]
  if startsGroup .brace ts then
    let fields ← enclosed .brace g.fieldPatterns
    return { fields with parts := p.parts ++ fields.parts }
  if startsGroup .parenthesis ts then
    let members ← enclosed .parenthesis g.patternList
    return { Pattern.joined members with parts := p.parts ++ (Pattern.joined members).parts }
  if startsMarks ".." ts then
    g.rangeAfter [p.toExpr]
  else
    return .ofParts [p.toExpr]

/-- A name that is bound, perhaps with a pattern that its value also has to match. -/
def namePattern (g : Grammar) : Production Pattern := do
  let _ ← word? "ref"
  let _ ← word? "mut"
  let x ← if ← ahead (startsWord "self") then anyWord else name
  if ← marks? "@" then
    return ⟨[x], some x, (← g.pattern).parts⟩
  return ⟨[x], some x, []⟩

/-- Patterns in parentheses. A single one without a comma is no tuple. -/
def tuplePattern (g : Grammar) : Production Pattern := do
  let (members, single) ← enclosed .parenthesis do
    let trees ← get
    let members ← g.patternList
    let comma := match trees.getLast? with
      | some (.mark ',' _ _) => true
      | _ => false
    return (members, members.length == 1 && !comma)
  return if single then (Pattern.joined members).hidden else .joined members

/-- A pattern without alternatives. -/
def patternOf (g : Grammar) : Production Pattern := do
  let ts ← get
  let after := ts.drop 1
  if startsName ts && (["::", "!", ".."].any (startsMarks · after) || startsGroup .brace after ||
        startsGroup .parenthesis after) ||
      startsWord "self" ts && startsMarks "::" after ||
      startsMarks "::" ts || startsMarks "<" ts || startsOneOf ["Self", "super", "crate"] ts then
    g.pathPattern
  else if startsWord "_" ts then
    word "_"
    return .ofParts []
  else if startsWord "box" ts then
    word "box"
    discard g.pattern
    return .ofParts []
  else if startsMarks "-" ts || startsLiteral ts || startsWord "const" ts then
    match ← g.rangeBound with
    | some e => if ← ahead (startsMarks "..") then g.rangeAfter [e] else return .ofParts [e]
    | none => failure
  else if startsOneOf ["ref", "mut", "self"] ts || startsName ts then
    g.namePattern
  else if startsMarks "&" ts then
    marks "&"
    let _ ← word? "mut"
    return { (← g.pattern) with name? := none }
  else if startsGroup .parenthesis ts then
    g.tuplePattern
  else if startsGroup .bracket ts then
    return (Pattern.joined (← enclosed .bracket g.patternList)).hidden
  else if startsMarks ".." ts && !startsMarks "..." ts then
    g.rangeAfter []
  else
    failure

end Grammar

end Source

end CodeCausality
