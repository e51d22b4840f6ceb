import CodeCausality.Source.Grammar.Pattern

/-!
# Expressions and statements

Expressions are read by the levels of their operators. Where an expression starts a statement or
the result of an arm, one that ends with a block ends there, unless a point or a question mark
follows.

* What an invocation encloses counts as its arguments only if all of it is a list of expressions.
* A comparison is not an operand of a comparison, and a range is not the left operand of anything.
* The last statement of a block is its value if it is an expression without a semicolon; an
  invocation with braces never is.
-/

namespace CodeCausality

namespace Source

open Production CodeCausality.Source.Tree

namespace Grammar

/-! ## 1. Small parts -/

/-- A block in braces. -/
def block (g : Grammar) : Production (List Stmt) := enclosed .brace g.statements

/-- Arguments in parentheses. -/
def arguments (g : Grammar) : Production (List Expr) :=
  enclosed .parenthesis (commasToEnd g.anyExpr)

/-- Whether an expression may start here. -/
def startsExpr (ts : List Tree) : Bool :=
  let mark := fun s longer => startsMarks s ts && !(longer.any (startsMarks · ts))
  startsAnyWord ts && !startsWord "as" ts ||
    startsGroup .parenthesis ts || startsGroup .bracket ts || startsGroup .brace ts ||
    startsLiteral ts || startsLifetime ts || mark "!" ["!="] || mark "-" ["-=", "->"] ||
    mark "*" ["*="] || mark "|" ["|="] || mark "&" ["&="] || mark ".." [] ||
    mark "<" ["<=", "<<="] || mark "::" [] || mark "#" []

/-- An invocation after its path, which starts on the given line. -/
def invocationOf (g : Grammar) (path : List String) (line : Nat) : Production Reading := do
  marks "!"
  let (delimiter, inner) ← anyGroup
  let args := (whole (commasToEnd g.anyExpr) inner).getD []
  return ⟨.invocation (path.getLast?.getD "") args line, line, .invocation delimiter⟩

/-! ## 2. Values with fields -/

/-- A field and its value, after the values of its attributes. -/
def fieldValue (g : Grammar) : Production (List Expr) := do
  let values ← g.attributes
  match ← member with
  | some x =>
    if ← marks? ":" then
      return values ++ [← g.anyExpr]
    else
      return values ++ [.name x]
  | none =>
    marks ":"
    return values ++ [← g.anyExpr]

/-- The fields of a value in braces, and the value that gives the others. -/
def fieldValues (g : Grammar) : Production (List Expr) :=
  enclosed .brace do
    let fields ← commas (fun ts => ts.isEmpty || startsMarks ".." ts) g.fieldValue
    if ← marks? ".." then
      if ← atEnd then
        return fields.flatten
      return fields.flatten ++ [← g.anyExpr]
    return fields.flatten

/-- An expression that starts with a path. -/
def pathExpr (g : Grammar) (braces : Bool) : Production Reading := do
  let line := startLine (← get)
  let p ← g.qualifiedPath true
  let ts ← get
  if startsMarks "!" ts && !startsMarks "!=" ts && p.bare && !p.qualified then
    g.invocationOf p.segments line
  else if braces && startsGroup .brace ts then
    return ⟨.parts (p.parts ++ (← g.fieldValues)), line, .plain⟩
  else
    return ⟨p.toExpr, line, .plain⟩

/-! ## 3. Control flow -/

/-- Branches after one another, at most as many as the number says. -/
def branches (g : Grammar) : Nat → Production Expr
  | 0 => failure
  | n + 1 => do
    word "if"
    let condition ← g.expr false .loosest
    let body ← g.block
    if ← word? "else" then
      if ← ahead (startsWord "if") then
        return .branch condition body (some (← branches g n))
      return .branch condition body (some (.block (← g.block)))
    return .branch condition body none

def whileExpr (g : Grammar) : Production Expr := do
  word "while"
  let condition ← g.expr false .loosest
  let (values, body) ← g.blockWithAttributes
  return (Expr.whileLoop condition body).mark values

def forExpr (g : Grammar) (line : Nat) : Production Expr := do
  word "for"
  let p ← g.alternatives
  word "in"
  let source ← g.expr false .loosest
  let (values, body) ← g.blockWithAttributes
  return (Expr.forLoop p.names p.parts source body line).mark values

def loopExpr (g : Grammar) : Production Expr := do
  word "loop"
  g.markedBlock

/-- A parameter of a closure, perhaps with its type. Without one, attributes before a boxed pattern
are lost. -/
def closureParameter (g : Grammar) : Production (List Expr) := do
  let values ← g.attributes
  let boxed ← ahead (startsWord "box")
  let p ← g.pattern
  if ← marks? ":" then
    return values ++ p.parts ++ (← g.type true).parts
  return if boxed then p.parts else values ++ p.parts

/-- The parameters of a closure, between bars, and its body. -/
def closure (g : Grammar) (braces : Bool) : Production Expr := do
  let quantified ← g.quantifiedLifetimes
  let _ ← word? "const"
  let _ ← word? "static"
  let _ ← word? "async"
  let _ ← word? "move"
  marks "|"
  let params ← commas (startsMarks "|") g.closureParameter
  marks "|"
  let parts := quantified.getD [] ++ params.flatten
  if ← ahead (startsMarks "->") then
    let result ← g.result? true
    let body ← g.block
    return .parts (parts ++ (result.map (·.parts)).getD [] ++ [.block body])
  return .parts (parts ++ [← g.expr braces .loosest])

/-- What follows `break`. -/
def afterBreak (g : Grammar) (braces : Bool) : Production Expr := do
  word "break"
  if ← ahead startsLifetime then
    lifetime
    if ← ahead (startsMarks ":") then
      failure
  if (← ahead startsExpr) && (braces || !(← ahead (startsGroup .brace))) then
    return .parts [← g.expr braces .loosest]
  return .parts []

/-- The value that follows a word such as `return`, if there is one. -/
def optionalValue (g : Grammar) (s : String) : Production (Option Expr) := do
  word s
  if ← ahead startsExpr then
    return some (← g.anyExpr)
  return none

/-! ## 4. Groups -/

def groupedExpr (g : Grammar) : Production Expr :=
  return .parts (← g.arguments)

/-- The members of an array, or one member and how often it stands there. -/
def arrayExpr (g : Grammar) : Production Expr :=
  enclosed .bracket do
    if ← atEnd then
      return .parts []
    let first ← g.anyExpr
    if ← marks? ";" then
      return .parts [first, ← g.anyExpr]
    if ← atEnd then
      return .parts [first]
    marks ","
    return .parts (first :: (← commasToEnd g.anyExpr))

/-- The end of a range whose mark comes next, if it has one; `operand` reads it. -/
def rangeEnd (braces : Bool) (operand : Production Expr) : Production (List Expr) := do
  if ← marks? "..=" then
    return [← operand]
  if ← ahead (startsMarks "...") then
    failure
  marks ".."
  let ts ← get
  let stops := [",", ";", "?", "=>", "=", "+", "/", "%", "^", ">", "<=", "!=", "-=", "*=", "&=",
    "|=", "<<="]
  if ts.isEmpty || stops.any (startsMarks · ts) ||
      startsMarks "." ts && !startsMarks ".." ts ||
      !braces && startsGroup .brace ts || startsWord "as" ts then
    return []
  return [← operand]

/-! ## 5. Atoms -/

/-- Something that is built in, which is not looked into. -/
def builtin : Production Expr := do
  word "builtin"
  marks "#"
  discard name
  if ← ahead (startsGroup .parenthesis) then
    discard anyGroup
    return .parts []
  failure

/-- Whether a closure starts here. -/
def startsClosure (ts : List Tree) : Bool :=
  let after := ts.drop 1
  startsMarks "|" ts || startsWord "move" ts || startsWord "static" ts ||
    startsWord "for" ts && startsMarks "<" after &&
      (startsLifetime (ts.drop 2) || startsMarks ">" (ts.drop 2)) ||
    startsWord "const" ts && !startsGroup .brace after ||
    startsWord "async" ts && (startsMarks "|" after || startsWord "move" after)

/-- Whether an expression starts here that ends with a block. -/
def startsBlockLike (ts : List Tree) : Bool :=
  startsOneOf ["if", "while", "loop", "match", "unsafe"] ts ||
    startsWord "for" ts && !startsClosure ts ||
    startsOneOf ["try", "const"] ts && startsGroup .brace (ts.drop 1) ||
    startsGroup .brace ts

/-- One arm of a selection. After a result that ends with a block no comma is needed. -/
def arm (g : Grammar) : Production Arm := do
  let values ← g.attributes
  let p ← g.alternatives
  let guard ← if ← word? "if" then do pure (some (← g.anyExpr)) else pure none
  marks "=>"
  let body ← g.leading
  if body.shape != .block && !(← atEnd) then
    marks ","
  else
    let _ ← marks? ","
  return ⟨values ++ p.parts, guard, body.expr⟩

/-- An expression that ends with a block. -/
def blockLike (g : Grammar) : Production Reading := do
  let ts ← get
  let line := startLine ts
  let e ← if startsWord "if" ts then g.branches (ts.length + 1)
    else if startsWord "while" ts then g.whileExpr
    else if startsWord "for" ts then g.forExpr line
    else if startsWord "loop" ts then g.loopExpr
    else if startsWord "match" ts then do
      word "match"
      let subject ← g.expr false .loosest
      let (values, arms) ← enclosed .brace do
        let values ← g.innerAttributes
        return (values, ← manyToEnd g.arm)
      pure ((Expr.select subject arms).mark values)
    else if startsWord "try" ts then do
      word "try"
      pure (.block (← g.block))
    else do
      if startsOneOf ["unsafe", "const"] ts then
        discard anyWord
      g.markedBlock
  return ⟨e, line, .block⟩

/-- A loop or a block with a label. -/
def labelled (g : Grammar) : Production Reading := do
  let line := startLine (← get)
  lifetime
  marks ":"
  let ts ← get
  if startsOneOf ["while", "for", "loop"] ts || startsGroup .brace ts then
    let r ← g.blockLike
    return ⟨r.expr.startingAt line [], line, .block⟩
  else
    failure

/-- An expression without operators. -/
def atom (g : Grammar) (braces : Bool) : Production Reading := do
  let ts ← get
  let after := ts.drop 1
  let line := startLine ts
  let plain := fun (p : Production Expr) => return ⟨← p, line, .plain⟩
  if startsLiteral ts then
    plain literal
  else if startsWord "async" ts && (startsGroup .brace after ||
      startsWord "move" after && startsGroup .brace (ts.drop 2)) then
    plain do
      word "async"
      let _ ← word? "move"
      return .parts [.block (← g.block)]
  else if startsWord "try" ts && startsGroup .brace after then
    g.blockLike
  else if startsWord "builtin" ts && startsMarks "#" after then
    plain builtin
  else if startsClosure ts then
    plain (g.closure braces)
  else if startsName ts || startsMarks "::" ts || startsMarks "<" ts ||
      startsOneOf ["self", "Self", "super", "crate"] ts ||
      startsWord "try" ts && (startsMarks "!" after || startsMarks "::" after) then
    g.pathExpr braces
  else if startsGroup .parenthesis ts then
    plain g.groupedExpr
  else if startsWord "break" ts then
    plain (g.afterBreak braces)
  else if startsWord "continue" ts then
    plain do
      word "continue"
      if ← ahead startsLifetime then
        lifetime
      return .parts []
  else if startsWord "return" ts then
    plain (Expr.giveBack <$> g.optionalValue "return")
  else if startsWord "become" ts then
    plain do
      word "become"
      discard g.anyExpr
      return .parts []
  else if startsGroup .bracket ts then
    plain g.arrayExpr
  else if startsWord "let" ts then
    plain do
      word "let"
      let p ← g.alternatives
      marks "="
      return .parts (p.parts ++ [← g.expr braces .comparison])
  else if startsWord "yield" ts then
    plain ((fun v => Expr.parts v.toList) <$> g.optionalValue "yield")
  else if startsBlockLike ts then
    g.blockLike
  else if startsMarks ".." ts then
    return ⟨.parts (← rangeEnd braces (g.operand braces .range)), line, .range⟩
  else if startsWord "_" ts then
    plain do
      word "_"
      return .parts []
  else if startsLifetime ts then
    g.labelled
  else
    failure

/-! ## 6. What follows an atom -/

/-- Whether a float, as written, selects a field of a field: numbers with points between them.
Gives whether another member has to follow. -/
def fieldOfField (written : List Char) : Option Bool :=
  let parts := written.splitBy fun a b => a != '.' && b != '.'
  let numbers := parts.filter fun p => p != ['.']
  let selects := fun p => match literal? p with
    | some (.integer n false, size) => size == p.length && decide (n < UInt32.size)
    | _ => false
  if numbers.all selects then some (written.getLast? == some '.') else none

/-- What follows the point after `e`. -/
def afterPoint (g : Grammar) (e : Reading) : Production Reading := do
  let plain := fun (x : Expr) => { e with expr := x, shape := .plain }
  match ← get with
  | .literal (.float written) _ :: rest =>
    set rest
    match fieldOfField written with
    | some false => return plain (.parts [e.expr])
    | some true => selected (plain (.parts [e.expr]))
    | none => failure
  | _ => selected e
where
  /-- A member, or a method with its arguments. -/
  selected (e : Reading) : Production Reading := do
    let plain := fun (x : Expr) => { e with expr := x, shape := .plain }
    if ← word? "await" then
      return plain (.parts [e.expr])
    match ← member with
    | none => return plain (.parts [e.expr])
    | some x =>
      if ← ahead (startsMarks "::") then
        let typeArgs ← g.typeArguments
        return plain (.method [] e.expr x typeArgs (← g.arguments) e.line)
      if ← ahead (startsGroup .parenthesis) then
        return plain (.method [] e.expr x [] (← g.arguments) e.line)
      return plain (.parts [e.expr])

/-- Calls, members and the like after `e`, one after another, at most as many as the number says. -/
def trailers (g : Grammar) : Nat → Reading → Production Reading
  | 0, _ => failure
  | n + 1, e => do
    let ts ← get
    if startsGroup .parenthesis ts then
      let args ← g.arguments
      trailers g n { e with expr := .call [] e.expr args e.line, shape := .plain }
    else if startsMarks "." ts && !startsMarks ".." ts && e.shape != .range then
      marks "."
      trailers g n (← g.afterPoint e)
    else if startsGroup .bracket ts then
      let index ← enclosed .bracket g.anyExpr
      trailers g n { e with expr := .parts [e.expr, index], shape := .plain }
    else if startsMarks "?" ts && e.shape != .range then
      marks "?"
      trailers g n { e with expr := .parts [e.expr], shape := .plain }
    else
      return e

def withTrailers (g : Grammar) (e : Reading) : Production Reading := do
  g.trailers ((← get).length + 1) e

/-- An expression without operators between operands. Attributes before it belong to all of it; a
range that has no start may have none. -/
def unaryOf (g : Grammar) (braces : Bool) : Production Reading := do
  let line := startLine (← get)
  let marked ← ahead (startsMarks "#")
  let values ← g.attributes
  let ts ← get
  if startsMarks "&" ts then
    marks "&"
    if startsWord "raw" (ts.drop 1) && startsOneOf ["mut", "const"] (ts.drop 2) then
      word "raw"
      discard anyWord
    else
      let _ ← word? "mut"
    return ⟨(Expr.parts [← g.unary braces]).mark values, line, .plain⟩
  if ["*", "!", "-"].any (startsMarks · ts) then
    discard tree
    return ⟨(Expr.parts [← g.unary braces]).mark values, line, .plain⟩
  let e ← g.withTrailers (← g.atom braces)
  if marked then
    if e.shape = .range then
      failure
    return { e with expr := e.expr.startingAt line values, line }
  return e

/-! ## 7. Operators -/

/-- The operators between two operands, a longer one before each that it starts with; whether
they assign is said last. -/
def operators : List (String × Level × Bool) :=
  [("+=", .assignment, true), ("-=", .assignment, true), ("*=", .assignment, true),
    ("/=", .assignment, true), ("%=", .assignment, true), ("^=", .assignment, true),
    ("&=", .assignment, true), ("|=", .assignment, true), ("<<=", .assignment, true),
    (">>=", .assignment, true), ("&&", .conjunction, false), ("||", .disjunction, false),
    ("<<", .shift, false), (">>", .shift, false), ("==", .comparison, false),
    ("<=", .comparison, false), ("!=", .comparison, false), (">=", .comparison, false),
    ("+", .sum, false), ("-", .sum, false), ("*", .product, false), ("/", .product, false),
    ("%", .product, false), ("^", .bitXor, false), ("&", .bitAnd, false), ("|", .bitOr, false),
    ("<", .comparison, false), (">", .comparison, false)]

/-- The operator that comes next: its level, whether it assigns, and what follows it. -/
def operator? (ts : List Tree) : Option (Level × Bool × List Tree) :=
  operators.findSome? fun (s, level, assigns) =>
    (afterMarks? s.toList ts).map fun rest => (level, assigns, rest)

/-- The level of what comes next between operands. -/
def nextLevel (ts : List Tree) : Level :=
  match operator? ts with
  | some (level, _, _) => level
  | none =>
    if startsMarks "=" ts && !startsMarks "=>" ts then .assignment
    else if startsMarks ".." ts then .range
    else if startsWord "as" ts then .conversion
    else .loosest

/-- What may not follow a conversion: whatever would apply to its type. -/
def endsConversion (ts : List Tree) : Bool :=
  !(startsMarks "." ts && !startsMarks ".." ts || startsMarks "?" ts ||
    startsGroup .bracket ts || startsGroup .parenthesis ts)

/-- Two operands and the operator between them. -/
def combine (level : Level) (assigns : Bool) (left : Reading) (right : Expr) : Reading where
  expr := if assigns then .update left.expr right left.line else .operation left.expr right
  line := left.line
  shape := if level = .comparison then .comparison else .plain

mutual

/-- Extends `left` by the operators that bind at least as tightly as `base`. The number bounds the
steps; `first` reads an operand without operators. -/
def climb (g : Grammar) (first : Production Reading) (braces : Bool) :
    Nat → Reading → Level → Production Reading
  | 0, _, _ => failure
  | n + 1, left, base => do
    let ts ← get
    if left.shape = .range then
      return left
    match operator? ts with
    | some (level, assigns, rest) =>
      if level.rank < base.rank then
        return left
      if level = .comparison ∧ left.shape = .comparison then
        failure
      set rest
      let right ← raise g first braces n (← first) level
      climb g first braces n (combine level assigns left right.expr) base
    | none =>
      if base.rank ≤ Level.assignment.rank && startsMarks "=" ts && !startsMarks "=>" ts then
        marks "="
        let right ← raise g first braces n (← first) .assignment
        climb g first braces n ⟨.assign left.expr right.expr left.line, left.line, .plain⟩ base
      else if base.rank ≤ Level.range.rank && startsMarks ".." ts then
        let last ← rangeEnd braces do
          return (← raise g first braces n (← first) .range).expr
        climb g first braces n ⟨.parts (left.expr :: last), left.line, .range⟩ base
      else if startsWord "as" ts then
        word "as"
        let t ← g.type false
        if ← ahead endsConversion then
          climb g first braces n ⟨.operation left.expr (.parts t.parts), left.line, .plain⟩ base
        else
          failure
      else
        return left

/-- Extends the right operand of an operator by the operators that bind more tightly, and by
assignments if the operator is one. -/
def raise (g : Grammar) (first : Production Reading) (braces : Bool) :
    Nat → Reading → Level → Production Reading
  | 0, _, _ => failure
  | n + 1, right, level => do
    let ts ← get
    let next := nextLevel ts
    if level.rank < next.rank ∨ next = level ∧ level = .assignment then
      let longer ← climb g first braces n right next
      if (← get).length = ts.length then
        return longer
      raise g first braces n longer level
    else
      return right

end

/-- Bounds the steps of `climb` and `raise`: every second one takes a tree. -/
def steps : Production Nat := do
  return 2 * (← get).length + 4

/-! ## 8. Statements -/

/-- An expression that starts a statement, or the result of an arm. -/
def leadingOf (g : Grammar) : Production Reading := do
  let line := startLine (← get)
  let marked ← ahead (startsMarks "#")
  let values ← g.attributes
  let place := fun (e : Reading) =>
    if marked then { e with expr := e.expr.startingAt line values, line } else e
  if ← ahead startsBlockLike then
    let e ← g.blockLike
    if ← ahead (fun ts => startsMarks "." ts && !startsMarks ".." ts || startsMarks "?" ts) then
      let e ← g.withTrailers e
      g.climb (g.unaryOf true) true (← steps) (place e) .loosest
    else
      return place e
  else
    let e ← g.unaryOf true
    g.climb (g.unaryOf true) true (← steps) (place e) .loosest

/-- Operators that bind at least as tightly as the level, and their operands. -/
def exprOf (g : Grammar) (braces : Bool) (level : Level) : Production Expr := do
  let first ← g.unaryOf braces
  return (← g.climb (g.unaryOf braces) braces (← steps) first level).expr

def operandOf (g : Grammar) (braces : Bool) (level : Level) : Production Expr := do
  let first ← g.unaryOf braces
  return (← g.raise (g.unaryOf braces) braces (← steps) first level).expr

end Grammar

end Source

end CodeCausality
