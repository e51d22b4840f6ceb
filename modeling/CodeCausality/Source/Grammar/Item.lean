import CodeCausality.Source.Grammar.Expr

/-!
# Statements and items

The items of a source that matter are functions with a body, the methods of types, and modules
with a body; all others are read to know where they end.
-/

namespace CodeCausality

namespace Source

open Production CodeCausality.Source.Tree

namespace Grammar

/-! ## 1. Functions -/

/-- The receiver of a method. -/
def receiver (g : Grammar) : Production Unit := do
  let borrowed ← marks? "&"
  if borrowed then
    if ← ahead startsLifetime then
      lifetime
  let _ ← word? "mut"
  word "self"
  if !borrowed then
    if ← marks? ":" then
      discard (g.type true)

/-- A parameter of a function. -/
inductive Parameter where
  | receiver
  | typed (name? : Option String)
  /-- Any number of further arguments. -/
  | variadic

/-- A parameter after its attributes. -/
def parameter (g : Grammar) : Production Parameter := do
  if ← marks? "..." then
    return .variadic
  (do g.receiver; return .receiver) <|> do
    let ts ← get
    if startsName ts && startsMarks "<" (ts.drop 1) then
      discard (g.type true)
      return .typed none
    let p ← g.pattern
    marks ":"
    if ← marks? "..." then
      return .variadic
    discard (g.type true)
    return .typed p.name?

/-- The parameters of a function. A receiver stands first, and nothing after a variadic one. -/
def parameters (g : Grammar) : Production (List (Option String)) := do
  let found ← enclosed .parenthesis (commasToEnd do
    discard g.attributes
    g.parameter)
  let rest := match found with
    | .receiver :: rest => rest
    | _ => found
  let typed := rest.takeWhile fun
    | .typed _ => true
    | _ => false
  let placed := match rest.drop typed.length with
    | [] => true
    | [.variadic] => true
    | _ => false
  if placed then
    return typed.filterMap fun
      | .typed x => some x
      | _ => none
  else
    failure

/-- The words before `fn`. A foreign function may say that it is safe. -/
def qualifiers (foreign : Bool) : Production Unit := do
  let _ ← word? "const"
  let _ ← word? "async"
  if !(← word? "unsafe") && foreign then
    let _ ← word? "safe"
  if ← word? "extern" then
    if ← ahead startsLiteral then
      discard literal

/-- Whether a function starts here. -/
def startsFunction (foreign : Bool) (ts : List Tree) : Bool :=
  match qualifiers foreign ts with
  | some (_, rest) => startsWord "fn" rest
  | none => false

/-- A function up to its body. -/
def signature (g : Grammar) (foreign : Bool) : Production Function := do
  qualifiers foreign
  word "fn"
  let line := startLine (← get)
  let x ← name
  g.typeParameters
  let params ← g.parameters
  let result ← g.result? true
  g.conditions
  return ⟨x, line, params, result.isSome, []⟩

/-- A function with its body, if it has one. -/
def function (g : Grammar) (foreign : Bool) : Production (Option Function) := do
  let f ← g.signature foreign
  if ← marks? ";" then
    return none
  let (_, body) ← g.blockWithAttributes
  return some { f with body }

/-! ## 2. Types -/

def namedFields (g : Grammar) : Production Unit :=
  discard (enclosed .brace (commasToEnd do
    discard g.attributes
    discard visibility
    if !(← word? "_") then
      discard name
    marks ":"
    discard (g.type true)))

def unnamedFields (g : Grammar) : Production Unit :=
  discard (enclosed .parenthesis (commasToEnd do
    discard g.attributes
    discard visibility
    discard (g.type true)))

def structItem (g : Grammar) : Production Unit := do
  word "struct"
  discard name
  g.typeParameters
  if ← ahead (startsGroup .parenthesis) then
    g.unnamedFields
    g.conditions
    marks ";"
  else
    g.conditions
    if ← ahead (startsGroup .brace) then
      g.namedFields
    else
      marks ";"

def enumItem (g : Grammar) : Production Unit := do
  word "enum"
  discard name
  g.typeParameters
  g.conditions
  discard (enclosed .brace (commasToEnd do
    discard g.attributes
    discard visibility
    discard name
    let ts ← get
    if startsGroup .brace ts then
      g.namedFields
    else if startsGroup .parenthesis ts then
      g.unnamedFields
    if ← marks? "=" then
      discard g.anyExpr))

def unionItem (g : Grammar) : Production Unit := do
  word "union"
  discard name
  g.typeParameters
  g.conditions
  g.namedFields

/-- A named type, with its bounds and what it stands for. `before` and `after` say where its
    conditions may stand; they stand in one place only. -/
def typeItem (g : Grammar) (before after : Bool) : Production Unit := do
  word "type"
  discard name
  g.typeParameters
  if ← marks? ":" then
    g.boundsUpTo fun ts => startsWord "where" ts || startsMarks "=" ts || startsMarks ";" ts
  let conditioned ← ahead (startsWord "where")
  if before then
    g.conditions
  if ← marks? "=" then
    discard (g.type true)
  if after && !(before && conditioned) then
    g.conditions
  marks ";"

/-! ## 3. Constants, imports and other small items -/

/-- The value after `=`, if there is one. -/
def initialValue (g : Grammar) : Production Unit := do
  if ← marks? "=" then
    discard g.anyExpr

def constItem (g : Grammar) : Production Unit := do
  word "const"
  if !(← word? "_") then
    discard name
  g.typeParameters
  marks ":"
  discard (g.type true)
  g.initialValue
  g.conditions
  marks ";"

def staticItem (g : Grammar) : Production Unit := do
  word "static"
  let _ ← word? "mut"
  discard name
  if ← marks? ":" then
    discard (g.type true)
    g.initialValue
  else
    marks "="
    discard g.anyExpr
  marks ";"

/-- What an import names, nested in braces at most as deep as the number says. -/
def importTree : Nat → Production Unit
  | 0 => failure
  | n + 1 => do
    let ts ← get
    if startsMarks "*" ts then
      marks "*"
    else if startsGroup .brace ts then
      discard (enclosed .brace (commasToEnd do
        let _ ← marks? "::"
        importTree n))
    else if startsName ts || startsOneOf ["self", "super", "crate", "try"] ts then
      discard anyWord
      if ← marks? "::" then
        importTree n
      else if ← word? "as" then
        if !(← word? "_") then
          discard name
    else
      failure

def importItem : Production Unit := do
  word "use"
  let _ ← marks? "::"
  importTree (count (← get) + 1)
  marks ";"

/-- An invocation that makes items. With braces it needs no semicolon. -/
def invocationItem : Production Unit := do
  discard wordPath
  marks "!"
  let ts ← get
  if startsName ts || startsWord "try" ts then
    discard anyWord
  let (delimiter, _) ← anyGroup
  if delimiter != .brace then
    marks ";"

/-- A definition of an invocation: what it takes, and what it stands for. -/
def definitionItem : Production Unit := do
  word "macro"
  discard name
  if ← ahead (startsGroup .parenthesis) then
    discard anyGroup
  if ← ahead (startsGroup .brace) then
    discard anyGroup
  else
    failure

def startsInvocation (ts : List Tree) : Bool :=
  startsName ts || startsOneOf ["self", "super", "crate"] ts || startsMarks "::" ts

/-! ## 4. Traits, foreign items and implementations -/

/-- An item of a trait. -/
def requiredItem (g : Grammar) : Production Unit := do
  discard g.attributes
  let visible ← visibility
  let preferred ← word? "default"
  let ts ← get
  if startsFunction false ts then
    discard (g.function false)
  else if startsWord "const" ts then
    g.constItem
  else if startsWord "type" ts then
    g.typeItem false true
  else if !visible && !preferred && startsInvocation ts then
    invocationItem
  else
    failure

/-- An item of a foreign block. -/
def suppliedItem (g : Grammar) : Production Unit := do
  discard g.attributes
  let visible ← visibility
  let ts ← get
  if startsFunction true ts then
    discard (g.function true)
  else if startsWord "static" ts ||
      startsOneOf ["unsafe", "safe"] ts && startsWord "static" (ts.drop 1) then
    if !(← word? "unsafe") then
      let _ ← word? "safe"
    word "static"
    let _ ← word? "mut"
    discard name
    marks ":"
    discard (g.type true)
    g.initialValue
    marks ";"
  else if startsWord "type" ts then
    g.typeItem true true
  else if !visible && startsInvocation ts then
    invocationItem
  else
    failure

def traitItem (g : Grammar) : Production Unit := do
  let _ ← word? "unsafe"
  let _ ← word? "auto"
  word "trait"
  discard name
  g.typeParameters
  if ← marks? "=" then
    g.boundsUpTo fun ts => startsWord "where" ts || startsMarks ";" ts
    g.conditions
    marks ";"
  else
    if ← marks? ":" then
      g.boundsUpTo fun ts => startsWord "where" ts || startsGroup .brace ts
    g.conditions
    discard (enclosed .brace do
      discard g.innerAttributes
      manyToEnd g.requiredItem)

/-- An item that starts with `extern`: another package, or a foreign block. -/
def foreignItem (g : Grammar) : Production Unit := do
  let _ ← word? "unsafe"
  word "extern"
  if ← word? "crate" then
    discard anyWord
    if ← word? "as" then
      discard anyWord
    marks ";"
  else
    if ← ahead startsLiteral then
      discard literal
    discard (enclosed .brace do
      discard g.innerAttributes
      manyToEnd g.suppliedItem)

/-- Whether the bracket that comes next holds type parameters rather than starting a path. -/
def startsTypeParameters (ts : List Tree) : Bool :=
  let second := ts.drop 1
  let third := ts.drop 2
  startsMarks "<" ts &&
    (startsMarks ">" second || startsMarks "#" second || startsWord "const" second ||
      (startsLifetime second || startsName second) &&
        (startsMarks ">" third || startsMarks "," third || startsMarks "=" third ||
          startsMarks ":" third && !startsMarks "::" third))

/-- An item of an implementation: a function with a body, if it is one. -/
def implementedItem (g : Grammar) : Production (Option Function) := do
  discard g.attributes
  let visible ← visibility
  let preferred ← do
    if ← ahead (fun ts => startsWord "default" ts && !startsMarks "!" (ts.drop 1)) then
      word? "default"
    else
      pure false
  let ts ← get
  if startsFunction false ts then
    return ← g.function false
  if startsWord "const" ts then
    g.constItem
  else if startsWord "type" ts then
    g.typeItem false true
  else if !visible && !preferred && startsInvocation ts then
    invocationItem
  else
    failure
  return none

/-- The methods of a type. The name of the type is the last segment of its path. -/
def implementation (g : Grammar) (visible : Bool) : Production Item := do
  let _ ← word? "default"
  let _ ← word? "unsafe"
  word "impl"
  if ← ahead startsTypeParameters then
    g.typeParameters
  let constant ← do
    if ← ahead (fun ts => startsMarks "?" ts && startsWord "const" (ts.drop 1)) then
      marks "?"
    word? "const"
  let negative ← do
    if ← ahead (fun ts => startsMarks "!" ts && !startsGroup .brace (ts.drop 1)) then
      marks? "!"
    else
      pure false
  let first ← g.type true
  let ofTrait ← word? "for"
  let own ← if ofTrait then g.type true else pure first
  if negative && !ofTrait then
    failure
  g.conditions
  let methods ← enclosed .brace do
    discard g.innerAttributes
    manyToEnd g.implementedItem
  let isTrait := match first.path? with
    | some p => !p.qualified
    | none => false
  if visible || constant || ofTrait && !isTrait then
    return .other
  return .implementation (own.path?.bind fun p => p.segments.getLast?) (methods.filterMap id)

/-! ## 5. All items -/

def moduleItem (g : Grammar) : Production Item := do
  let hidden ← word? "unsafe"
  word "mod"
  let x ← if ← ahead (startsWord "try") then anyWord else name
  if ← marks? ";" then
    return .other
  let items ← enclosed .brace do
    discard g.innerAttributes
    manyToEnd g.item
  return if hidden then .other else .module x items

/-- An item that is only read to know where it ends. -/
def skipped (p : Production Unit) : Production Item := do
  p
  return .other

def itemOf (g : Grammar) : Production Item := do
  discard g.attributes
  let visible ← visibility
  let ts ← get
  let after := ts.drop 1
  if startsFunction false ts then
    match ← g.function false with
    | some f => return .function f
    | none => return .other
  else if startsWord "extern" ts || startsWord "unsafe" ts && startsWord "extern" after then
    skipped g.foreignItem
  else if startsWord "use" ts then
    skipped importItem
  else if startsWord "static" ts then
    skipped g.staticItem
  else if startsWord "const" ts then
    skipped g.constItem
  else if startsOneOf ["trait"] ts || startsWord "auto" ts && startsWord "trait" after ||
      startsWord "unsafe" ts && (startsWord "trait" after ||
        startsWord "auto" after && startsWord "trait" (ts.drop 2)) then
    skipped g.traitItem
  else if startsWord "mod" ts || startsWord "unsafe" ts && startsWord "mod" after then
    g.moduleItem
  else if startsWord "type" ts then
    skipped (g.typeItem true false)
  else if startsWord "struct" ts then
    skipped g.structItem
  else if startsWord "enum" ts then
    skipped g.enumItem
  else if startsWord "union" ts && startsName after then
    skipped g.unionItem
  else if startsWord "impl" ts || startsWord "default" ts && !startsMarks "!" after ||
      startsWord "unsafe" ts && startsWord "impl" after then
    g.implementation visible
  else if startsWord "macro" ts then
    skipped definitionItem
  else if !visible && startsInvocation ts then
    skipped invocationItem
  else
    failure

/-! ## 6. Statements -/

/-- Whether a statement that starts here is an item. -/
def startsItem (ts : List Tree) : Bool :=
  let second := ts.drop 1
  let third := ts.drop 2
  startsOneOf ["pub", "extern", "use", "fn", "mod", "type", "struct", "enum", "trait", "impl",
    "macro"] ts ||
    startsWord "crate" ts && !startsMarks "::" second ||
    startsWord "static" ts && (startsWord "mut" second || startsName second) ||
    startsWord "const" ts && !(startsGroup .brace second ||
      startsOneOf ["static", "move"] second || startsMarks "|" second ||
      startsWord "async" second && !startsOneOf ["unsafe", "extern", "fn"] third) ||
    startsWord "unsafe" ts && !startsGroup .brace second ||
    startsWord "async" ts && startsOneOf ["unsafe", "extern", "fn"] second ||
    startsWord "union" ts && startsName second ||
    startsWord "auto" ts && startsWord "trait" second ||
    startsWord "default" ts && startsOneOf ["unsafe", "impl"] second

/-- What a statement with an invocation turns out to be before it is read. -/
inductive InvocationKind where
  | item
  /-- With braces, and all of the statement. -/
  | braced (path : List String)
  | expression

def invocationKind (ts : List Tree) : InvocationKind :=
  match wordPath ts with
  | none => .expression
  | some (path, rest) =>
    let after := rest.drop 1
    let third := rest.drop 2
    if !startsMarks "!" rest then .expression
    else if startsName after || startsWord "try" after then .item
    else if startsGroup .brace after &&
        !(startsMarks "." third && !startsMarks ".." third || startsMarks "?" third) then
      .braced path
    else .expression

/-- A binding, after the values of its attributes. What follows `else` may not come after a value that ends with a brace. -/
def bindStmt (g : Grammar) (line : Nat) (values : List Expr) : Production Stmt := do
  word "let"
  let p ← g.pattern
  let typeParts ← if ← marks? ":" then do pure (← g.type true).parts else pure []
  let parts := values ++ p.parts ++ typeParts
  if ← marks? "=" then
    let before ← get
    let value ← g.anyExpr
    let left := (← get).length
    let endsWithBrace := startsGroup .brace (before.drop (before.length - left - 1))
    let otherwise ← do
      if !endsWithBrace && (← word? "else") then
        pure (some (.block (← g.block)))
      else
        pure none
    marks ";"
    return .bind p.names parts (some value) otherwise line
  marks ";"
  return .bind p.names parts none none line

/-- A statement, and whether it needs a semicolon before another one. -/
def statement (g : Grammar) : Production (Stmt × Bool) := do
  let line := startLine (← get)
  let marked ← ahead (startsMarks "#")
  let values ← g.attributes
  let ts ← get
  match invocationKind ts with
  | .braced path =>
    discard wordPath
    let e ← g.invocationOf path (startLine ts)
    let _ ← marks? ";"
    return (.run (e.expr.mark values) true, false)
  | kind =>
    let isItem := match kind with
      | .item => true
      | _ => startsItem ts
    if startsWord "let" ts then
      return (← g.bindStmt line values, false)
    if isItem then
      discard g.item
      return (.item, false)
    let e ← g.leading
    let expr := if marked then e.expr.startingAt line values else e.expr
    let ended ← marks? ";"
    match e.shape with
    | .invocation .brace => return (.run expr true, false)
    | .block => return (.run expr ended, false)
    | _ => return (.run expr ended, !ended)

/-- The statements up to the end, at most as many as the number says. -/
def statementsAtMost (g : Grammar) : Nat → Production (List Stmt)
  | 0 => failure
  | n + 1 => do
    discard (manyWhile (startsMarks ";") (marks ";"))
    if ← atEnd then
      return []
    let (s, open?) ← g.statement
    if ← atEnd then
      return [s]
    if open? then
      failure
    return s :: (← statementsAtMost g n)

def statementsOf (g : Grammar) : Production (List Stmt) := do
  g.statementsAtMost ((← get).length + 1)

end Grammar

end Source

end CodeCausality
