import CodeCausality.Source.Grammar.Basic

/-!
# Paths, types and bounds

Of a type only the path that it is and the expressions in it are kept: array lengths and constant
arguments, invocations, and the values of attributes. The productions are those of attributes and
visibility, paths, type arguments, bounds, types, type parameters and their conditions.
-/

namespace CodeCausality

namespace Source

open Production CodeCausality.Source.Tree

namespace Grammar

/-! ## 1. Attributes and visibility -/

/-- A path of words without arguments. -/
def wordPath : Production (List String) := do
  let _ ← marks? "::"
  let startsSegment := fun ts => startsName ts || startsOneOf ["super", "self", "Self", "crate"] ts
  let first ← if ← ahead startsSegment then anyWord else failure
  let rest ← many do
    if ← marks? "::" then
      if ← ahead startsSegment then
        return some (← anyWord)
      failure
    return none
  return first :: rest

/-- What stands between the brackets of an attribute; the value that it gives, if there is one. -/
def attributeBody (g : Grammar) : Production (List Expr) := do
  if !(← word? "unsafe") then
    discard wordPath
  let ts ← get
  if startsGroup .parenthesis ts || startsGroup .bracket ts || startsGroup .brace ts then
    discard anyGroup
    return []
  if ← marks? "=" then
    if ← ahead (fun ts => startsMarks "#" ts && startsGroup .bracket (ts.drop 1)) then
      failure
    return [← g.anyExpr]
  return []

/-- Attributes before what they belong to, and the values that they give. -/
def attributes (g : Grammar) : Production (List Expr) := do
  let values ← manyWhile (startsMarks "#") do
    marks "#"
    enclosed .bracket g.attributeBody
  return values.flatten

/-- Attributes at the start of what they belong to, and the values that they give. -/
def innerAttributes (g : Grammar) : Production (List Expr) := do
  let values ← manyWhile (fun ts => startsMarks "#" ts && startsMarks "!" (ts.drop 1)) do
    marks "#"
    marks "!"
    enclosed .bracket g.attributeBody
  return values.flatten

/-- Statements in braces, with the values of the attributes that they may start with. -/
def blockWithAttributes (g : Grammar) : Production (List Expr × List Stmt) :=
  enclosed .brace do
    let values ← g.innerAttributes
    return (values, ← g.statements)

/-- Such a block as an expression. -/
def markedBlock (g : Grammar) : Production Expr := do
  let (values, body) ← g.blockWithAttributes
  return (Expr.block body).mark values

/-- A visibility, and whether one is given. What is in parentheses belongs to it only where it can
be nothing else. -/
def visibility : Production Bool := do
  if !(← word? "pub") then
    return false
  match ← get with
  | .group .parenthesis [.word s _] _ :: rest =>
    if ["crate", "self", "super"].contains s then
      set rest
  | .group .parenthesis (.word "in" _ :: path) _ :: rest =>
    match whole wordPath path with
    | some _ => set rest
    | none => failure
  | _ => pure ()
  return true

/-! ## 2. Paths -/

/-- A constant as a type argument. -/
def constantArgument (g : Grammar) : Production Expr := do
  if ← ahead startsLiteral then
    literal
  else if ← ahead startsName then
    return .name (← anyWord)
  else
    g.markedBlock

def startsConstant (ts : List Tree) : Bool := startsLiteral ts || startsGroup .brace ts

/-- Takes lifetimes joined by `+`, up to where `stop` holds. -/
def lifetimeBounds (stop : List Tree → Bool) : Production Unit := do
  discard (many do
    if ← ahead stop then
      return none
    lifetime
    if ← marks? "+" then
      return some ()
    if ← ahead stop then
      return none
    failure)

/-- Lifetimes that a type or a bound is for all of, and the values of their attributes. -/
def quantifiedLifetimes (g : Grammar) : Production (Option (List Expr)) := do
  if !(← word? "for") then
    return none
  marks "<"
  let values ← commas (startsMarks ">") do
    let values ← g.attributes
    lifetime
    if ← marks? ":" then
      lifetimeBounds fun ts => startsMarks "," ts || startsMarks ">" ts
    return values
  marks ">"
  return some values.flatten

/-- The type after an arrow, if there is one. -/
def result? (g : Grammar) (plus : Bool) : Production (Option TypeShape) := do
  if ← marks? "->" then
    return some (← g.type plus)
  return none

/-- Types in parentheses and a result, as the arguments of a function bound. -/
def functionArguments (g : Grammar) : Production (List Expr) := do
  let params ← enclosed .parenthesis (commasToEnd (g.type true))
  let result ← g.result? false
  return params.flatMap (·.parts) ++ (result.map (·.parts)).getD []

/-- One type argument. -/
def typeArgument (g : Grammar) : Production (List Expr) := do
  let ts ← get
  if startsLifetime ts && !startsMarks "+" (ts.drop 1) then
    lifetime
    return []
  if startsConstant ts then
    return [← g.constantArgument]
  let t ← g.type true
  let named := match t.path? with
    | some p => p.segments.length == 1 && !p.anchored
    | none => false
  if named then
    if ← marks? "=" then
      if ← ahead startsConstant then
        return t.parts ++ [← g.constantArgument]
      return t.parts ++ (← g.type true).parts
    if ← marks? ":" then
      let stop := fun ts => startsMarks "," ts || startsMarks ">" ts
      if ← ahead stop then
        return t.parts
      return t.parts ++ (← joinedBy "+" stop g.bound).flatten
  return t.parts

/-- Type arguments between angle brackets. -/
def typeArguments (g : Grammar) : Production (List Expr) := do
  let _ ← marks? "::"
  marks "<"
  let args ← commas (startsMarks ">") g.typeArgument
  marks ">"
  return args.flatten

/-- One segment and its arguments, if it has any. In an expression, arguments follow `::`. -/
def segment (g : Grammar) (inExpr : Bool) : Production (String × Option (List Expr)) := do
  if ← ahead (startsOneOf ["super", "self", "crate", "try"]) then
    return (← anyWord, none)
  let s ← if ← ahead (startsWord "Self") then anyWord else name
  let ts ← get
  if !inExpr && startsMarks "<" ts && !startsMarks "<=" ts && !startsMarks "<<=" ts ||
      startsMarks "::" ts && startsMarks "<" (ts.drop 2) then
    return (s, some (← g.typeArguments))
  return (s, none)

/-- The segments after the first. -/
def moreSegments (g : Grammar) (inExpr : Bool) :
    Production (List (String × Option (List Expr))) :=
  manyWhile (fun ts => startsMarks "::" ts && !startsGroup .parenthesis (ts.drop 2)) do
    marks "::"
    g.segment inExpr

/-- The path of the given segments. -/
def ofSegments (anchored : Bool) (ss : List (String × Option (List Expr))) : Path where
  segments := ss.map (·.1)
  parts := ss.flatMap fun s => s.2.getD []
  anchored
  qualified := false
  bare := ss.all fun s => s.2.isNone
  endsBare := (ss.getLast?.map fun s => s.2.isNone).getD false

/-- A path. In an expression, arguments follow `::`. -/
def path (g : Grammar) (inExpr : Bool) : Production Path := do
  let anchored ← marks? "::"
  let first ← g.segment inExpr
  return ofSegments anchored (first :: (← g.moreSegments inExpr))

/-- Whether the arguments of a function bound come next. -/
def startsFunctionArguments (ts : List Tree) : Bool :=
  startsGroup .parenthesis ts || startsMarks "::" ts && startsGroup .parenthesis (ts.drop 2)

/-- The path with the arguments of a function bound after it, if they come next. -/
def withFunctionArguments (g : Grammar) (p : Path) : Production Path := do
  if p.endsBare && (← ahead startsFunctionArguments) then
    let _ ← marks? "::"
    let args ← g.functionArguments
    return { p with parts := p.parts ++ args, bare := false, endsBare := false }
  return p

/-! ## 3. Bounds -/

/-- A bound by a path. One that may be constant is not looked into. -/
def pathBound (g : Grammar) : Production (List Expr) := do
  let maybeConst ← marks? "~"
  if maybeConst then
    word "const"
  let before ← g.quantifiedLifetimes
  let optional ← marks? "?"
  let quantified ← if optional && before.isNone then g.quantifiedLifetimes else pure before
  let p ← g.withFunctionArguments (← g.path false)
  return if maybeConst then [] else quantified.getD [] ++ p.parts

def boundOf (g : Grammar) : Production (List Expr) := do
  let ts ← get
  if startsLifetime ts then
    lifetime
    return []
  if startsWord "use" ts then
    word "use"
    marks "<"
    let _ ← commas (startsMarks ">") (do
      if ← ahead startsLifetime then lifetime else discard anyWord)
    marks ">"
    return []
  if startsGroup .parenthesis ts then
    enclosed .parenthesis g.pathBound
  else
    g.pathBound

/-- A path that may start with a type between angle brackets. -/
def qualifiedPath (g : Grammar) (inExpr : Bool) : Production Path := do
  if ← marks? "<" then
    let own ← g.type true
    let role ← if ← word? "as" then do pure (some (← g.path false)) else pure none
    marks ">"
    marks "::"
    let first ← g.segment inExpr
    let rest ← manyWhile (startsMarks "::") do
      marks "::"
      g.segment inExpr
    let p := ofSegments true (first :: rest)
    match role with
    | some r =>
      return { p with
        segments := r.segments ++ p.segments, parts := own.parts ++ r.parts ++ p.parts
        bare := false, qualified := true }
    | none => return { p with parts := own.parts ++ p.parts, qualified := true }
  else
    g.path inExpr

/-- Whether a bound may come next. -/
def startsBound (ts : List Tree) : Bool :=
  startsAnyWord ts || startsMarks "::" ts || startsMarks "?" ts || startsLifetime ts ||
    startsGroup .parenthesis ts || startsMarks "~" ts

/-- A bound, and whether it is about lifetimes only. -/
def boundAndKind (g : Grammar) : Production (Bool × List Expr) := do
  let ofLifetimes ← ahead fun ts => startsLifetime ts || startsWord "use" ts
  return (ofLifetimes, ← g.boundOf)

/-- Bounds joined by `+`, or a single one; not all of them are about lifetimes only. -/
def boundsOfType (g : Grammar) (plus : Bool) : Production (List Expr) := do
  let bounds ← if plus then joinedBy "+" (fun ts => !startsBound ts) g.boundAndKind
    else pure [← g.boundAndKind]
  if bounds.all (·.1) then
    failure
  return bounds.flatMap (·.2)

/-! ## 4. Types -/

/-- Bounds added to a type that turned out to be the first bound. -/
def addedBounds (g : Grammar) (plus : Bool) (first : List Expr) : Production (List Expr) := do
  if plus then
    let more ← many do
      if ← marks? "+" then
        if ← ahead startsBound then
          return some (← g.boundOf)
      return none
    return first ++ more.flatten
  return first

def functionType (g : Grammar) : Production TypeShape := do
  let _ ← word? "unsafe"
  if ← word? "extern" then
    if ← ahead startsLiteral then
      discard literal
  word "fn"
  let params ← enclosed .parenthesis (commasToEnd do
    let values ← g.attributes
    let ts ← get
    if startsAnyWord ts && startsMarks ":" (ts.drop 1) && !startsMarks "::" (ts.drop 1) then
      discard anyWord
      marks ":"
    if ← marks? "..." then
      return values
    return values ++ (← g.type true).parts)
  let result ← g.result? false
  return ⟨none, params.flatten ++ (result.map (·.parts)).getD []⟩

/-- A path as a type, or an invocation that stands for one. It may be the first of several bounds;
then the lifetimes before it belong to that. -/
def pathType (g : Grammar) (plus : Bool) (quantified : Option (List Expr)) :
    Production TypeShape := do
  let line := startLine (← get)
  let first ← g.withFunctionArguments (← g.qualifiedPath false)
  let more ← g.moreSegments false
  let p := if more.isEmpty then first else
    { first with
      segments := first.segments ++ more.map (·.1)
      parts := first.parts ++ more.flatMap fun s => s.2.getD [] }
  if p.qualified then
    return ⟨some p, p.parts⟩
  let ts ← get
  if startsMarks "!" ts && !startsMarks "!=" ts && p.bare then
    marks "!"
    let (_, inner) ← anyGroup
    return ⟨none, [.invocation (p.segments.getLast?.getD "")
      ((whole (commasToEnd g.anyExpr) inner).getD []) line]⟩
  if quantified.isSome || plus && startsMarks "+" ts then
    return ⟨none, ← g.addedBounds plus (quantified.getD [] ++ p.parts)⟩
  return ⟨some p, p.parts⟩

/-- Types in parentheses. -/
def groupedType (g : Grammar) (plus : Bool) : Production TypeShape := do
  let members ← enclosed .parenthesis do
    if ← ahead (startsMarks "?") then
      return [← g.boundsOfType true]
    return (← commasToEnd (g.type true)).map (·.parts)
  let parts := members.flatten
  if ← ahead (startsMarks "+") then
    return ⟨none, ← g.addedBounds (plus && members.length == 1) parts⟩
  return ⟨none, parts⟩

/-- Whether a type starts here that may be for all of some lifetimes. -/
def startsQuantified (ts : List Tree) : Bool :=
  startsName ts ||
    startsOneOf ["fn", "unsafe", "extern", "super", "self", "Self", "crate"] ts

/-- A type after the lifetimes that it is for all of. -/
def typeBody (g : Grammar) (plus : Bool) (quantified : Option (List Expr)) :
    Production TypeShape := do
  let ts ← get
  if quantified.isSome && !startsQuantified ts then
    failure
  if startsGroup .parenthesis ts then
    g.groupedType plus
  else if startsOneOf ["fn", "unsafe", "extern"] ts then
    return ⟨none, quantified.getD [] ++ (← g.functionType).parts⟩
  else if startsName ts || startsOneOf ["super", "self", "Self", "crate"] ts ||
      startsMarks "::" ts || startsMarks "<" ts then
    g.pathType plus quantified
  else if startsWord "dyn" ts then
    word "dyn"
    let unsized ← marks? "*"
    let bounds ← g.boundsOfType plus
    return ⟨none, if unsized then [] else bounds⟩
  else if startsGroup .bracket ts then
    enclosed .bracket do
      let member ← g.type true
      if ← marks? ";" then
        return ⟨none, member.parts ++ [← g.anyExpr]⟩
      return ⟨none, member.parts⟩
  else if startsMarks "*" ts then
    marks "*"
    if !(← word? "const") then
      word "mut"
    return ⟨none, (← g.type false).parts⟩
  else if startsMarks "&" ts then
    marks "&"
    if ← ahead startsLifetime then
      lifetime
    let _ ← word? "mut"
    return ⟨none, (← g.type false).parts⟩
  else if startsMarks "!" ts && !startsMarks "!=" ts then
    marks "!"
    return ⟨none, []⟩
  else if startsWord "impl" ts then
    word "impl"
    return ⟨none, ← g.boundsOfType plus⟩
  else if startsWord "_" ts then
    word "_"
    return ⟨none, []⟩
  else if startsLifetime ts then
    return ⟨none, ← g.boundsOfType plus⟩
  else
    failure

def typeOf (g : Grammar) (plus : Bool) : Production TypeShape := do
  let quantified ← g.quantifiedLifetimes
  g.typeBody plus quantified

/-! ## 5. Type parameters -/

/-- Bounds up to where `stop` holds, perhaps none. -/
def boundsUpTo (g : Grammar) (stop : List Tree → Bool) : Production Unit := do
  discard (many do
    if ← ahead stop then
      return none
    discard g.boundOf
    if ← marks? "+" then
      return some ()
    if ← ahead stop then
      return none
    failure)

def typeParameter (g : Grammar) : Production Unit := do
  let stop := fun ts => startsMarks "," ts || startsMarks ">" ts
  discard g.attributes
  if ← ahead startsLifetime then
    lifetime
    if ← marks? ":" then
      lifetimeBounds stop
  else if ← word? "const" then
    discard name
    marks ":"
    discard (g.type true)
    if ← marks? "=" then
      discard g.constantArgument
  else
    discard name
    if ← marks? ":" then
      g.boundsUpTo fun ts => stop ts || startsMarks "=" ts
    if ← marks? "=" then
      discard (g.type true)

/-- Type parameters between angle brackets, if there are any. -/
def typeParameters (g : Grammar) : Production Unit := do
  if ← marks? "<" then
    let _ ← commas (startsMarks ">") g.typeParameter
    marks ">"

/-- Where the conditions on type parameters end. -/
def endsConditions (ts : List Tree) : Bool :=
  ts.isEmpty || startsGroup .brace ts || startsMarks ";" ts || startsMarks "=" ts ||
    startsMarks ":" ts && !startsMarks "::" ts

/-- Conditions on type parameters, if there are any. -/
def conditions (g : Grammar) : Production Unit := do
  if ← word? "where" then
    let stop := fun ts => endsConditions ts || startsMarks "," ts
    discard (many do
      if ← ahead stop then
        return none
      if ← ahead (fun ts => startsLifetime ts && startsMarks ":" (ts.drop 1)) then
        lifetime
        marks ":"
        lifetimeBounds stop
      else
        discard (g.type true)
        marks ":"
        g.boundsUpTo stop
      if ← marks? "," then
        return some ()
      return none)

end Grammar

end Source

end CodeCausality
