import CodeCausality.Source.Grammar.Item

/-!
# Source files

The grammar that contains itself to a given depth, and the items of a source text. Between two
steps into what is nested, a tree is taken every few steps, so that the number of tokens bounds
the depth that a text needs.
-/

namespace CodeCausality

namespace Source

open Production

/-- The grammar for texts in which nothing is nested deeper than the number says. -/
def Grammar.ofDepth : Nat → Grammar
  | 0 => .empty
  | n + 1 => {
    expr := fun braces level ts => (ofDepth n).exprOf braces level ts
    operand := fun braces level ts => (ofDepth n).operandOf braces level ts
    unary := fun braces ts => (Reading.expr <$> (ofDepth n).unaryOf braces) ts
    leading := fun ts => (ofDepth n).leadingOf ts
    type := fun plus ts => (ofDepth n).typeOf plus ts
    bound := fun ts => (ofDepth n).boundOf ts
    pattern := fun ts => (ofDepth n).patternOf ts
    statements := fun ts => (ofDepth n).statementsOf ts
    item := fun ts => (ofDepth n).itemOf ts }

/-- A depth at which all of the trees can be read. -/
def sufficientDepth (ts : List Tree) : Nat := 8 * Tree.count ts + 16

/-- The items of a source text, if it can be read. -/
def itemsOf? (text : String) : Option (List Item) := do
  let ts ← treesOf? text
  let g := Grammar.ofDepth (sufficientDepth ts)
  whole (do let _ ← g.innerAttributes; manyToEnd g.item) ts

end Source

end CodeCausality
