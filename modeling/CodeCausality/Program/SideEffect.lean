import CodeCausality.Program.Element
import CodeCausality.Text.Case

/-!
# Pure side effects

Logging and printing have no effect that the rest of a program could observe. An element is such a
pure side effect if its attributes say so, or if it is an effect or a function whose short name is
one of a list of patterns, or starts with one of them and an underscore.

The short name of `crate::worker::println!@12` is `println`: the part after the last `::` and the
last point, before the first `@`, without exclamation marks at its end, in lower case.
-/

namespace CodeCausality

namespace SideEffect

/-- The attribute by which an element is declared a pure side effect. -/
def markAttribute : String := "pure_side_effect"

def defaultPatterns : List String :=
  ["log", "logger", "logging", "print", "println", "eprint", "eprintln", "dbg", "trace", "debug",
    "info", "warn", "metrics"]

/-! ## 1. Short names -/

/-- The characters before the first `::`. -/
def beforePathMark : List Char → List Char
  | ':' :: ':' :: _ => []
  | c :: rest => c :: beforePathMark rest
  | [] => []

/-- What follows the last `::`. -/
def lastSegment (s : List Char) : List Char := (beforePathMark s.reverse).reverse

/-- What follows the last `c`. -/
def afterLast (c : Char) (s : List Char) : List Char := (s.reverse.takeWhile (· != c)).reverse

def shortName (id : String) : List Char :=
  let name := (afterLast '.' (lastSegment id.toList)).takeWhile (· != '@')
  Text.lower ((name.reverse.dropWhile (· == '!')).reverse)

/-! ## 2. The classification -/

/-- The name is the pattern, or goes on after it with an underscore. -/
def matchesPattern (name pattern : List Char) : Bool :=
  name == pattern || (pattern ++ ['_']).isPrefixOf name

def isPure (patterns : List String) (e : Element) : Bool :=
  e.attributes.get? markAttribute == some "true" ||
    ((e.kind == .effect || e.kind == .function) &&
      patterns.any fun p => matchesPattern (shortName e.id) (Text.lower p.toList))

end SideEffect

end CodeCausality
