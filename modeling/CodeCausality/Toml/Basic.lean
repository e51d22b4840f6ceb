import CodeCausality.Decimal.Reader

/-!
# TOML tables

A document is a table of tables. How a table came about decides what may still be added to it:

* a header `[a.b]` defines `a.b` once and passes through `a`, which may be defined later;
* a dotted key `a.b = 1` creates `a`, to which only further dotted keys add entries;
* an inline table and a list of values are complete where they stand;
* each header `[[a]]` adds a table to the list `a`, and the headers after it add to that one.

`Table.assign`, `Table.openTable` and `Table.openElement` are these rules.
-/

namespace CodeCausality

namespace Toml

/-! ## 1. Values -/

/-- How a table came about. -/
inductive Origin where
  /-- On the way to another table of a header. -/
  | passed
  /-- By a dotted key. -/
  | dotted
  /-- By a header of its own; also the document itself. -/
  | header
  deriving Repr, DecidableEq

inductive Value where
  | text (s : String)
  | integer (n : Int)
  | float (x : Float)
  | boolean (b : Bool)
  | moment
  | list (xs : List Value)
  | inlineTable (entries : List (String × Value))
  | table (origin : Origin) (entries : List (String × Value))
  /-- The tables of headers in double brackets, the latest first. -/
  | tables (elements : List (List (String × Value)))

abbrev Entries := List (String × Value)

/-- Replaces the value of a key that is there. -/
def replace (k : String) (v : Value) (es : Entries) : Entries :=
  es.map fun e => if e.1 == k then (k, v) else e

/-! ## 2. Dotted keys -/

/-- Adds a value under a dotted key. None if the key or a table on the way is already defined in
another manner; the table that takes the value must itself come from dotted keys. -/
def assign (v : Value) : List String → Entries → Option Entries
  | [], _ => none
  | [k], es => if (es.lookup k).isSome then none else some (es ++ [(k, v)])
  | k :: next :: rest, es =>
    match es.lookup k with
    | none => (assign v (next :: rest) []).map fun sub => es ++ [(k, .table .dotted sub)]
    | some (.table .dotted sub) =>
      (assign v (next :: rest) sub).map fun sub => replace k (.table .dotted sub) es
    | some (.table .passed sub) =>
      if rest.isEmpty then none
      else (assign v (next :: rest) sub).map fun sub => replace k (.table .passed sub) es
    | some (.tables (latest :: earlier)) =>
      if rest.isEmpty then none
      else (assign v (next :: rest) latest).map fun sub => replace k (.tables (sub :: earlier)) es
    | _ => none

/-! ## 3. Headers -/

/-- Changes the entries of the table at a path, creating the tables passed on the way. In a list of
tables the way leads through the latest one. -/
def descend (change : Entries → Option Entries) : List String → Entries → Option Entries
  | [], es => change es
  | k :: rest, es =>
    match es.lookup k with
    | none => (descend change rest []).map fun sub => es ++ [(k, .table .passed sub)]
    | some (.table origin sub) =>
      (descend change rest sub).map fun sub => replace k (.table origin sub) es
    | some (.tables (latest :: earlier)) =>
      (descend change rest latest).map fun sub => replace k (.tables (sub :: earlier)) es
    | _ => none

/-- Defines the table of a single-bracket header. -/
def openTable (path : List String) (es : Entries) : Option Entries :=
  match path.getLast? with
  | none => none
  | some k =>
    descend (fun es =>
      match es.lookup k with
      | none => some (es ++ [(k, .table .header [])])
      | some (.table .passed sub) => some (replace k (.table .header sub) es)
      | _ => none) path.dropLast es

/-- Adds an element for a double-bracket header. -/
def openElement (path : List String) (es : Entries) : Option Entries :=
  match path.getLast? with
  | none => none
  | some k =>
    descend (fun es =>
      match es.lookup k with
      | none => some (es ++ [(k, .tables [[]])])
      | some (.tables elements) => some (replace k (.tables ([] :: elements)) es)
      | _ => none) path.dropLast es

/-- Adds a value under a dotted key to the table that the last header opened. -/
def assignAt (header key : List String) (v : Value) (es : Entries) : Option Entries :=
  descend (assign v key) header es

end Toml

end CodeCausality
