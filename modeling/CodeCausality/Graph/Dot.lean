import CodeCausality.Graph.Order

/-!
# Graphs as Graphviz text

One line a node, one line an edge, and one line for each layer of nodes at the same depth below the
roots. Ids stand between quotes; the quote, the backslash and the line break in them are escaped
(`escape`), and `unescape?` gives the id back.
-/

namespace CodeCausality

namespace Dot

/-! ## 1. Escaped ids -/

def escape : List Char → List Char
  | [] => []
  | c :: rest =>
    if c = '\\' then '\\' :: '\\' :: escape rest
    else if c = '"' then '\\' :: '"' :: escape rest
    else if c = '\n' then '\\' :: 'n' :: escape rest
    else c :: escape rest

/-- The id that an escaped text stands for. -/
def unescape? : List Char → Option (List Char)
  | [] => some []
  | '\\' :: c :: rest =>
    if c = '\\' then (unescape? rest).map ('\\' :: ·)
    else if c = '"' then (unescape? rest).map ('"' :: ·)
    else if c = 'n' then (unescape? rest).map ('\n' :: ·)
    else none
  | c :: rest =>
    if c = '\\' ∨ c = '"' ∨ c = '\n' then none else (unescape? rest).map (c :: ·)

theorem unescape?_escape (s : List Char) : unescape? (escape s) = some s := by
  induction s with
  | nil => rfl
  | cons c rest ih =>
    unfold escape
    split
    · simp [unescape?, *]
    · split
      · simp [unescape?, *]
      · split
        · simp [unescape?, *]
        · simp [unescape?, *]

/-- An id between quotes. -/
def quotedId (id : String) : String := "\"" ++ String.ofList (escape id.toList) ++ "\""

/-! ## 2. Layers -/

/-- Edges on a longest path from a root to `id`, given the depths of its causes. -/
def depthOf (depths : List (String × Nat)) (parents : List String) : Nat :=
  (parents.filterMap fun p => depths.lookup p).foldl (fun d p => max d (p + 1)) 0

/-- The depth of each node of the order, latest first. -/
def depths {α : Type} (g : CausalGraph α) (order : List String) : List (String × Nat) :=
  order.foldl (fun known id => (id, depthOf known (g.parents id)) :: known) []

/-- The nodes by depth, each layer in topological order. -/
def layers {α : Type} (g : CausalGraph α) : List (List String) :=
  let placed := (depths g g.topologicalOrder).reverse
  let height := placed.foldl (fun h p => max h (p.2 + 1)) 0
  (List.range height).map fun d => (placed.filter fun p => p.2 == d).map (·.1)

/-! ## 3. Styles -/

structure NodeStyle where
  shape : String
  color : String
  style : String

def nodeStyle : ElementKind → NodeStyle
  | .function => ⟨"box", "#89b4fa", "filled,rounded"⟩
  | .namedValue => ⟨"ellipse", "#a6e3a1", "filled"⟩
  | .returnSite => ⟨"box", "#f38ba8", "filled"⟩
  | .effect => ⟨"hexagon", "#f9e2af", "filled"⟩

structure EdgeStyle where
  style : String
  color : String

def edgeStyle : EdgeKind → EdgeStyle
  | .dataFlow => ⟨"solid", "#1e66f5"⟩
  | .controlFlow => ⟨"dashed", "#df8e1d"⟩
  | .call => ⟨"bold", "#5c5f77"⟩

/-! ## 4. The text -/

def nodeLine (n : Element) : String :=
  let s := nodeStyle n.kind
  s!"    {quotedId n.id} [label={quotedId n.id}, shape={s.shape}, style=\"" ++ s.style ++
    "\", fillcolor=\"" ++ s.color ++ "\"];"

/-- The kind of an edge, and its weight where it has one. -/
def edgeLabel (e : Edge Float) : String :=
  match e.weight with
  | some w => e.kind.name ++ " (" ++ Decimal.plain w ++ ")"
  | none => e.kind.name

def edgeLine (e : Edge Float) : String :=
  let s := edgeStyle e.kind
  s!"    {quotedId e.source} -> {quotedId e.target} [label=\"" ++ edgeLabel e ++ "\", style=" ++
    s.style ++ ", color=\"" ++ s.color ++ "\"];"

def layerLine (ids : List String) : String :=
  "    \x7b rank=same; " ++ "; ".intercalate (ids.map quotedId) ++ " \x7d"

def header : List String :=
  ["digraph CausalGraph \x7b", "    rankdir=TB;", "    nodesep=0.6;",
    "    node [fontname=\"Helvetica\", fontsize=12];",
    "    edge [fontname=\"Helvetica\", fontsize=10];", ""]

def render (g : CausalGraph Float) : String :=
  "\n".intercalate (header ++ g.nodes.map nodeLine ++ [""] ++ g.edges.map edgeLine
    ++ (layers g).map layerLine ++ ["\x7d"])

end Dot

end CodeCausality
