import CodeCausality.Graph.Dot
import CodeCausality.Proofs.Graph.Construction
import CodeCausality.Proofs.Traversal

/-!
# The text of a graph determines it

An id may hold quotes, backslashes, line breaks and text that looks like the rendering. It is read
back from the text all the same:

* `escape_eq_replaced` -- an id is escaped by three replacements, the backslash first;
* `newline_not_mem_escape`, `splitAtQuote?_escape_append` -- an escaped id holds no line break, and
  **the first quote after it that no backslash escapes is the closing one**, so what stands between
  quotes is determined (`eq_of_escape_append`);
* `newline_not_mem_plain` -- nor does a number hold a line break, so `splitOn_render`: **the lines of
  the text are the lines it was made of**;
* `append_inj_of_takeWhile` -- an empty line ends the nodes, and a layer does not begin as an edge
  does, so each group of lines is determined;
* `node_of_nodeLine`, `edge_of_edgeLine` -- and so is what a line shows;
* `render_determines` -- the conclusion.
-/

namespace CodeCausality

namespace Dot

/-! ## 1. Escaped ids -/

/-- The text with an image in place of each occurrence of a character. -/
def replaced (c : Char) (image s : List Char) : List Char :=
  s.flatMap fun d => if d = c then image else [d]

/-- What stands for a character in an escaped id. -/
def escapeChar (c : Char) : List Char :=
  if c = '\\' then ['\\', '\\'] else if c = '"' then ['\\', '"'] else if c = '\n' then ['\\', 'n']
  else [c]

theorem escape_cons (c : Char) (s : List Char) : escape (c :: s) = escapeChar c ++ escape s := by
  rw [escape, escapeChar]
  split
  · rfl
  · split
    · rfl
    · split <;> rfl

theorem escapeChar_cases (c : Char) :
    (∃ d, escapeChar c = ['\\', d] ∧ d ≠ '\n') ∨
      (escapeChar c = [c] ∧ c ≠ '\\' ∧ c ≠ '"' ∧ c ≠ '\n') := by
  unfold escapeChar
  split
  · exact .inl ⟨_, rfl, by decide⟩
  · split
    · exact .inl ⟨_, rfl, by decide⟩
    · split
      · exact .inl ⟨_, rfl, by decide⟩
      · exact .inr ⟨rfl, ‹_›, ‹_›, ‹_›⟩

/-- **An id is escaped by three replacements**: of the backslash, then the quote, then the line
break. The first leaves no character that a later one would take apart. -/
theorem escape_eq_replaced (s : List Char) :
    escape s = replaced '\n' ['\\', 'n'] (replaced '"' ['\\', '"'] (replaced '\\' ['\\', '\\'] s)) := by
  induction s with
  | nil => rfl
  | cons c s ih =>
    rw [escape_cons, ih]
    simp only [replaced, List.flatMap_cons, List.flatMap_append]
    congr 1
    rw [escapeChar]
    split
    · rfl
    · split
      · subst c
        rfl
      · split <;> simp [*]

theorem newline_not_mem_escape (s : List Char) : '\n' ∉ escape s := by
  induction s with
  | nil => exact List.not_mem_nil
  | cons c s ih =>
    rw [escape_cons, List.mem_append, not_or]
    refine ⟨?_, ih⟩
    obtain ⟨d, hd, hne⟩ | ⟨hc, -, -, hne⟩ := escapeChar_cases c
    · simp [hd, hne.symm]
    · simp [hc, hne.symm]

/-! ## 2. Closing quotes -/

/-- The text before and after the first quote that no backslash escapes. -/
def splitAtQuote? : List Char → Option (List Char × List Char)
  | [] => none
  | '"' :: rest => some ([], rest)
  | '\\' :: c :: rest => (splitAtQuote? rest).map fun (before, after) => ('\\' :: c :: before, after)
  | c :: rest => (splitAtQuote? rest).map fun (before, after) => (c :: before, after)

theorem splitAtQuote?_escapeChar (c : Char) (rest : List Char) :
    splitAtQuote? (escapeChar c ++ rest) =
      (splitAtQuote? rest).map fun (before, after) => (escapeChar c ++ before, after) := by
  obtain ⟨d, hd, -⟩ | ⟨hc, hslash, hquote, -⟩ := escapeChar_cases c
  · rw [hd]
    rfl
  · rw [hc]
    simp [splitAtQuote?, hslash]

/-- By induction on the id: the scan passes over what stands for each character. -/
theorem splitAtQuote?_escape_append (s rest : List Char) :
    splitAtQuote? (escape s ++ rest) =
      (splitAtQuote? rest).map fun (before, after) => (escape s ++ before, after) := by
  induction s with
  | nil => exact Option.map_id'.symm
  | cons c s ih =>
    rw [escape_cons, List.append_assoc, splitAtQuote?_escapeChar, ih, Option.map_map]
    refine congrArg (Option.map · _) (funext fun (before, after) => ?_)
    exact congrArg (·, after) (List.append_assoc ..).symm

/-- **The quote after an escaped id closes it.** -/
theorem splitAtQuote?_quoted (s rest : List Char) :
    splitAtQuote? (escape s ++ '"' :: rest) = some (escape s, rest) := by
  rw [splitAtQuote?_escape_append, splitAtQuote?, Option.map_some]
  exact congrArg (fun before => some (before, rest)) (List.append_nil _)

/-- No quote in an escaped id is without a backslash that escapes it. -/
theorem splitAtQuote?_escape (s : List Char) : splitAtQuote? (escape s) = none := by
  rw [← List.append_nil (escape s), splitAtQuote?_escape_append]
  rfl

/-- What stands between quotes, and what follows, are determined. -/
theorem eq_of_escape_append {s t rest rest' : List Char}
    (h : escape s ++ '"' :: rest = escape t ++ '"' :: rest') : s = t ∧ rest = rest' := by
  have hsplit := congrArg splitAtQuote? h
  rw [splitAtQuote?_quoted, splitAtQuote?_quoted] at hsplit
  obtain ⟨hescape, hrest⟩ := Prod.mk.inj (Option.some.inj hsplit)
  have hread := congrArg unescape? hescape
  rw [unescape?_escape, unescape?_escape] at hread
  exact ⟨Option.some.inj hread, hrest⟩

/-! ## 3. Numbers -/

theorem newline_not_mem_digitText (n : Nat) : '\n' ∉ (Decimal.digitText n).toList := by
  rw [Decimal.digitText, String.toList_ofList]
  intro h
  exact absurd (Nat.isDigit_of_mem_toDigits (by decide) (by decide) h) (by decide)

theorem newline_not_mem_pointed (n places : Nat) : '\n' ∉ (Decimal.pointed n places).toList := by
  have hzeros (k : Nat) : '\n' ∉ (Decimal.zeros k).toList := by
    rw [Decimal.zeros, String.toList_ofList]
    exact fun h => absurd (List.eq_of_mem_replicate h) (by decide)
  rw [Decimal.pointed]
  split
  · exact newline_not_mem_digitText n
  · simp [Decimal.padded, newline_not_mem_digitText, hzeros]

/-- The plain text of a number stands on one line. -/
theorem newline_not_mem_plain (x : Float) : '\n' ∉ (Decimal.plain x).toList := by
  have hsign (s : Bool) : '\n' ∉ (Decimal.signText s).toList := by cases s <;> decide
  have hmagnitude (m : Nat) (e : Int) :
      '\n' ∉ (Decimal.plainStyle.magnitude m e).toList := by
    rw [Decimal.Style.magnitude]
    split
    · decide
    · rw [Decimal.Style.layout, if_pos (show Decimal.plainStyle.positional _ = true from rfl),
        Decimal.Style.positionalText]
      split
      · simp [Decimal.plainStyle, newline_not_mem_digitText]
      · exact newline_not_mem_pointed _ _
  rw [Decimal.plain]
  split
  · decide
  · simp [hsign]
  · simp [hsign, hmagnitude]

/-! ## 4. Lines -/

theorem toList_quotedId (id : String) :
    (quotedId id).toList = '"' :: (escape id.toList ++ ['"']) := by
  simp [quotedId]

/-- What a node's line shows after its label. -/
def nodeTail (k : ElementKind) : String :=
  ", shape=" ++ (nodeStyle k).shape ++ ", style=\"" ++ (nodeStyle k).style ++ "\", fillcolor=\"" ++
    (nodeStyle k).color ++ "\"];"

theorem toList_nodeLine (n : Element) : (nodeLine n).toList =
    "    ".toList ++ '"' :: (escape n.id.toList ++ '"' :: (" [label=".toList ++
      '"' :: (escape n.id.toList ++ '"' :: (nodeTail n.kind).toList))) := by
  have hline : nodeLine n =
      "    " ++ quotedId n.id ++ " [label=" ++ quotedId n.id ++ nodeTail n.kind := by
    simp only [nodeTail, ← String.append_assoc]
    rfl
  simp only [hline, String.toList_append, toList_quotedId, List.append_assoc, List.cons_append,
    List.nil_append]

/-- What an edge's line shows after its label. -/
def edgeTail (k : EdgeKind) : String :=
  "\", style=" ++ (edgeStyle k).style ++ ", color=\"" ++ (edgeStyle k).color ++ "\"];"

/-- The weight of an edge as its label shows it. -/
def weightText : Option Float → String
  | some w => " (" ++ Decimal.plain w ++ ")"
  | none => ""

theorem edgeLabel_eq (e : Edge Float) : edgeLabel e = e.kind.name ++ weightText e.weight := by
  rw [edgeLabel]
  cases e.weight with
  | none => exact (String.append_empty ..).symm
  | some w => simp only [weightText, String.append_assoc]

theorem toList_edgeLine (e : Edge Float) : (edgeLine e).toList =
    "    ".toList ++ '"' :: (escape e.source.toList ++ '"' :: (" -> ".toList ++
      '"' :: (escape e.target.toList ++ '"' :: (" [label=\"".toList ++
        (e.kind.name.toList ++ ((weightText e.weight).toList ++ (edgeTail e.kind).toList)))))) := by
  have hline : edgeLine e = "    " ++ quotedId e.source ++ " -> " ++ quotedId e.target ++
      " [label=\"" ++ edgeLabel e ++ edgeTail e.kind := by
    simp only [edgeTail, ← String.append_assoc]
    rfl
  simp only [hline, edgeLabel_eq, String.toList_append, toList_quotedId, List.append_assoc,
    List.cons_append, List.nil_append]

/-- **A node's line shows its id and its kind.** -/
theorem node_of_nodeLine {n m : Element} (h : (nodeLine n).toList = (nodeLine m).toList) :
    n.id = m.id ∧ n.kind = m.kind := by
  rw [toList_nodeLine, toList_nodeLine, List.append_cancel_left_eq, List.cons.injEq] at h
  obtain ⟨hid, hrest⟩ := eq_of_escape_append h.2
  rw [List.append_cancel_left_eq, List.cons.injEq] at hrest
  have htail := (eq_of_escape_append hrest.2).2
  refine ⟨String.toList_injective hid, ?_⟩
  revert htail
  cases n.kind <;> cases m.kind <;> decide

/-- The name of a kind is not the beginning of another's. -/
theorem kind_of_name_append {k l : EdgeKind} {rest rest' : List Char}
    (h : k.name.toList ++ rest = l.name.toList ++ rest') : k = l := by
  cases k <;> cases l <;> first | rfl | simp [EdgeKind.name] at h

theorem weight_of_weightText {v w : Option Float} (h : weightText v = weightText w) :
    v.map Decimal.plain = w.map Decimal.plain := by
  cases v <;> cases w <;> simp_all [weightText]

/-- **An edge's line shows its ends, its kind and the text of its weight.** -/
theorem edge_of_edgeLine {d e : Edge Float} (h : (edgeLine d).toList = (edgeLine e).toList) :
    d.source = e.source ∧ d.target = e.target ∧ d.kind = e.kind ∧
      d.weight.map Decimal.plain = e.weight.map Decimal.plain := by
  rw [toList_edgeLine, toList_edgeLine, List.append_cancel_left_eq, List.cons.injEq] at h
  obtain ⟨hsource, hrest⟩ := eq_of_escape_append h.2
  rw [List.append_cancel_left_eq, List.cons.injEq] at hrest
  obtain ⟨htarget, hlabel⟩ := eq_of_escape_append hrest.2
  rw [List.append_cancel_left_eq] at hlabel
  have hkind := kind_of_name_append hlabel
  rw [hkind, List.append_cancel_left_eq, List.append_cancel_right_eq] at hlabel
  exact ⟨String.toList_injective hsource, String.toList_injective htarget, hkind,
    weight_of_weightText (String.toList_injective hlabel)⟩

/-! ## 5. Groups of lines -/

/-- A line that shows an edge begins with a quote after four blanks. -/
def beginsWithQuote (line : List Char) : Bool := line.take 5 == [' ', ' ', ' ', ' ', '"']

theorem beginsWithQuote_edgeLine (e : Edge Float) :
    beginsWithQuote (edgeLine e).toList = true := by
  rw [toList_edgeLine]
  rfl

theorem not_beginsWithQuote_layerLine (ids : List String) :
    beginsWithQuote (layerLine ids).toList = false := by
  unfold layerLine
  generalize "; ".intercalate (ids.map quotedId) = text
  simp [beginsWithQuote]

theorem nodeLine_ne_nil (n : Element) : (nodeLine n).toList ≠ [] := by
  rw [toList_nodeLine]
  exact List.cons_ne_nil _ _

/-- Lists that begin with all that has a property, and go on without it, are equal part by part. -/
theorem append_inj_of_takeWhile {β : Type} {p : β → Bool} {xs ys xs' ys' : List β}
    (hx : ∀ x ∈ xs, p x = true) (hy : ∀ y ∈ ys, p y = true) (hx' : xs'.takeWhile p = [])
    (hy' : ys'.takeWhile p = []) (h : xs ++ xs' = ys ++ ys') : xs = ys ∧ xs' = ys' := by
  have htake := congrArg (List.takeWhile p) h
  rw [List.takeWhile_append_of_pos hx, List.takeWhile_append_of_pos hy, hx', hy', List.append_nil,
    List.append_nil] at htake
  rw [htake] at h
  exact ⟨htake, List.append_cancel_left h⟩

theorem not_mem_intercalate {β : Type} {x : β} {sep : List β} {ls : List (List β)} (hsep : x ∉ sep)
    (h : ∀ l ∈ ls, x ∉ l) : x ∉ sep.intercalate ls := by
  induction ls with
  | nil => exact List.not_mem_nil
  | cons l ls ih =>
    obtain ⟨hl, hls⟩ := List.forall_mem_cons.mp h
    cases ls with
    | nil => simpa using hl
    | cons m ms =>
      rw [List.intercalate_cons_cons, List.mem_append, List.mem_append, not_or, not_or]
      exact ⟨⟨hl, hsep⟩, ih hls⟩

section Lines

variable (g : CausalGraph Float)

/-- The lines after the empty one, up to the end. -/
def layerLines : List (List Char) := ((layers g).map layerLine ++ ["\x7d"]).map String.toList

/-- The lines of the text. -/
def textLines : List (List Char) :=
  header.map String.toList ++ (g.nodes.map (fun n => (nodeLine n).toList) ++ [] ::
    (g.edges.map (fun e => (edgeLine e).toList) ++ layerLines g))

theorem toList_render : (render g).toList = ['\n'].intercalate (textLines g) := by
  simp [render, textLines, layerLines, String.toList_intercalate, Function.comp_def]

theorem newline_not_mem_nodeLine (n : Element) : '\n' ∉ (nodeLine n).toList := by
  have htail : '\n' ∉ (nodeTail n.kind).toList := by cases n.kind <;> decide
  rw [toList_nodeLine]
  simp [newline_not_mem_escape, htail]

theorem newline_not_mem_edgeLine (e : Edge Float) : '\n' ∉ (edgeLine e).toList := by
  have hname : '\n' ∉ e.kind.name.toList := by cases e.kind <;> decide
  have htail : '\n' ∉ (edgeTail e.kind).toList := by cases e.kind <;> decide
  have hweight : '\n' ∉ (weightText e.weight).toList := by
    cases e.weight <;> simp [weightText, newline_not_mem_plain]
  rw [toList_edgeLine]
  simp [newline_not_mem_escape, hname, htail, hweight]

theorem newline_not_mem_layerLine (ids : List String) : '\n' ∉ (layerLine ids).toList := by
  have hids : '\n' ∉ ("; ".intercalate (ids.map quotedId)).toList := by
    rw [String.toList_intercalate, List.map_map]
    refine not_mem_intercalate (by decide) fun line hline => ?_
    obtain ⟨id, -, rfl⟩ := List.mem_map.mp hline
    rw [Function.comp_apply, toList_quotedId]
    simp [newline_not_mem_escape]
  unfold layerLine
  generalize "; ".intercalate (ids.map quotedId) = text at hids
  simp [hids]

theorem newline_not_mem_textLines : ∀ line ∈ textLines g, '\n' ∉ line := by
  have hheader : ∀ line ∈ header, '\n' ∉ line.toList := by decide
  have hlayers : ∀ line ∈ layerLines g, '\n' ∉ line := by
    simp only [layerLines, List.forall_mem_map, List.forall_mem_append, List.forall_mem_singleton]
    exact ⟨fun ids _ => newline_not_mem_layerLine ids, by decide⟩
  have hnodes : ∀ n ∈ g.nodes, '\n' ∉ (nodeLine n).toList := fun n _ => newline_not_mem_nodeLine n
  have hedges : ∀ e ∈ g.edges, '\n' ∉ (edgeLine e).toList := fun e _ => newline_not_mem_edgeLine e
  simp only [textLines, List.forall_mem_append, List.forall_mem_cons, List.forall_mem_map]
  exact ⟨hheader, hnodes, List.not_mem_nil, hedges, hlayers⟩

/-- **The lines of the text are those it was made of.** -/
theorem splitOn_render : (render g).toList.splitOn '\n' = textLines g := by
  rw [toList_render]
  exact List.splitOn_intercalate '\n' (newline_not_mem_textLines g) (by simp [textLines, header])

end Lines

theorem takeWhile_layerLines (g : CausalGraph Float) :
    (layerLines g).takeWhile beginsWithQuote = [] := by
  rw [layerLines]
  cases layers g with
  | nil => rfl
  | cons ids rest =>
    rw [List.map_cons, List.cons_append, List.map_cons, List.takeWhile_cons_of_neg]
    rw [not_beginsWithQuote_layerLine]
    exact Bool.false_ne_true

/-- **The lines of the nodes and those of the edges are determined by all lines.** -/
theorem lines_of_textLines {g h : CausalGraph Float} (heq : textLines g = textLines h) :
    g.nodes.map (fun n => (nodeLine n).toList) = h.nodes.map (fun n => (nodeLine n).toList) ∧
      g.edges.map (fun e => (edgeLine e).toList) = h.edges.map (fun e => (edgeLine e).toList) := by
  have hnode (k : CausalGraph Float) :
      ∀ line ∈ k.nodes.map (fun n => (nodeLine n).toList), (!line.isEmpty) = true := by
    rw [List.forall_mem_map]
    intro n _
    rw [Bool.not_eq_true', ← Bool.not_eq_true, List.isEmpty_iff]
    exact nodeLine_ne_nil n
  have hedge (k : CausalGraph Float) :
      ∀ line ∈ k.edges.map (fun e => (edgeLine e).toList), beginsWithQuote line = true := by
    simp [beginsWithQuote_edgeLine]
  obtain ⟨hnodes, hrest⟩ :=
    append_inj_of_takeWhile (hnode g) (hnode h) rfl rfl (List.append_cancel_left heq)
  obtain ⟨hedges, -⟩ := append_inj_of_takeWhile (hedge g) (hedge h) (takeWhile_layerLines g)
    (takeWhile_layerLines h) (List.cons.inj hrest).2
  exact ⟨hnodes, hedges⟩

/-! ## 6. Equal texts -/

/-- **Graphs of the same text have the same nodes and edges.** They have the same ids and kinds of
nodes in the same order, and the same list of edges, each with its source, its target, its kind and
the text of its weight. Any id is escaped by three replacements, the backslash first; what comes out
has no line break and no quote that a backslash does not escape, the quote after it closes it, and it
is read back as the id. -/
theorem render_determines {g h : CausalGraph Float} (heq : render g = render h) :
    (g.nodes.map fun n => (n.id, n.kind)) = (h.nodes.map fun n => (n.id, n.kind)) ∧
      (g.edges.map fun e => (e.source, e.target, e.kind, e.weight.map Decimal.plain)) =
        (h.edges.map fun e => (e.source, e.target, e.kind, e.weight.map Decimal.plain)) ∧
      ∀ id : List Char,
        escape id =
          replaced '\n' ['\\', 'n'] (replaced '"' ['\\', '"'] (replaced '\\' ['\\', '\\'] id)) ∧
        '\n' ∉ escape id ∧ splitAtQuote? (escape id) = none ∧
        (∀ rest, splitAtQuote? (escape id ++ '"' :: rest) = some (escape id, rest)) ∧
        unescape? (escape id) = some id := by
  have hlines : textLines g = textLines h := by
    rw [← splitOn_render, ← splitOn_render, heq]
  obtain ⟨hnodes, hedges⟩ := lines_of_textLines hlines
  refine ⟨?_, ?_, fun id => ⟨escape_eq_replaced id, newline_not_mem_escape id,
    splitAtQuote?_escape id, splitAtQuote?_quoted id, unescape?_escape id⟩⟩
  · refine map_eq_map_of_forall₂ (forall₂_of_map_eq_map hnodes fun n _ m _ hline => ?_)
    obtain ⟨hid, hkind⟩ := node_of_nodeLine hline
    rw [hid, hkind]
  · refine map_eq_map_of_forall₂ (forall₂_of_map_eq_map hedges fun d _ e _ hline => ?_)
    obtain ⟨hsource, htarget, hkind, hweight⟩ := edge_of_edgeLine hline
    rw [hsource, htarget, hkind, hweight]

/-- A node whose id looks like the end of its line and another one. -/
def forging (attributes : List (String × String)) : CausalGraph Float :=
  .of [.of "a\"];\n    \"b" .effect attributes, .of "\\" .function []] []

/-- Two graphs that differ in what the text leaves out have the same text, and the same nodes. -/
theorem render_determines_forging :
    render (forging []) = render (forging [("file", "m.rs")]) ∧
      ((forging []).nodes.map fun n => (n.id, n.kind)) =
        ((forging [("file", "m.rs")]).nodes.map fun n => (n.id, n.kind)) := by
  have heq : render (forging []) = render (forging [("file", "m.rs")]) := by decide +kernel
  exact ⟨heq, (render_determines heq).1⟩

end Dot

end CodeCausality
