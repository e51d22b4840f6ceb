import Mathlib.Data.List.Induction
import CodeCausality.Graph.Basic
import CodeCausality.Proofs.Sorted

/-!
# The index of a graph

What is filled node by node and edge by edge, said by the nodes and the edges:

* `mem_positions`, `get?_positions_iff` -- the ids of the nodes have positions; where no id stands
  twice, a node is found at its position and at no other;
* `sourcesAt_ofParts`, `targetsAt_ofParts` -- **at a node stand the ends of the edges at it**, those
  of the last edge first.
-/

namespace CodeCausality

namespace GraphIndex

variable {α : Type} {nodes : List Element}

/-! ## 1. Positions -/

theorem ofParts_concat (nodes : List Element) (edges : List (Edge α)) (e : Edge α) :
    ofParts nodes (edges ++ [e]) = (ofParts nodes edges).connect e := by
  rw [ofParts, List.foldl_append]
  rfl

/-- Edges leave the positions as they are. -/
theorem positions_ofParts (nodes : List Element) (edges : List (Edge α)) :
    (ofParts nodes edges).positions = (ofNodes nodes).positions := by
  induction edges using List.reverseRecOn with
  | nil => rfl
  | append_singleton edges e ih =>
    rw [ofParts_concat]
    exact ih

/-- The ids at the positions are those of the nodes, one after another. -/
theorem map_fst_zipIdx (nodes : List Element) :
    (nodes.zipIdx.map fun (n, i) => (n.id, i)).map (·.1) = nodes.map (·.id) := by
  rw [List.map_map]
  have hfst : (nodes.zipIdx.map Prod.fst).map (·.id) = nodes.map (·.id) := by
    rw [List.zipIdx_map_fst]
  rw [← hfst, List.map_map]
  rfl

theorem mem_positions {edges : List (Edge α)} {id : String} :
    (ofParts nodes edges).positions.contains id = true ↔ id ∈ nodes.map (·.id) := by
  rw [positions_ofParts, Dictionary.contains_iff, ofNodes, Dictionary.mem_keys_ofList,
    map_fst_zipIdx]

/-- **Where no id stands twice, the position of an id is that of its node.** -/
theorem get?_positions_iff (h : (nodes.map (·.id)).Nodup) {edges : List (Edge α)} {id : String}
    {i : Nat} :
    (ofParts nodes edges).positions.get? id = some i ↔ ∃ n, nodes[i]? = some n ∧ n.id = id := by
  rw [positions_ofParts]
  constructor
  · intro hi
    obtain ⟨⟨n, j⟩, hmem, heq⟩ := List.mem_map.mp (Dictionary.mem_of_get?_ofList hi)
    obtain ⟨rfl, rfl⟩ := Prod.mk.inj heq
    exact ⟨n, List.mem_zipIdx_iff_getElem?.mp hmem, rfl⟩
  · rintro ⟨n, hn, rfl⟩
    refine Dictionary.get?_ofList_of_nodup ?_
      (List.mem_map.mpr ⟨(n, i), List.mem_zipIdx_iff_getElem?.mpr hn, rfl⟩)
    rw [map_fst_zipIdx]
    exact h

/-! ## 2. Edges -/

/-- What stands at an id after one more was put before what stands at a key. -/
theorem getD_insert_cons (d : Dictionary (List String)) (key value id : String) :
    ((d.insert key (value :: (d.get? key).getD [])).get? id).getD [] =
      if key = id then value :: (d.get? id).getD [] else (d.get? id).getD [] := by
  rw [Dictionary.get?_insert]
  split
  · rename_i h
    rw [← h]
    rfl
  · rfl

theorem sourcesAt_connect (x : GraphIndex) (e : Edge α) (id : String) :
    (x.connect e).sourcesAt id =
      if e.target = id then e.source :: x.sourcesAt id else x.sourcesAt id :=
  getD_insert_cons x.sources e.target e.source id

theorem targetsAt_connect (x : GraphIndex) (e : Edge α) (id : String) :
    (x.connect e).targetsAt id =
      if e.source = id then e.target :: x.targetsAt id else x.targetsAt id :=
  getD_insert_cons x.targets e.source e.target id

/-- One end of the edges whose other end is an id, the last edge first, once there is one more. -/
theorem ends_concat (near far : Edge α → String) (edges : List (Edge α)) (e : Edge α)
    (id : String) :
    (((edges ++ [e]).filter fun d => near d == id).map far).reverse =
      if near e = id then far e :: ((edges.filter fun d => near d == id).map far).reverse
      else ((edges.filter fun d => near d == id).map far).reverse := by
  rw [List.filter_append, List.map_append, List.reverse_append]
  by_cases h : near e = id
  · simp [h]
  · simp [h]

/-- **At a node stand the sources of the edges to it**, that of the last edge first. -/
theorem sourcesAt_ofParts (nodes : List Element) (edges : List (Edge α)) (id : String) :
    (ofParts nodes edges).sourcesAt id =
      ((edges.filter fun e => e.target == id).map (·.source)).reverse := by
  induction edges using List.reverseRecOn with
  | nil => rfl
  | append_singleton edges e ih => rw [ofParts_concat, sourcesAt_connect, ih, ends_concat (·.target)]

/-- **At a node stand the targets of the edges from it**, that of the last edge first. -/
theorem targetsAt_ofParts (nodes : List Element) (edges : List (Edge α)) (id : String) :
    (ofParts nodes edges).targetsAt id =
      ((edges.filter fun e => e.source == id).map (·.target)).reverse := by
  induction edges using List.reverseRecOn with
  | nil => rfl
  | append_singleton edges e ih => rw [ofParts_concat, targetsAt_connect, ih, ends_concat (·.source)]

theorem mem_sourcesAt {edges : List (Edge α)} {u v : String} :
    u ∈ (ofParts nodes edges).sourcesAt v ↔ ∃ e ∈ edges, e.source = u ∧ e.target = v := by
  simp only [sourcesAt_ofParts, List.mem_reverse, List.mem_map, List.mem_filter, beq_iff_eq]
  exact exists_congr fun e => and_right_comm.trans and_assoc

theorem mem_targetsAt {edges : List (Edge α)} {u v : String} :
    v ∈ (ofParts nodes edges).targetsAt u ↔ ∃ e ∈ edges, e.source = u ∧ e.target = v := by
  simp only [targetsAt_ofParts, List.mem_reverse, List.mem_map, List.mem_filter, beq_iff_eq]
  exact exists_congr fun e => and_assoc

end GraphIndex

end CodeCausality
