import Mathlib.Data.List.Basic
import CodeCausality.Proofs.Graph.Order
import CodeCausality.Proofs.Model.Grounded
import CodeCausality.Simulation.Impact

/-!
# Plans and draws

* `Planned` -- the steps that the nodes of the order stand for;
* `exists_planned` -- **a grounded model in which no mechanism is missing has a plan, whatever is
  clamped**, and `Planned.parent_lt` -- each step reads values drawn before it;
* `drawOnce_eq_drawFrom` -- what a draw finds in its buffer of features never matters: it is a
  recursion over the steps that carries the values only;
* `getElem?_drawOnce` -- the value at a position is the step's, given those before it;
* `getElem?_columns` -- the column of a position has one value for each draw.
-/

namespace CodeCausality

namespace Simulation

/-! ## 1. Plans -/

section Plan

variable {α : Type} [Scalar α] {m : Model α} {clamps : List (String × α)} {steps : List (Step α)}

/-- The step of a node: its mechanism, where its parents stand and in which domain their values
are, and what it is clamped to. -/
def nodeStep (m : Model α) (clamps : List (String × α)) (id : String) (n : NodeMechanism α) :
    Step α where
  mechanism := n.mechanism
  parents := n.parents.map fun p => (m.graph.topologicalOrder.idxOf p, domainOf m p)
  clamp := clamps.lookup id

/-- One step for each node of the order. -/
structure Planned (m : Model α) (clamps : List (String × α)) (steps : List (Step α)) : Prop where
  length : steps.length = m.graph.topologicalOrder.length
  step : ∀ (i : Nat) (id : String), m.graph.topologicalOrder[i]? = some id →
    ∃ n : NodeMechanism α, m.mechanism? id = some n ∧
      steps[i]? = some (nodeStep m clamps id n)

omit [Scalar α] in
theorem domainOf_eq {id : String} {n : NodeMechanism α} (h : m.mechanism? id = some n) :
    domainOf m id = n.domain := by
  rw [domainOf, h]

theorem idxOf_of_getElem? (hm : m.Grounded) {i : Nat} {id : String}
    (hi : m.graph.topologicalOrder[i]? = some id) : m.graph.topologicalOrder.idxOf id = i := by
  obtain ⟨hlt, rfl⟩ := List.getElem?_eq_some_iff.mp hi
  exact hm.graph.order_nodup.idxOf_getElem i hlt

theorem getElem?_idxOf (hm : m.Grounded) {id : String} (hid : id ∈ m.graph.ids) :
    m.graph.topologicalOrder[m.graph.topologicalOrder.idxOf id]? = some id :=
  List.getElem?_idxOf (hm.graph.mem_order.mpr hid)

/-- A parent stands before its node and has a domain, so it can be planned. -/
theorem planParent_eq (hm : m.Grounded) (hc : m.missingMechanisms = []) {i : Nat} {p id : String}
    (hi : m.graph.topologicalOrder[i]? = some id) (hp : m.graph.HasEdge p id) :
    planParent m m.graph.topologicalOrder i id p =
      .ok (m.graph.topologicalOrder.idxOf p, domainOf m p) := by
  have hmem : p ∈ m.graph.ids := hp.source_mem hm.graph.known
  have hlt : m.graph.topologicalOrder.idxOf p < i := by
    rw [← idxOf_of_getElem? hm hi]
    exact hm.graph.idxOf_lt_of_reaches hp.reaches
  obtain ⟨n, hn⟩ := Model.exists_mechanism hc hmem
  have hidx : m.graph.topologicalOrder.idxOf? p = some (m.graph.topologicalOrder.idxOf p) := by
    obtain ⟨j, hj⟩ := Option.isSome_iff_exists.mp
      (List.isSome_idxOf?.mpr (hm.graph.mem_order.mpr hmem))
    rw [List.idxOf_eq_getD_idxOf?, hj, Option.getD_some]
  rw [planParent, hidx, hn, domainOf_eq hn]
  exact if_pos hlt

theorem planStep_eq (hm : m.Grounded) (hc : m.missingMechanisms = []) {i : Nat} {id : String}
    {n : NodeMechanism α} (hi : m.graph.topologicalOrder[i]? = some id)
    (hn : m.mechanism? id = some n) :
    planStep m m.graph.topologicalOrder clamps i id = .ok (nodeStep m clamps id n) := by
  have hparents : n.parents.mapM (planParent m m.graph.topologicalOrder i id) =
      .ok (n.parents.map fun p => (m.graph.topologicalOrder.idxOf p, domainOf m p)) := by
    rw [mapM_eq_ok_iff, List.forall₂_map_right_iff, List.forall₂_same]
    exact fun p hp => planParent_eq hm hc hi (hm.parents id n hn p hp)
  rw [planStep, hn]
  dsimp only
  rw [hparents]
  rfl

/-- **A grounded model in which no mechanism is missing has a plan, whatever is clamped.** -/
theorem exists_planned (hm : m.Grounded) (hc : m.missingMechanisms = [])
    (clamps : List (String × α)) :
    ∃ steps, plan m m.graph.topologicalOrder clamps = .ok steps ∧ Planned m clamps steps := by
  have hnode {i : Nat} {id : String} (hi : m.graph.topologicalOrder[i]? = some id) :
      ∃ n, m.mechanism? id = some n :=
    Model.exists_mechanism hc (hm.graph.mem_order.mp (List.mem_of_getElem? hi))
  obtain ⟨steps, hsteps⟩ : ∃ steps, plan m m.graph.topologicalOrder clamps = .ok steps := by
    refine exists_mapM_of_forall ?_
    rintro ⟨id, i⟩ hmem
    have hi : m.graph.topologicalOrder[i]? = some id := List.mem_zipIdx_iff_getElem?.mp hmem
    obtain ⟨n, hn⟩ := hnode hi
    exact ⟨_, planStep_eq hm hc hi hn⟩
  refine ⟨steps, hsteps, ?_, fun i id hi => ?_⟩
  · rw [length_of_mapM hsteps, List.length_zipIdx]
  · obtain ⟨n, hn⟩ := hnode hi
    have hzip : m.graph.topologicalOrder.zipIdx[i]? = some (id, i) := by
      rw [List.getElem?_zipIdx, hi, Option.map_some, Nat.zero_add]
    obtain ⟨step, hstep, hplan⟩ := getElem?_of_mapM hsteps hzip
    refine ⟨n, hn, ?_⟩
    rw [hstep, ← Except.ok.inj ((planStep_eq hm hc hi hn).symm.trans hplan)]

/-- **Every parent of a step has a value when the step is taken.** -/
theorem Planned.parent_lt (h : Planned m clamps steps) (hm : m.Grounded) {i : Nat} {step : Step α}
    (hi : steps[i]? = some step) {q : Nat × Domain} (hq : q ∈ step.parents) : q.1 < i := by
  obtain ⟨hlt, -⟩ := List.getElem?_eq_some_iff.mp hi
  rw [h.length] at hlt
  have hid := List.getElem?_eq_getElem hlt
  obtain ⟨n, hn, hstep⟩ := h.step i _ hid
  obtain rfl := Option.some.inj (hi.symm.trans hstep)
  obtain ⟨p, hp, rfl⟩ := List.mem_map.mp hq
  have hpos := hm.graph.idxOf_lt_of_reaches (hm.parents _ n hn p hp).reaches
  rwa [idxOf_of_getElem? hm hid] at hpos

end Plan

/-! ## 2. Draws without a buffer -/

section Values

variable {α : Type} [Scalar α] (ρ : Type) [Noise ρ α]

/-- The features of a step's parents, given the values of all nodes before it. -/
def stepFeatures (step : Step α) (values : List α) : List α :=
  step.parents.flatMap fun (i, domain) => domain.features (values.getD i 0)

/-- The value of the node at a position, given the values of all nodes before it. -/
def stepValue (seed : UInt64) (position : Nat) (step : Step α) (values : List α) : α :=
  match step.clamp with
  | some v => v
  | none =>
    let noise : ρ := Noise.start seed (UInt64.ofNat position)
    (step.mechanism.sample (stepFeatures step values) noise).1

/-- Adds the values of the steps to those of the nodes before them. -/
def drawFrom (seed : UInt64) : Nat → List α → List (Step α) → List α
  | _, values, [] => values
  | position, values, step :: rest =>
    drawFrom seed (position + 1) (values ++ [stepValue ρ seed position step values]) rest

/-- What is gathered in the emptied buffer. -/
theorem gather_eq (step : Step α) (values : List α) :
    gather step values = stepFeatures step values := by
  rw [gather, stepFeatures, List.flatMap_eq_foldl]

/-- **What the buffer holds when a node is reached does not matter.** -/
theorem values_advance (seed : UInt64) (s : DrawState α) (step : Step α) (position : Nat) :
    (s.advance ρ seed (step, position)).values =
      s.values ++ [stepValue ρ seed position step s.values] := by
  rw [DrawState.advance, stepValue]
  dsimp only
  cases step.clamp with
  | some v => rfl
  | none => rw [gather_eq]

theorem values_foldl_advance (seed : UInt64) (s : DrawState α) (steps : List (Step α))
    (position : Nat) :
    ((steps.zipIdx position).foldl (DrawState.advance ρ seed) s).values =
      drawFrom ρ seed position s.values steps := by
  induction steps generalizing s position with
  | nil => rfl
  | cons step rest ih =>
    rw [List.zipIdx_cons, List.foldl_cons, ih, values_advance, drawFrom]

/-- **A draw is a recursion over the steps that carries the values only.** -/
theorem drawOnce_eq_drawFrom (steps : List (Step α)) (seed : UInt64) :
    drawOnce ρ steps seed = drawFrom ρ seed 0 [] steps :=
  values_foldl_advance ρ seed ⟨[], []⟩ steps 0

end Values

/-! ## 3. Draws -/

section Draws

variable {α : Type} [Scalar α] {ρ : Type} [Noise ρ α] {steps : List (Step α)} {seed : UInt64}

theorem length_drawFrom (position : Nat) (values : List α) (steps : List (Step α)) :
    (drawFrom ρ seed position values steps).length = values.length + steps.length := by
  induction steps generalizing position values with
  | nil => rfl
  | cons step rest ih =>
    rw [drawFrom, ih, List.length_append, List.length_singleton, List.length_cons]
    omega

theorem length_drawOnce (steps : List (Step α)) :
    (drawOnce ρ steps seed).length = steps.length := by
  rw [drawOnce_eq_drawFrom, length_drawFrom, List.length_nil, Nat.zero_add]

/-- Values stay where they were drawn. -/
theorem take_drawFrom (position : Nat) (values : List α) (steps : List (Step α)) :
    (drawFrom ρ seed position values steps).take values.length = values := by
  induction steps generalizing position values with
  | nil => rw [drawFrom, List.take_length]
  | cons step rest ih =>
    have htake := ih (position + 1) (values ++ [stepValue ρ seed position step values])
    rw [drawFrom]
    have := congrArg (List.take values.length) htake
    rwa [List.take_take, List.length_append, List.length_singleton,
      Nat.min_eq_left (Nat.le_succ _), List.take_left] at this

/-- Each step adds its value, given those before it. -/
theorem getElem?_drawFrom {values : List α} {i : Nat} {step : Step α}
    (hi : steps[i]? = some step) :
    (drawFrom ρ seed values.length values steps)[values.length + i]? =
      some (stepValue ρ seed (values.length + i) step
        ((drawFrom ρ seed values.length values steps).take (values.length + i))) := by
  induction steps generalizing values i with
  | nil => exact nomatch hi
  | cons head rest ih =>
    -- the values once the first step is taken
    obtain ⟨grown, hgrown⟩ : ∃ grown, grown =
        values ++ [stepValue ρ seed values.length head values] := ⟨_, rfl⟩
    have hlen : grown.length = values.length + 1 := by
      rw [hgrown, List.length_append, List.length_singleton]
    have hdraw : drawFrom ρ seed values.length values (head :: rest) =
        drawFrom ρ seed grown.length grown rest := by
      rw [drawFrom, hlen, hgrown]
    cases i with
    | zero =>
      obtain rfl := Option.some.inj hi
      rw [Nat.add_zero, take_drawFrom, hdraw,
        ← List.getElem?_take_of_lt (i := values.length) (j := grown.length) (by omega),
        take_drawFrom, hgrown, List.getElem?_concat_length]
    | succ i =>
      have hrest : rest[i]? = some step := by rwa [List.getElem?_cons_succ] at hi
      have hpos : values.length + (i + 1) = grown.length + i := by omega
      rw [hpos, hdraw]
      exact ih hrest

/-- **The value at a position is that of its step, given the values before it.** -/
theorem getElem?_drawOnce {i : Nat} {step : Step α} (hi : steps[i]? = some step) :
    (drawOnce ρ steps seed)[i]? =
      some (stepValue ρ seed i step ((drawOnce ρ steps seed).take i)) := by
  have hdraw : (drawFrom ρ seed ([] : List α).length [] steps)[([] : List α).length + i]? = _ :=
    getElem?_drawFrom hi
  rw [drawOnce_eq_drawFrom]
  rwa [List.length_nil, Nat.zero_add] at hdraw

theorem length_of_mem_draws {n : Nat} {row : List α} (h : row ∈ draws ρ steps n seed) :
    row.length = steps.length := by
  obtain ⟨i, -, rfl⟩ := List.mem_map.mp h
  exact length_drawOnce steps

theorem length_columns (n : Nat) : (simulate ρ steps n seed).columns.length = steps.length := by
  rw [simulate, List.length_map, List.length_range]

theorem length_of_mem_columns {n : Nat} :
    ∀ column ∈ (simulate ρ steps n seed).columns, column.length = n := by
  intro column hcolumn
  obtain ⟨position, -, rfl⟩ := List.mem_map.mp hcolumn
  rw [List.length_map, draws, List.length_map, List.length_range]

/-- The column of a position: the value there in each draw. -/
theorem getElem?_columns {n i : Nat} (hi : i < steps.length) :
    (simulate ρ steps n seed).columns[i]? =
      some ((draws ρ steps n seed).map fun row => row.getD i 0) := by
  rw [simulate, List.getElem?_map, List.getElem?_range hi]
  rfl

end Draws

end Simulation

end CodeCausality
