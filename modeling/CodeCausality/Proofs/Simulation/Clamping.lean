import CodeCausality.Proofs.Simulation.CommonNoise

/-!
# Clamping to values already drawn

An intervention that also forces nodes to the values they take anyway changes nothing:

* `AlsoHeld` -- clamps that hold further nodes at their values in a draw, and clamp all others as
  before; `alsoHeld_holdAlso`: there are such clamps for any nodes;
* `getElem?_drawOnce_of_clamp` -- a clamped node has its value in every draw;
* `drawOnce_of_alsoHeld` -- **the draw under them is the same draw**: by induction along the plan
  each position has the value it had, a held one because it is held there, any other because its
  step is the same, reads equal values and starts the same noise;
* `interventions_compose` -- both, for every complete model.
-/

namespace CodeCausality

namespace Simulation

variable {α : Type} {m : Model α} {row : List α} {further : List String}
  {clamps both : List (String × α)}

/-! ## 1. Holding nodes at drawn values -/

/-- `both` clamps the further nodes to their values in `row`, and all others as `clamps` does. -/
structure AlsoHeld (m : Model α) (row : List α) (further : List String)
    (clamps both : List (String × α)) : Prop where
  held : ∀ id ∈ further, id ∈ m.graph.ids →
    both.lookup id = row[m.graph.topologicalOrder.idxOf id]?
  kept : ∀ id, id ∉ further → both.lookup id = clamps.lookup id

/-- The clamps, and in front of them the further nodes with their values in `row`. -/
def holdAlso (m : Model α) (row : List α) (clamps : List (String × α)) :
    List String → List (String × α)
  | [] => clamps
  | id :: rest =>
    match row[m.graph.topologicalOrder.idxOf id]? with
    | some v => (id, v) :: holdAlso m row clamps rest
    | none => holdAlso m row clamps rest

theorem lookup_holdAlso_of_not_mem {id : String} (hid : id ∉ further) :
    (holdAlso m row clamps further).lookup id = clamps.lookup id := by
  induction further with
  | nil => rfl
  | cons k rest ih =>
    have hk : id ≠ k := List.ne_of_not_mem_cons hid
    have hrest : id ∉ rest := List.not_mem_of_not_mem_cons hid
    rw [holdAlso]
    split
    · rw [List.lookup_cons, beq_false_of_ne hk]
      exact ih hrest
    · exact ih hrest

theorem lookup_holdAlso_of_mem {id : String} {v : α} (hid : id ∈ further)
    (hv : row[m.graph.topologicalOrder.idxOf id]? = some v) :
    (holdAlso m row clamps further).lookup id = some v := by
  induction further with
  | nil => exact absurd hid List.not_mem_nil
  | cons k rest ih =>
    rw [holdAlso]
    by_cases hk : id = k
    · subst hk
      rw [hv]
      dsimp only
      rw [List.lookup_cons, beq_self_eq_true]
    · have hrest := ih ((List.mem_cons.mp hid).resolve_left hk)
      split
      · rw [List.lookup_cons, beq_false_of_ne hk]
        exact hrest
      · exact hrest

variable [Scalar α] {ρ : Type} [Noise ρ α] {steps held : List (Step α)} {seed : UInt64}

/-- Every node has a value in a draw. -/
theorem exists_getElem?_drawOnce (hm : m.Grounded) (hp : Planned m clamps steps) (seed : UInt64)
    {id : String} (hid : id ∈ m.graph.ids) :
    ∃ v, (drawOnce ρ steps seed)[m.graph.topologicalOrder.idxOf id]? = some v := by
  have hlt : m.graph.topologicalOrder.idxOf id < (drawOnce ρ steps seed).length := by
    rw [length_drawOnce]
    exact idxOf_lt_of_planned hm hp hid
  exact ⟨_, List.getElem?_eq_getElem hlt⟩

/-- **Any nodes can be held at the values of a draw.** -/
theorem alsoHeld_holdAlso (hm : m.Grounded) (hp : Planned m clamps steps) (seed : UInt64)
    (further : List String) :
    AlsoHeld m (drawOnce ρ steps seed) further clamps
      (holdAlso m (drawOnce ρ steps seed) clamps further) where
  held id hid hmem := by
    obtain ⟨v, hv⟩ := exists_getElem?_drawOnce (ρ := ρ) hm hp seed hmem
    rw [hv]
    exact lookup_holdAlso_of_mem hid hv
  kept _ hid := lookup_holdAlso_of_not_mem hid

/-! ## 2. Draws -/

/-- The step of a clamped node takes the value it is clamped to, whatever stands before it. -/
theorem stepValue_of_clamp {id : String} {n : NodeMechanism α} {v : α}
    (hv : clamps.lookup id = some v) (position : Nat) (values : List α) :
    stepValue ρ seed position (nodeStep m clamps id n) values = v := by
  rw [stepValue]
  unfold nodeStep
  rw [hv]

/-- **A clamped node has its value in every draw.** -/
theorem getElem?_drawOnce_of_clamp (hm : m.Grounded) (hp : Planned m clamps steps) (seed : UInt64)
    {id : String} (hid : id ∈ m.graph.ids) {v : α} (hv : clamps.lookup id = some v) :
    (drawOnce ρ steps seed)[m.graph.topologicalOrder.idxOf id]? = some v := by
  obtain ⟨n, -, hstep⟩ := hp.step _ id (getElem?_idxOf hm hid)
  rw [getElem?_drawOnce hstep, stepValue_of_clamp hv]

/-- The value at one position, given that those before it are the same in both draws. -/
theorem getElem?_drawOnce_of_alsoHeld (hm : m.Grounded) (hp : Planned m clamps steps)
    (hb : Planned m both held) (h : AlsoHeld m (drawOnce ρ steps seed) further clamps both)
    {i : Nat} (hbefore : ∀ j < i, (drawOnce ρ held seed)[j]? = (drawOnce ρ steps seed)[j]?) :
    (drawOnce ρ held seed)[i]? = (drawOnce ρ steps seed)[i]? := by
  cases hi : m.graph.topologicalOrder[i]? with
  | none =>
    -- behind the last node there is no value
    have hlen := List.getElem?_eq_none_iff.mp hi
    rw [List.getElem?_eq_none_iff.mpr (by rw [length_drawOnce, hb.length]; exact hlen),
      List.getElem?_eq_none_iff.mpr (by rw [length_drawOnce, hp.length]; exact hlen)]
  | some id =>
    have hid : id ∈ m.graph.ids := hm.graph.mem_order.mp (List.mem_of_getElem? hi)
    have hpos := idxOf_of_getElem? hm hi
    by_cases hfurther : id ∈ further
    · obtain ⟨v, hv⟩ := exists_getElem?_drawOnce (ρ := ρ) hm hp seed hid
      have hheld := getElem?_drawOnce_of_clamp (ρ := ρ) hm hb seed hid
        ((h.held id hfurther hid).trans hv)
      rw [← hpos, hheld, hv]
    · -- the node's step is the same in both plans, and it reads what stands before it
      obtain ⟨n, hn, hstep⟩ := hp.step i id hi
      obtain ⟨n', hn', hstep'⟩ := hb.step i id hi
      obtain rfl := Option.some.inj (hn.symm.trans hn')
      have hsame : nodeStep m both id n = nodeStep m clamps id n := by
        rw [nodeStep, nodeStep, h.kept id hfurther]
      rw [hsame] at hstep'
      rw [getElem?_drawOnce hstep, getElem?_drawOnce hstep']
      refine congrArg some (stepValue_congr fun q hq => ?_)
      have hlt := hp.parent_lt hm hstep hq
      rw [List.getD_eq_getElem?_getD, List.getD_eq_getElem?_getD, List.getElem?_take_of_lt hlt,
        List.getElem?_take_of_lt hlt, hbefore _ hlt]

/-- **Holding nodes at the values of a draw leaves the draw as it is.** -/
theorem drawOnce_of_alsoHeld (hm : m.Grounded) (hp : Planned m clamps steps)
    (hb : Planned m both held) (h : AlsoHeld m (drawOnce ρ steps seed) further clamps both) :
    drawOnce ρ held seed = drawOnce ρ steps seed := by
  refine List.ext_getElem? fun i => ?_
  -- along the plan: all values before a position are the same already
  induction i using Nat.strong_induction_on with
  | _ i ih => exact getElem?_drawOnce_of_alsoHeld hm hp hb h ih

/-- **Interventions compose.** A complete model has a plan whatever is clamped. In each of its draws
a clamped node has the value it is clamped to. And if further nodes are clamped as well, each to the
value it takes in a draw, the whole draw stays as it is; for any nodes there are such clamps. -/
theorem interventions_compose (hm : Model.Produced ρ m) (hc : m.missingMechanisms = [])
    (clamps : List (String × α)) :
    ∃ steps, plan m m.graph.topologicalOrder clamps = .ok steps ∧ ∀ seed : UInt64,
      (∀ id ∈ m.graph.ids, ∃ v,
        (drawOnce ρ steps seed)[m.graph.topologicalOrder.idxOf id]? = some v ∧
          ∀ c, clamps.lookup id = some c → v = c) ∧
      ∀ further : List String,
        (∃ both, AlsoHeld m (drawOnce ρ steps seed) further clamps both) ∧
        ∀ both, AlsoHeld m (drawOnce ρ steps seed) further clamps both →
          ∃ held, plan m m.graph.topologicalOrder both = .ok held ∧
            drawOnce ρ held seed = drawOnce ρ steps seed := by
  have hg := hm.grounded
  obtain ⟨steps, hsteps, hp⟩ := exists_planned hg hc clamps
  refine ⟨steps, hsteps, fun seed => ⟨fun id hid => ?_, fun further => ⟨?_, fun both h => ?_⟩⟩⟩
  · obtain ⟨v, hv⟩ := exists_getElem?_drawOnce (ρ := ρ) hg hp seed hid
    refine ⟨v, hv, fun c hclamp => ?_⟩
    rw [getElem?_drawOnce_of_clamp hg hp seed hid hclamp] at hv
    exact (Option.some.inj hv).symm
  · exact ⟨_, alsoHeld_holdAlso hg hp seed further⟩
  · obtain ⟨held, hheld, hb⟩ := exists_planned hg hc both
    exact ⟨held, hheld, drawOnce_of_alsoHeld hg hp hb h⟩

/-- In the diamond with `b` clamped to two, `a` and `d` can be clamped to what they are drawn as. -/
theorem interventions_compose_diamond :
    ∃ steps both held,
      plan diamondModel diamondModel.graph.topologicalOrder [("b", 2.0)] = .ok steps ∧
      AlsoHeld diamondModel (drawOnce Random.Generator steps 7) ["a", "d"] [("b", 2.0)] both ∧
      plan diamondModel diamondModel.graph.topologicalOrder both = .ok held ∧
      drawOnce Random.Generator held 7 = drawOnce Random.Generator steps 7 := by
  have hwf := CausalGraph.wellFormed_of_ofParts CausalGraph.ofParts_diamond
  obtain ⟨steps, hsteps, hdraws⟩ := interventions_compose produced_diamondModel
    (Model.missingMechanisms_fitStatic hwf) [("b", 2.0)]
  obtain ⟨-, hholding⟩ := hdraws 7
  obtain ⟨⟨both, hboth⟩, hsame⟩ := hholding ["a", "d"]
  obtain ⟨held, hheld, hdraw⟩ := hsame both hboth
  exact ⟨steps, both, held, hsteps, hboth, hheld, hdraw⟩

end Simulation

end CodeCausality
