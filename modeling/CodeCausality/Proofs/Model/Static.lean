import CodeCausality.Proofs.Model.Grounded

/-!
# Static fits

Without traces a model follows from its graph.

* `fit_of_static` -- which fits these are;
* `IsStatic`, `isStatic_of_mem_staticNodes` -- the mechanism of a node: the standard prior at a
  root, elsewhere the coefficients of its incoming edges and some noise;
* `mechanism_fitStatic` -- **each mechanism of a static fit is of this form, reads the node's
  parents in the graph's order, and takes numbers.**
-/

namespace CodeCausality

namespace Model

variable {α : Type} [Scalar α] {g : CausalGraph α} {settings : FitSettings α} {now : Instant}

/-- Fits without traces, and fits that are not to use them, are static. -/
theorem fit_of_static {ρ : Type} [Noise ρ α] {traces : Option (TraceTable α)} {staticOnly : Bool}
    (h : traces = none ∨ staticOnly = true) :
    fit ρ settings now g traces staticOnly = .ok (fitStatic settings now g) := by
  cases traces with
  | none => rfl
  | some t =>
    cases h with
    | inl h => exact nomatch h
    | inr h =>
      rw [h]
      rfl

/-- The standard prior at a root, elsewhere the coefficients of the incoming edges. -/
inductive IsStatic (g : CausalGraph α) (id : String) : Mechanism α → Prop where
  | root (h : g.parents id = []) : IsStatic g id (.staticPrior 0 1)
  | inner (h : g.parents id ≠ []) (std : α) :
      IsStatic g id (.linearStatic 0 ((g.parents id).map (coefficient g id)) std)

theorem isStatic_staticNode (target : α) (g : CausalGraph α) (variances : List (String × α))
    (id : String) : IsStatic g id (staticNode target g variances id).1.mechanism.mechanism := by
  rw [staticNode]
  split
  · rename_i hroot
    exact .root hroot
  · rename_i hinner
    exact .inner hinner _

theorem isStatic_of_mem_staticNodes {target : α} {variances : List (String × α)}
    {order : List String} {n : FittedNode α} (hn : n ∈ staticNodes target g variances order) :
    IsStatic g n.id n.mechanism.mechanism := by
  obtain ⟨before, id, rfl⟩ := exists_staticNode_of_mem hn
  rw [(staticNode_parents target g before id).1]
  exact isStatic_staticNode target g before id

/-- **What a static fit gives a node.** -/
theorem mechanism_fitStatic {id : String} {n : NodeMechanism α}
    (h : (fitStatic settings now g).mechanism? id = some n) :
    n.parents = g.parents id ∧ n.domain = .continuous ∧ IsStatic g id n.mechanism := by
  obtain ⟨node, hnode, heq⟩ := List.mem_map.mp (Dictionary.mem_of_get?_ofList h)
  obtain ⟨rfl, rfl⟩ := Prod.mk.inj heq
  exact ⟨staticNodes_parents hnode, staticNodes_domain hnode, isStatic_of_mem_staticNodes hnode⟩

end Model

end CodeCausality
