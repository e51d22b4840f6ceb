import CodeCausality.Proofs.Record.Reload

/-!
# Families in accepted records

Reading a record compares a mechanism's family with the domain of its node and its rows with the
features of its parents. It does not ask whether the node is a root: a marginal has no row that
could be too short, and a row of nothing is as wide as no parents are.

* `sample_of_featureless` -- a mechanism whose rows are empty draws whatever it is given;
* `isMarginal_iff_of_readable` -- of the readable mechanisms, only marginals have no rows;
* `recordable_withMechanism` -- **at any node any readable mechanism is accepted whose rows are as
  wide as the features of the parents**;
* `families_of_accepted` -- what acceptance does give;
* `swapped`, `accepted_with_swapped_families` -- a record of a root with a function and of its child
  with a marginal is accepted.
-/

namespace CodeCausality

open Regression (linear logits classProbabilities)

/-! ## 1. Rows -/

section Rows

variable {α : Type}

/-- **A readable mechanism has no rows exactly if it is a marginal**: a function to a number or a
truth value has one, a function to a category one for each class, of which there is one at least. -/
theorem isMarginal_iff_of_readable {n : NodeMechanism α} (h : n.Readable) :
    n.mechanism.family.isMarginal = true ↔ n.mechanism.coefficientWidths = [] := by
  obtain ⟨parents, domain, mechanism⟩ := n
  cases mechanism with
  | staticPrior | marginalGaussian | marginalEmpirical | marginalBernoulli | marginalCategorical =>
    exact iff_of_true rfl rfl
  | linearStatic | linearRegression | linearRegressionEmpirical | logisticRegression =>
    exact iff_of_false Bool.false_ne_true (List.cons_ne_nil _ _)
  | softmaxRegression bs ws =>
    refine iff_of_false Bool.false_ne_true fun hrows => ?_
    obtain ⟨hbs, hws⟩ := Bool.and_eq_true_iff.mp h.labels
    have hclasses : ws.length = bs.length :=
      (beq_iff_eq.mp hws).trans (beq_iff_eq.mp hbs).symm
    rw [List.map_eq_nil_iff.mp hrows] at hclasses
    exact h.classes bs ws rfl (List.length_eq_zero_iff.mp hclasses.symm)

variable [Scalar α]

theorem logits_of_featureless {ws : List (List α)} (h : ∀ w ∈ ws, w = []) (bs features : List α) :
    logits bs ws features = logits bs ws [] := by
  induction ws generalizing bs with
  | nil => rw [logits, logits, List.zipWith_nil_right, List.zipWith_nil_right]
  | cons w ws ih =>
    obtain rfl := h w List.mem_cons_self
    cases bs with
    | nil => rfl
    | cons b bs =>
      have hrest := ih (fun w hw => h w (List.mem_cons_of_mem _ hw)) bs
      exact congrArg (linear b [] [] :: ·) hrest

/-- **A mechanism whose rows are empty draws whatever features it is given.** -/
theorem sample_of_featureless {m : Mechanism α} (h : ∀ w ∈ m.coefficientWidths, w = 0)
    {ρ : Type} [Noise ρ α] (features : List α) (r : ρ) : m.sample features r = m.sample [] r := by
  cases m with
  | staticPrior | marginalGaussian | marginalEmpirical | marginalBernoulli | marginalCategorical =>
    rfl
  | linearStatic b cs | linearRegression b cs | linearRegressionEmpirical b cs
  | logisticRegression b cs =>
    obtain rfl : cs = [] := List.length_eq_zero_iff.mp (h _ (.head _))
    rfl
  | softmaxRegression bs ws =>
    have hempty : ∀ w ∈ ws, w = [] := fun w hw =>
      List.length_eq_zero_iff.mp (h _ (List.mem_map_of_mem hw))
    rw [Mechanism.sample, Mechanism.sample, classProbabilities, classProbabilities,
      logits_of_featureless hempty]

omit [Scalar α] in
/-- Where all parents have mechanisms, the width of their features is known. -/
theorem expectedWidth_of_fitted {m : Model α} {ids : List String}
    (h : ∀ p ∈ ids, ∃ n, m.mechanism? p = some n) :
    expectedWidth m.mechanisms ids = some (m.featureCount ids) := by
  obtain ⟨domains, hdomains⟩ : ∃ domains, (ids.mapM fun p =>
      (m.mechanisms.get? p).map fun n => n.domain) = some domains := by
    refine ⟨ids.map (Simulation.domainOf m), mapM_eq_some_iff.mpr ?_⟩
    rw [List.forall₂_map_right_iff, List.forall₂_same]
    intro p hp
    obtain ⟨n, hn⟩ := h p hp
    have hget : m.mechanisms.get? p = some n := hn
    rw [hget, Option.map_some, Simulation.domainOf_eq hn]
  have hwidth : expectedWidth m.mechanisms ids = some (Domain.totalWidth domains) := by
    rw [expectedWidth, hdomains]
    rfl
  rw [hwidth, featureCount_of_expectedWidth hwidth]

end Rows

/-! ## 2. Another mechanism at a node -/

section Other

variable {α : Type}

/-- The model with another mechanism at a node, of the same parents and domain. -/
def Model.withMechanism (m : Model α) (id : String) (n : NodeMechanism α) (k : Mechanism α) :
    Model α :=
  { m with mechanisms := m.mechanisms.insert id { n with mechanism := k } }

variable {m : Model α} {id : String} {n : NodeMechanism α} {k : Mechanism α}

theorem mechanism?_withMechanism (j : String) :
    (m.withMechanism id n k).mechanism? j =
      if id = j then some { n with mechanism := k } else m.mechanism? j :=
  Dictionary.get?_insert _ _ _ _

/-- The domains stay, so no row must be wider than before. -/
theorem expectedWidth_withMechanism (hn : m.mechanism? id = some n) (ids : List String) :
    expectedWidth (m.withMechanism id n k).mechanisms ids = expectedWidth m.mechanisms ids := by
  have hdomain (p : String) :
      ((m.withMechanism id n k).mechanisms.get? p).map (fun n => n.domain) =
        (m.mechanisms.get? p).map fun n => n.domain := by
    show ((m.withMechanism id n k).mechanism? p).map _ = (m.mechanism? p).map _
    rw [mechanism?_withMechanism]
    split
    · rename_i h
      rw [← h, hn]
      rfl
    · rfl
  rw [expectedWidth, expectedWidth, funext hdomain]

variable [Scalar α]

/-- **A readable mechanism whose rows are as wide as the parents' features is accepted in the place of
any other**, at a root and elsewhere. -/
theorem recordable_withMechanism (h : m.Recordable) (hn : m.mechanism? id = some n)
    (hk : NodeMechanism.Readable { n with mechanism := k })
    (hwidth : ∀ width, expectedWidth m.mechanisms n.parents = some width →
      ∀ w ∈ k.coefficientWidths, w = width) : (m.withMechanism id n k).Recordable := by
  -- the node's mechanism is the other one, and all others are as they were
  have hcases {j : String} {n' : NodeMechanism α}
      (hn' : (m.withMechanism id n k).mechanism? j = some n') :
      (j = id ∧ n' = { n with mechanism := k }) ∨ m.mechanism? j = some n' := by
    rw [mechanism?_withMechanism] at hn'
    split at hn'
    · rename_i hid
      exact .inl ⟨hid.symm, (Option.some.inj hn').symm⟩
    · exact .inr hn'
  refine ⟨h.graph, fun j n' hn' => ?_, fun j n' hn' => ?_, fun j n' hn' => ?_,
    fun j n' hn' width => ?_, h.fittedAt⟩
  · rcases hcases hn' with ⟨rfl, -⟩ | hn'
    · exact h.known _ n hn
    · exact h.known j n' hn'
  · rcases hcases hn' with ⟨rfl, rfl⟩ | hn'
    · exact h.parents _ n hn
    · exact h.parents j n' hn'
  · rcases hcases hn' with ⟨rfl, rfl⟩ | hn'
    · exact hk
    · exact h.readable j n' hn'
  · rw [expectedWidth_withMechanism hn]
    rcases hcases hn' with ⟨rfl, rfl⟩ | hn'
    · exact hwidth width
    · exact h.widths j n' hn' width

end Other

/-! ## 3. Accepted records -/

section Accepted

variable {α : Type} [Scalar α] {r : Record α} {m : Model α}

/-- The first instant of 1970 is read as it is written, so at that time an accepted model is
recordable. -/
theorem recordable_at_epoch (hr : r.toModel = .ok m) : (m.fittedOn ⟨0, 0⟩).Recordable :=
  recordable_of_toModel hr
    (Timestamp.read_text ⟨by decide, fun h => absurd h (by decide)⟩ rfl (by decide))

/-- At a root of an accepted model every row is empty. -/
theorem featureless_of_isRoot (hr : r.toModel = .ok m) {id : String} {n : NodeMechanism α}
    (hn : m.mechanism? id = some n) (hroot : m.graph.isRoot id = true) :
    ∀ w ∈ n.mechanism.coefficientWidths, w = 0 := by
  have hm := recordable_at_epoch hr
  have hnil := (CausalGraph.isRoot_iff (hm.known id n hn)).mp hroot
  have hparents : n.parents = [] := by
    have hlength := (hm.parents id n hn).1
    rw [hnil] at hlength
    exact List.length_eq_zero_iff.mp hlength
  refine hm.widths id n hn 0 ?_
  rw [hparents]
  rfl

/-- **What an accepted record says of a family.** A mechanism is a marginal exactly if it has no
rows, and if it is one or stands at a root, it draws whatever values its parents have. If it is none
and its parents have mechanisms, it has rows, as wide as the parents' features. That is all: any
readable mechanism with rows of that width, a marginal at an inner node or a function at a root,
would be accepted in its place. -/
theorem families_of_accepted (hr : r.toModel = .ok m) {id : String} {n : NodeMechanism α}
    (hn : m.mechanism? id = some n) :
    (n.mechanism.family.isMarginal = true ↔ n.mechanism.coefficientWidths = []) ∧
      (n.mechanism.family.isMarginal = true ∨ m.graph.isRoot id = true →
        ∀ (ρ : Type) [Noise ρ α] (features : List α) (noise : ρ),
          n.mechanism.sample features noise = n.mechanism.sample [] noise) ∧
      (n.mechanism.family.isMarginal = false → (∀ p ∈ n.parents, ∃ np, m.mechanism? p = some np) →
        n.mechanism.coefficientWidths ≠ [] ∧
          ∀ w ∈ n.mechanism.coefficientWidths, w = m.featureCount n.parents) ∧
      ∀ t, Timestamp.read t.text = .ok t → ∀ k : Mechanism α,
        NodeMechanism.Readable { n with mechanism := k } →
        (∀ width, expectedWidth m.mechanisms n.parents = some width →
          ∀ w ∈ k.coefficientWidths, w = width) →
        (Record.ofModel ((m.fittedOn t).withMechanism id n k)).toModel =
          .ok ((m.fittedOn t).withMechanism id n k) := by
  have hm := recordable_at_epoch hr
  have hmarginal := isMarginal_iff_of_readable (hm.readable id n hn)
  refine ⟨hmarginal, fun h ρ _ features noise => ?_, fun h hparents => ?_,
    fun t ht k hk hwidth => ?_⟩
  · refine sample_of_featureless (fun w hw => ?_) features noise
    rcases h with h | h
    · rw [hmarginal.mp h] at hw
      exact absurd hw List.not_mem_nil
    · exact featureless_of_isRoot hr hn h w hw
  · have hrows : n.mechanism.coefficientWidths ≠ [] := fun hrows =>
      Bool.false_ne_true (h.symm.trans (hmarginal.mpr hrows))
    exact ⟨hrows, hm.widths id n hn _ (expectedWidth_of_fitted hparents)⟩
  · exact toModel_ofModel (recordable_withMechanism (recordable_of_toModel hr ht) hn hk hwidth)

end Accepted

/-! ## 4. Swapped families -/

section Swapped

variable (α : Type) [Scalar α]

/-- A root with a function of no parents, and its child with a marginal. -/
def swapped : Record α where
  nodes := [.of "n" .namedValue [], .of "y" .namedValue []]
  edges := [⟨"n", "y", .dataFlow, none⟩]
  mechanisms := .ofList [
    ("n", ⟨"linear-static", "continuous", [], [],
      .ofList [("intercept", [0]), ("coefficients", []), ("noise_std", [1])]⟩),
    ("y", ⟨"marginal-gaussian", "continuous", ["n"], [], .ofList [("mean", [0]), ("std", [1])]⟩)]
  metadata := ⟨"2024-05-06T07:08:09.123456Z", 0, 0.6, true, .empty, .empty, 5⟩

def swappedModel : Model α where
  graph := .of (swapped α).nodes (swapped α).edges
  mechanisms := .ofList [
    ("n", ⟨[], .continuous, .linearStatic 0 [] 1⟩),
    ("y", ⟨["n"], .continuous, .marginalGaussian 0 1⟩)]
  metadata := ⟨⟨1714979289, 123456000⟩, 0, 0.6, true, .empty, .empty, 5⟩

theorem toModel_swapped : (swapped α).toModel = .ok (swappedModel α) := by cbv

theorem root_swapped : (swappedModel α).graph.isRoot "n" = true ∧
    (swappedModel α).mechanism? "n" = some ⟨[], .continuous, .linearStatic 0 [] 1⟩ :=
  ⟨by cbv, by cbv⟩

theorem child_swapped : (swappedModel α).graph.isRoot "y" = false ∧
    (swappedModel α).mechanism? "y" = some ⟨["n"], .continuous, .marginalGaussian 0 1⟩ :=
  ⟨by cbv, by cbv⟩

end Swapped

/-- The child of the accepted record draws whatever value its parent has. -/
theorem families_of_accepted_swapped :
    (swappedModel Float).graph.isRoot "y" = false ∧
      (Mechanism.marginalGaussian 0 1).sample [1] (Noise.start 5 1 : Random.Generator) =
        (Mechanism.marginalGaussian (0 : Float) 1).sample [] (Noise.start 5 1) := by
  obtain ⟨hinner, hy⟩ := child_swapped Float
  obtain ⟨-, hblind, -⟩ := families_of_accepted (toModel_swapped Float) hy
  exact ⟨hinner, hblind (.inl rfl) Random.Generator [1] (Noise.start 5 1)⟩

/-- An accepted record with a function at a root and a marginal at a node with a parent. -/
theorem accepted_with_swapped_families :
    ∃ m root child, (swapped Float).toModel = .ok m ∧
      m.graph.isRoot "n" = true ∧ m.mechanism? "n" = some root ∧
      root.mechanism.family.isMarginal = false ∧
      m.graph.isRoot "y" = false ∧ m.mechanism? "y" = some child ∧
      child.mechanism.family.isMarginal = true := by
  obtain ⟨hroot, hn⟩ := root_swapped Float
  obtain ⟨hinner, hy⟩ := child_swapped Float
  exact ⟨_, _, _, toModel_swapped Float, hroot, hn, rfl, hinner, hy, rfl⟩

end CodeCausality
