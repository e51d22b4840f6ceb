import CodeCausality.Proofs.Record.Reload
import CodeCausality.Proofs.Simulation.Clamping

/-!
# Values and domains

A simulated value is a code, and whoever reads it takes it for a code of its node's domain: zero or
one for a truth value, the position of a label for a category. Whichever way the value comes about,
it is one.

* `holds_of_encode?` -- a value that is encoded is;
* `drawClass_lt` -- a class that is drawn is one of the classes, whatever their probabilities are;
* `holds_sample` -- **so a readable mechanism draws codes of its domain, if that has any**;
* `values_lie_in_domains` -- **and all values of a complete model lie in their nodes' domains**, but
  those of a category without labels, which are zero;
* `unlabelled`, `accepted_record_draws_outside` -- there is an accepted record with such a category.
-/

namespace CodeCausality

open Regression (length_classProbabilities)

/-! ## 1. Codes -/

section Codes

variable {α : Type} [Scalar α]

/-- The codes of a domain. -/
def Domain.Holds : Domain → α → Prop
  | .continuous, _ => True
  | .boolean, x => x = 0 ∨ x = 1
  | .categorical labels, x => ∃ k < labels.length, x = Scalar.ofNat k

theorem holds_indicator (b : Bool) : Domain.boolean.Holds (Scalar.indicator b : α) := by
  cases b with
  | false => exact .inl rfl
  | true => exact .inr rfl

/-- **The code of a value is one of its domain.** -/
theorem holds_of_encode? {d : Domain} {v : Value α} {x : α} (h : d.encode? v = some x) :
    d.Holds x := by
  cases d with
  | continuous => trivial
  | boolean =>
    cases v with
    | boolean b =>
      obtain rfl := Option.some.inj h
      exact holds_indicator b
    | number | category => exact nomatch h
  | categorical labels =>
    cases v with
    | category c =>
      obtain ⟨k, hk, rfl⟩ := Option.map_eq_some_iff.mp h
      exact ⟨k, (List.idxOf?_eq_some_iff.mp hk).1, rfl⟩
    | number | boolean => exact nomatch h

/-- No value has a code where there are no labels. -/
theorem encode?_unlabelled (v : Value α) : (Domain.categorical []).encode? v = none := by
  cases v <;> rfl

/-! ## 2. Classes -/

namespace Mechanism

/-- The first class above, or the last: both are below any bound on the classes. -/
theorem classAbove_lt {u sum : α} {last i bound : Nat} {ps : List α} (hlast : last < bound)
    (hps : i + ps.length ≤ bound) : classAbove u last i sum ps < bound := by
  induction ps generalizing i sum with
  | nil => exact hlast
  | cons p ps ih =>
    rw [List.length_cons] at hps
    rw [classAbove]
    split
    · omega
    · exact ih (by omega)

variable {ρ : Type} [Noise ρ α]

/-- **A class that is drawn is one of the classes**, whatever their probabilities are. -/
theorem drawClass_lt {ps : List α} (hps : 0 < ps.length) (r : ρ) :
    (drawClass ps r).1 < ps.length := classAbove_lt (by omega) (by omega)

end Mechanism

/-! ## 3. Samples -/

variable {ρ : Type} [Noise ρ α] {n : NodeMechanism α}

/-- **A readable mechanism draws codes of its domain**, if that has any. The families of a domain,
one after another. -/
theorem holds_sample (h : n.Readable) (hlabelled : n.domain ≠ .categorical [])
    (features : List α) (r : ρ) : n.domain.Holds (n.mechanism.sample features r).1 := by
  obtain ⟨parents, domain, mechanism⟩ := n
  have hsupports := h.supports
  have hlabels := h.labels
  cases domain with
  | continuous => trivial
  | boolean =>
    cases mechanism with
    | marginalBernoulli p => exact holds_indicator _
    | logisticRegression b cs => exact holds_indicator _
    | _ => exact nomatch hsupports
  | categorical labels =>
    have hpos : 0 < labels.length :=
      List.length_pos_iff.mpr fun hnil => hlabelled (congrArg Domain.categorical hnil)
    -- there are as many classes as labels
    have hdraw {ps : List α} (hps : ps.length = labels.length) :
        (Domain.categorical labels).Holds (Scalar.ofNat (Mechanism.drawClass ps r).1 : α) :=
      ⟨_, hps ▸ Mechanism.drawClass_lt (hps ▸ hpos) r, rfl⟩
    cases mechanism with
    | marginalCategorical ps => exact hdraw (beq_iff_eq.mp hlabels)
    | softmaxRegression bs ws =>
      obtain ⟨hbs, hws⟩ := Bool.and_eq_true_iff.mp hlabels
      refine hdraw ?_
      rw [length_classProbabilities, beq_iff_eq.mp hbs, beq_iff_eq.mp hws]
      exact Nat.min_self _
    | _ => exact nomatch hsupports

/-- Where there are no labels, a readable mechanism draws zero: it is a marginal without
probabilities. -/
theorem sample_unlabelled (h : n.Readable) (hnone : n.domain = .categorical [])
    (features : List α) (r : ρ) : (n.mechanism.sample features r).1 = 0 := by
  obtain ⟨parents, domain, mechanism⟩ := n
  obtain rfl : domain = .categorical [] := hnone
  have hsupports := h.supports
  have hlabels := h.labels
  cases mechanism with
  | marginalCategorical ps =>
    obtain rfl : ps = [] := List.length_eq_zero_iff.mp (beq_iff_eq.mp hlabels)
    rfl
  | softmaxRegression bs ws =>
    have hbs := beq_iff_eq.mp (Bool.and_eq_true_iff.mp hlabels).1
    exact absurd (List.length_eq_zero_iff.mp hbs) (h.classes bs ws rfl)
  | _ => exact nomatch hsupports

end Codes

/-! ## 4. Models -/

namespace Simulation

section Models

variable {α : Type} [Scalar α] {ρ : Type} [Noise ρ α] {m : Model α}

/-- **The mechanisms of every produced model are readable.** -/
theorem readable_of_produced (hm : Model.Produced ρ m) {id : String} {n : NodeMechanism α}
    (hn : m.mechanism? id = some n) : n.Readable := by
  cases hm with
  | fitted hg hfit =>
    have hwf := CausalGraph.wellFormed_of_ofParts hg
    obtain ⟨domains, nodes, traceCount, static, hnodes, rfl⟩ := exists_nodesSuit_of_fit hwf hfit
    exact (hnodes.wellFormed hwf).readable hn (hnodes.labelled hwf hn)
  | loaded hr =>
    obtain ⟨d, -, -, hmechanism⟩ := exists_entry_of_accepted hr hn
    exact MechanismRecord.readable_of_toMechanism hmechanism

/-- In a fitted model, every category has labels. -/
theorem labelled_of_fit {g : CausalGraph α} (hg : g.WellFormed) {settings : FitSettings α}
    {now : Instant} {traces : Option (TraceTable α)} {staticOnly : Bool}
    (hm : acceptLowScore (fit ρ settings now g traces staticOnly) = .ok m) {id : String}
    {n : NodeMechanism α} (hn : m.mechanism? id = some n) : n.domain ≠ .categorical [] := by
  obtain ⟨domains, nodes, traceCount, static, hnodes, rfl⟩ := exists_nodesSuit_of_fit hg hm
  exact hnodes.labelled hg hn

/-- What a node of a model takes for values: codes of its domain, or zero where there are none. -/
def Admits (n : NodeMechanism α) (x : α) : Prop :=
  (n.domain ≠ .categorical [] → n.domain.Holds x) ∧ (n.domain = .categorical [] → x = 0)

variable {es : List (String × Value α)} {clamps : List (String × α)} {steps : List (Step α)}

/-- **The value of one step is one that its node admits**, clamped or drawn. -/
theorem admits_stepValue {id : String} {n : NodeMechanism α} (hn : m.mechanism? id = some n)
    (h : n.Readable) (hclamps : encodeClamps m es = .ok clamps) (seed : UInt64) (position : Nat)
    (values : List α) : Admits n (stepValue ρ seed position (nodeStep m clamps id n) values) := by
  rw [stepValue]
  unfold nodeStep
  cases hclamp : clamps.lookup id with
  | none =>
    exact ⟨fun hlabelled => holds_sample h hlabelled _ _, fun hnone => sample_unlabelled h hnone _ _⟩
  | some v =>
    rw [lookup_encodeClamps hclamps] at hclamp
    obtain ⟨u, -, hclamp⟩ := Option.bind_eq_some_iff.mp hclamp
    obtain ⟨n', hn', hcode⟩ := Option.bind_eq_some_iff.mp hclamp
    obtain rfl := Option.some.inj (hn.symm.trans hn')
    refine ⟨fun _ => holds_of_encode? hcode, fun hnone => ?_⟩
    rw [hnone, encode?_unlabelled] at hcode
    cases hcode

/-- **Every value of a draw is one that its node admits.** -/
theorem admits_drawOnce (hm : m.Grounded) (hp : Planned m clamps steps)
    (hclamps : encodeClamps m es = .ok clamps) {id : String} {n : NodeMechanism α}
    (hid : id ∈ m.graph.ids) (hn : m.mechanism? id = some n) (h : n.Readable) (seed : UInt64) :
    ∃ v, (drawOnce ρ steps seed)[m.graph.topologicalOrder.idxOf id]? = some v ∧ Admits n v := by
  obtain ⟨n', hn', hstep⟩ := hp.step _ id (getElem?_idxOf hm hid)
  obtain rfl := Option.some.inj (hn.symm.trans hn')
  exact ⟨_, getElem?_drawOnce hstep, admits_stepValue hn h hclamps seed _ _⟩

/-- **All simulated values lie in their nodes' domains.** A complete model has a plan with any clamps
that passed encoding, and in the column of each node stand values that the node admits: zero or one
at a truth value, the position of a label at a category with labels. A category without labels is
zero; a fitted model has none. -/
theorem values_lie_in_domains (hm : Model.Produced ρ m) (hc : m.missingMechanisms = [])
    (hclamps : encodeClamps m es = .ok clamps) :
    (∃ steps, plan m m.graph.topologicalOrder clamps = .ok steps ∧
      ∀ (seed : UInt64) (samples : Nat), ∀ id ∈ m.graph.ids, ∃ n column,
        m.mechanism? id = some n ∧
        (simulate ρ steps samples seed).columns[m.graph.topologicalOrder.idxOf id]? =
          some column ∧
        column.length = samples ∧
        ∀ x ∈ column, (n.domain ≠ .categorical [] → n.domain.Holds x) ∧
          (n.domain = .categorical [] → x = 0)) ∧
    ∀ (nodes : List Element) (edges : List (Edge α)) g settings now traces staticOnly,
      CausalGraph.ofParts nodes edges = .ok g →
      acceptLowScore (fit ρ settings now g traces staticOnly) = .ok m →
      ∀ id n, m.mechanism? id = some n → n.domain ≠ .categorical [] := by
  have hg := hm.grounded
  obtain ⟨steps, hsteps, hp⟩ := exists_planned hg hc clamps
  refine ⟨⟨steps, hsteps, fun seed samples id hid => ?_⟩,
    fun nodes edges g settings now traces staticOnly hparts hfit id n hn =>
      labelled_of_fit (CausalGraph.wellFormed_of_ofParts hparts) hfit hn⟩
  obtain ⟨n, hn⟩ := Model.exists_mechanism hc hid
  refine ⟨n, _, hn, getElem?_columns (idxOf_lt_of_planned hg hp hid), ?_, fun x hx => ?_⟩
  · rw [List.length_map, draws, List.length_map, List.length_range]
  · rw [draws, List.map_map] at hx
    obtain ⟨i, -, rfl⟩ := List.mem_map.mp hx
    obtain ⟨v, hv, hadmits⟩ := admits_drawOnce (ρ := ρ) hg hp hclamps hid hn
      (readable_of_produced hm hn) (streamSeed seed (UInt64.ofNat i))
    show Admits n ((drawOnce ρ steps (streamSeed seed (UInt64.ofNat i))).getD _ 0)
    rw [List.getD_eq_getElem?_getD, hv, Option.getD_some]
    exact hadmits

end Models

/-! ## 5. Two accepted records -/

section Records

variable (α : Type) [Scalar α]

/-- A truth value, and a category of two labels that depends on it. -/
def switchedCategory : Record α where
  nodes := [.of "b" .namedValue [], .of "c" .namedValue []]
  edges := [⟨"b", "c", .dataFlow, none⟩]
  mechanisms := .ofList [
    ("b", ⟨"marginal-bernoulli", "boolean", [], [], .ofList [("p", [1])]⟩),
    ("c", ⟨"softmax-regression", "categorical", ["b"], ["off", "on"],
      .ofList [("intercepts", [0, 0]), ("weights", [1, 2])]⟩)]
  metadata := ⟨"2024-05-06T07:08:09.123456Z", 0, 0.6, true, .empty, .empty, 5⟩

def switchedCategoryModel : Model α where
  graph := .of (switchedCategory α).nodes (switchedCategory α).edges
  mechanisms := .ofList [
    ("b", ⟨[], .boolean, .marginalBernoulli 1⟩),
    ("c", ⟨["b"], .categorical ["off", "on"], .softmaxRegression [0, 0] [[1], [2]]⟩)]
  metadata := ⟨⟨1714979289, 123456000⟩, 0, 0.6, true, .empty, .empty, 5⟩

theorem toModel_switchedCategory :
    (switchedCategory α).toModel = .ok (switchedCategoryModel α) := by cbv

theorem missingMechanisms_switchedCategory :
    (switchedCategoryModel α).missingMechanisms = [] := by cbv

theorem mechanism_switchedCategory : (switchedCategoryModel α).mechanism? "c" =
    some ⟨["b"], .categorical ["off", "on"], .softmaxRegression [0, 0] [[1], [2]]⟩ := by cbv

theorem encodeClamps_switchedCategory :
    encodeClamps (switchedCategoryModel α) [("b", .boolean true)] = .ok [("b", 1)] := by cbv

/-- A category without labels, and without probabilities. -/
def unlabelled : Record α where
  nodes := [.of "c" .namedValue []]
  edges := []
  mechanisms := .ofList [
    ("c", ⟨"marginal-categorical", "categorical", [], [], .ofList [("probabilities", [])]⟩)]
  metadata := ⟨"2024-05-06T07:08:09.123456Z", 0, 0.6, true, .empty, .empty, 5⟩

def unlabelledModel : Model α where
  graph := .of (unlabelled α).nodes []
  mechanisms := .ofList [("c", ⟨[], .categorical [], .marginalCategorical []⟩)]
  metadata := ⟨⟨1714979289, 123456000⟩, 0, 0.6, true, .empty, .empty, 5⟩

theorem toModel_unlabelled : (unlabelled α).toModel = .ok (unlabelledModel α) := by cbv

theorem missingMechanisms_unlabelled : (unlabelledModel α).missingMechanisms = [] := by cbv

theorem mechanism_unlabelled : (unlabelledModel α).mechanism? "c" =
    some ⟨[], .categorical [], .marginalCategorical []⟩ := by cbv

end Records

/-- With the truth value forced, the category is one of the two labels in each of nine draws. -/
theorem values_lie_in_domains_switched :
    ∃ steps column,
      plan (switchedCategoryModel Float) (switchedCategoryModel Float).graph.topologicalOrder
        [("b", 1)] = .ok steps ∧
      (simulate Random.Generator steps 9 7).columns[
        (switchedCategoryModel Float).graph.topologicalOrder.idxOf "c"]? = some column ∧
      column.length = 9 ∧ ∀ x ∈ column, ∃ k < 2, x = Scalar.ofNat k := by
  have hm : Model.Produced Random.Generator (switchedCategoryModel Float) :=
    .loaded (toModel_switchedCategory Float)
  obtain ⟨⟨steps, hsteps, hvalues⟩, -⟩ := values_lie_in_domains hm
    (missingMechanisms_switchedCategory Float) (encodeClamps_switchedCategory Float)
  have hc : "c" ∈ (switchedCategoryModel Float).graph.ids := .tail _ (.head _)
  obtain ⟨n, column, hn, hcolumn, hlength, hholds⟩ := hvalues 7 9 "c" hc
  obtain rfl := Option.some.inj ((mechanism_switchedCategory Float).symm.trans hn)
  exact ⟨steps, column, hsteps, hcolumn, hlength, fun x hx => (hholds x hx).1 nofun⟩

/-- The model of an accepted record, complete, draws a value that is no code of its node's domain. -/
theorem accepted_record_draws_outside :
    ∃ m n steps v, (unlabelled Float).toModel = .ok m ∧ m.missingMechanisms = [] ∧
      m.mechanism? "c" = some n ∧ plan m m.graph.topologicalOrder [] = .ok steps ∧
      (drawOnce Random.Generator steps 5)[m.graph.topologicalOrder.idxOf "c"]? = some v ∧
      ¬ n.domain.Holds v := by
  have hm : Model.Produced Random.Generator (unlabelledModel Float) :=
    .loaded (toModel_unlabelled Float)
  have hc : "c" ∈ (unlabelledModel Float).graph.ids := .head _
  obtain ⟨steps, hsteps, hp⟩ := exists_planned hm.grounded (missingMechanisms_unlabelled Float) []
  obtain ⟨v, hv⟩ := exists_getElem?_drawOnce (ρ := Random.Generator) hm.grounded hp 5 hc
  refine ⟨_, _, steps, v, toModel_unlabelled Float, missingMechanisms_unlabelled Float,
    mechanism_unlabelled Float, hsteps, hv, ?_⟩
  rintro ⟨k, hk, -⟩
  exact absurd hk (Nat.not_lt_zero k)

end Simulation

end CodeCausality
