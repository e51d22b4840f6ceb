import CodeCausality.Proofs.Sorted
import CodeCausality.Proofs.Traversal
import CodeCausality.Record.Basic

/-!
# Mechanisms in records

A mechanism is written as a family's name and named parameters, a table of weights as one list. What
reading needs to undo this is said of the mechanism alone.

* `vector_ofMechanism`, `scalar_ofMechanism` -- a parameter is found under its name;
* `rows_flatten` -- a table of rows of one width is cut out of its cells;
* `NodeMechanism.Readable`, `toMechanism_ofMechanism` -- **a readable mechanism is read as it was
  written**, in all ten families.
-/

namespace CodeCausality

variable {α : Type}

/-! ## 1. Parameters -/

/-- No family has two parameters of one name. -/
theorem Mechanism.parameters_nodup (m : Mechanism α) : (m.parameters.map (·.1)).Nodup := by
  cases m <;> simp [Mechanism.parameters]

namespace MechanismRecord

/-- **A parameter is found under its name.** -/
theorem vector_ofMechanism {n : NodeMechanism α} {name : String} {xs : List α}
    (h : (name, xs) ∈ n.mechanism.parameters) (id : String) :
    (ofMechanism n).vector id name = .ok xs := by
  have hfound : (ofMechanism n).parameters.get? name = some xs :=
    Dictionary.get?_ofList_of_nodup n.mechanism.parameters_nodup h
  rw [vector, hfound]

theorem scalar_ofMechanism {n : NodeMechanism α} {name : String} {x : α}
    (h : (name, [x]) ∈ n.mechanism.parameters) (id : String) :
    (ofMechanism n).scalar id name = .ok x := by
  rw [scalar, vector_ofMechanism h]

/-! ## 2. Rows -/

/-- A table of rows of one width is cut out of its cells. -/
theorem rows_flatten {width : Nat} {ws : List (List α)} (h : ∀ w ∈ ws, w.length = width) :
    rows width ws.length ws.flatten = ws := by
  induction ws with
  | nil => rfl
  | cons w ws ih =>
    have hw : w.length = width := h w List.mem_cons_self
    rw [List.length_cons, rows, List.flatten_cons, List.take_left' hw, List.drop_left' hw,
      ih fun v hv => h v (List.mem_cons_of_mem _ hv)]

theorem length_flatten_rows {width : Nat} {ws : List (List α)} (h : ∀ w ∈ ws, w.length = width) :
    ws.flatten.length = ws.length * width := by
  induction ws with
  | nil => rw [List.flatten_nil, List.length_nil, List.length_nil, Nat.zero_mul]
  | cons w ws ih =>
    rw [List.flatten_cons, List.length_append, h w List.mem_cons_self, List.length_cons,
      ih fun v hv => h v (List.mem_cons_of_mem _ hv), Nat.succ_mul, Nat.add_comm]

end MechanismRecord

/-! ## 3. A mechanism -/

/-- What a record keeps of a mechanism: its family suits its domain and its rows the labels, and a
table of weights has a row and rows of one width. -/
structure NodeMechanism.Readable (n : NodeMechanism α) : Prop where
  supports : n.mechanism.family.supports n.domain = true
  labels : Model.labelsMatch n = true
  classes : ∀ bs ws, n.mechanism = .softmaxRegression bs ws → bs ≠ []
  even : ∃ width, ∀ w ∈ n.mechanism.coefficientWidths, w = width

namespace MechanismRecord

theorem domain?_ofMechanism (n : NodeMechanism α) :
    (ofMechanism n).domain? = .ok n.domain := by
  obtain ⟨parents, domain, mechanism⟩ := n
  cases domain <;> rfl

/-- The ten families, one after another: each finds its parameters under their names. -/
theorem mechanism_ofMechanism {n : NodeMechanism α} (h : n.Readable) (id : String) :
    (ofMechanism n).mechanism id n.domain = .ok n.mechanism := by
  obtain ⟨parents, domain, m⟩ := n
  have hfamily : (ofMechanism ⟨parents, domain, m⟩).family = m.family.name := rfl
  have hscalar {name : String} {x : α} (hx : (name, [x]) ∈ m.parameters) :
      (ofMechanism ⟨parents, domain, m⟩).scalar id name = .ok x := scalar_ofMechanism hx id
  have hvector {name : String} {xs : List α} (hxs : (name, xs) ∈ m.parameters) :
      (ofMechanism ⟨parents, domain, m⟩).vector id name = .ok xs := vector_ofMechanism hxs id
  unfold MechanismRecord.mechanism
  rw [hfamily, Family.ofName?_name]
  cases m with
  | staticPrior mean std | marginalGaussian mean std =>
    simp only [Mechanism.family]
    rw [hscalar (.head _), hscalar (.tail _ (.head _))]
    rfl
  | marginalEmpirical values =>
    simp only [Mechanism.family]
    rw [hvector (.head _)]
    rfl
  | marginalBernoulli p =>
    simp only [Mechanism.family]
    rw [hscalar (.head _)]
    rfl
  | marginalCategorical ps =>
    have hlabels : ps.length = domain.labels.length := beq_iff_eq.mp h.labels
    simp only [Mechanism.family]
    rw [hvector (.head _)]
    exact if_pos hlabels
  | linearStatic b cs std | linearRegression b cs std =>
    simp only [Mechanism.family]
    rw [hscalar (.head _), hvector (.tail _ (.head _)), hscalar (.tail _ (.tail _ (.head _)))]
    rfl
  | linearRegressionEmpirical b cs rs =>
    simp only [Mechanism.family]
    rw [hscalar (.head _), hvector (.tail _ (.head _)), hvector (.tail _ (.tail _ (.head _)))]
    rfl
  | logisticRegression b cs =>
    simp only [Mechanism.family]
    rw [hscalar (.head _), hvector (.tail _ (.head _))]
    rfl
  | softmaxRegression bs ws =>
    obtain ⟨hbs, hws⟩ := Bool.and_eq_true_iff.mp h.labels
    have hclasses : bs.length = domain.labels.length := beq_iff_eq.mp hbs
    have hrows : ws.length = bs.length := (beq_iff_eq.mp hws).trans hclasses.symm
    have hpos : 0 < bs.length := List.length_pos_iff.mpr (h.classes bs ws rfl)
    obtain ⟨width, heven⟩ := h.even
    have hwidth : ∀ w ∈ ws, w.length = width := fun w hw => heven _ (List.mem_map_of_mem hw)
    -- the cells are as many as rows times width, so the width is found by division
    have hcells : ws.flatten.length = bs.length * width := by
      rw [length_flatten_rows hwidth, hrows]
    have hsound : ¬(bs.length = 0 ∨ bs.length ≠ domain.labels.length ∨
        ws.flatten.length % bs.length ≠ 0) := by
      rw [hcells, Nat.mul_mod_right]
      omega
    simp only [Mechanism.family]
    rw [hvector (.head _), hvector (.tail _ (.head _))]
    refine (if_neg hsound).trans ?_
    rw [hcells, Nat.mul_div_cancel_left width hpos, ← hrows, rows_flatten hwidth]
    rfl

/-- **A readable mechanism is read as it was written.** -/
theorem toMechanism_ofMechanism {n : NodeMechanism α} (h : n.Readable) (id : String) :
    (ofMechanism n).toMechanism id = .ok n := by
  rw [toMechanism, domain?_ofMechanism]
  show ((ofMechanism n).mechanism id n.domain >>= _) = _
  rw [mechanism_ofMechanism h]
  show (if n.mechanism.family.supports n.domain = true then _ else _) = _
  rw [if_pos h.supports]
  rfl

end MechanismRecord

end CodeCausality
