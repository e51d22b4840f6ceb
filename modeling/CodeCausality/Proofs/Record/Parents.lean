import Mathlib
import CodeCausality.Proofs.Record.RoundTrip

/-!
# Parents in accepted records

Reading compares the parents of a mechanism with those of the graph by their number, and looks up
each of them. That does not see a parent that stands twice.

* `parents_of_accepted` -- **in an accepted record a mechanism has as many parents as its node, all
  of them its node's**; they are these in some order if none stands twice, and else one is missing;
* `doubled`, `toModel_doubled` -- a record with a parent twice and another not at all is accepted.
-/

namespace CodeCausality

/-! ## 1. Accepted entries -/

section Accepted

variable {α : Type}

/-- A list of members of another, as long as that, is that list in some order if it has no
repetition, and only then. -/
theorem nodup_iff_perm {xs ys : List String} (hys : ys.Nodup) (hlength : xs.length = ys.length)
    (hsub : ∀ x ∈ xs, x ∈ ys) : xs.Nodup ↔ xs.Perm ys := by
  constructor
  · intro h
    exact (List.subperm_of_subset h hsub).perm_of_length_le hlength.ge
  · intro h
    exact h.nodup_iff.mpr hys

/-- Then something stands twice exactly if something is missing. -/
theorem not_nodup_iff_missing {xs ys : List String} (hys : ys.Nodup)
    (hlength : xs.length = ys.length) (hsub : ∀ x ∈ xs, x ∈ ys) :
    ¬ xs.Nodup ↔ ∃ y ∈ ys, y ∉ xs := by
  rw [nodup_iff_perm hys hlength hsub]
  constructor
  · intro h
    by_contra hall
    have hsup : ∀ y ∈ ys, y ∈ xs := fun y hy => by_contra fun hne => hall ⟨y, hy, hne⟩
    exact h ((List.subperm_of_subset hys hsup).perm_of_length_le hlength.le).symm
  · rintro ⟨y, hy, hne⟩ h
    exact hne (h.mem_iff.mpr hy)

variable [Scalar α] {r : Record α} {m : Model α}

/-- The entries of an accepted record match the graph and are read. -/
theorem exists_mechanism_of_accepted (hr : r.toModel = .ok m) {id : String} {d : MechanismRecord α}
    (hd : r.mechanisms.get? id = some d) :
    d.parentsMatch m.graph id = true ∧
      ∃ n, m.mechanism? id = some n ∧ d.toMechanism id = .ok n := by
  obtain ⟨-, entries, hentries, hmechanisms⟩ := Model.toModel_eq_ok hr
  have hforall := mapM_eq_ok_iff.mp hentries
  have hkeys : r.mechanisms.entries.map (·.1) = entries.map (·.1) :=
    map_eq_map_of_forall₂ (hforall.imp fun e f h => (readEntry_eq_ok h).2.2.1.symm)
  have hnodup : (entries.map (·.1)).Nodup := hkeys ▸ r.mechanisms.keys_increasing.imp ne_of_lt
  obtain ⟨i, hi⟩ := List.mem_iff_getElem?.mp (r.mechanisms.get?_eq_some_iff.mp hd)
  obtain ⟨⟨id', n⟩, hn, hread⟩ := getElem?_of_mapM hentries hi
  obtain ⟨-, hmatch, hid, hmechanism⟩ := readEntry_eq_ok hread
  obtain rfl : id' = id := hid
  refine ⟨hmatch, n, ?_, hmechanism⟩
  rw [Model.mechanism?, hmechanisms]
  exact Dictionary.get?_ofList_of_nodup hnodup (List.mem_of_getElem? hn)

/-- **In an accepted record a mechanism has as many parents as its node in the graph, and only such.
They are the node's parents in some order exactly if none stands twice; if one does, the mechanism
leaves out a parent of its node.** -/
theorem parents_of_accepted (hr : r.toModel = .ok m) {id : String} {d : MechanismRecord α}
    (hd : r.mechanisms.get? id = some d) :
    (∃ n, m.mechanism? id = some n ∧ n.parents = d.parents) ∧
      d.parents.length = (m.graph.parents id).length ∧
      (∀ p ∈ d.parents, p ∈ m.graph.parents id) ∧
      (d.parents.Nodup ↔ d.parents.Perm (m.graph.parents id)) ∧
      (¬ d.parents.Nodup ↔ ∃ p ∈ m.graph.parents id, p ∉ d.parents) := by
  obtain ⟨hmatch, n, hn, hmechanism⟩ := exists_mechanism_of_accepted hr hd
  obtain ⟨hlength, hsub⟩ := parentsMatch_iff.mp hmatch
  have hnodup : (m.graph.parents id).Nodup := (m.graph.parents_increasing id).imp ne_of_lt
  exact ⟨⟨n, hn, toMechanism_parents hmechanism⟩, hlength, hsub,
    nodup_iff_perm hnodup hlength hsub, not_nodup_iff_missing hnodup hlength hsub⟩

end Accepted

/-! ## 2. A parent that stands twice -/

section Doubled

variable (α : Type) [Scalar α]

/-- Two causes of one effect, whose mechanism has the first of them twice. -/
def doubled : Record α where
  nodes := [.of "n" .namedValue [], .of "p" .namedValue [], .of "y" .namedValue []]
  edges := [⟨"n", "y", .dataFlow, none⟩, ⟨"p", "y", .dataFlow, none⟩]
  mechanisms := .ofList [
    ("n", ⟨"static-prior", "continuous", [], [], .ofList [("mean", [0]), ("std", [1])]⟩),
    ("p", ⟨"static-prior", "continuous", [], [], .ofList [("mean", [0]), ("std", [1])]⟩),
    ("y", ⟨"linear-static", "continuous", ["n", "n"], [],
      .ofList [("intercept", [0]), ("coefficients", [1, 2]), ("noise_std", [1])]⟩)]
  metadata := ⟨"2024-05-06T07:08:09.123456Z", 0, 0.6, true, .empty, .empty, 5⟩

def doubledModel : Model α where
  graph := .of (doubled α).nodes (doubled α).edges
  mechanisms := .ofList [
    ("n", ⟨[], .continuous, .staticPrior 0 1⟩),
    ("p", ⟨[], .continuous, .staticPrior 0 1⟩),
    ("y", ⟨["n", "n"], .continuous, .linearStatic 0 [1, 2] 1⟩)]
  metadata := ⟨⟨1714979289, 123456000⟩, 0, 0.6, true, .empty, .empty, 5⟩

theorem toModel_doubled : (doubled α).toModel = .ok (doubledModel α) := by cbv

theorem parents_doubledModel : (doubledModel α).graph.parents "y" = ["n", "p"] := by cbv

theorem get?_doubled : (doubled α).mechanisms.get? "y" =
    some ⟨"linear-static", "continuous", ["n", "n"], [],
      .ofList [("intercept", [0]), ("coefficients", [1, 2]), ("noise_std", [1])]⟩ := by cbv

end Doubled

/-- The mechanism of `y` leaves out a parent. -/
theorem parents_of_accepted_doubled :
    ∃ p ∈ (doubledModel Float).graph.parents "y", p ∉ ["n", "n"] := by
  obtain ⟨-, -, -, -, hmissing⟩ := parents_of_accepted (toModel_doubled Float) (get?_doubled Float)
  exact hmissing.mp (by decide)

/-- An accepted record whose mechanism of `y` has not the parents of `y` in some order. -/
theorem accepted_with_doubled_parent :
    ∃ m d, (doubled Float).toModel = .ok m ∧ (doubled Float).mechanisms.get? "y" = some d ∧
      ¬ d.parents.Nodup ∧ ¬ d.parents.Perm (m.graph.parents "y") ∧
      ∃ p ∈ m.graph.parents "y", p ∉ d.parents := by
  refine ⟨_, _, toModel_doubled Float, get?_doubled Float, by decide, ?_, ?_⟩
  · rw [parents_doubledModel]
    decide
  · rw [parents_doubledModel]
    exact ⟨"p", by decide, by decide⟩

end CodeCausality
