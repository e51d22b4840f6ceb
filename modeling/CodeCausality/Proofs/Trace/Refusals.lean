import CodeCausality.Proofs.Numeric.Whole
import CodeCausality.Proofs.Trace.Columns

/-!
# Which columns are refused, and why

A column is read if and only if every row has a value at the node, all of one kind, and every number
is finite. The reason of a refusal is that of the first row which is at fault, seen from the first
row's kind.

* `Fits`, `CellFault` -- what a row offers to a column of one kind, and what is wrong if it does not;
* `Refused` -- **why a whole column is refused**: no row has the node, or the first faulty row;
* `Domain.Stands` -- what a code stands for: a number for itself, 0 and 1 for the truth values, a
  position for the label there;
* `column_characterised` -- **the column of every table and node**: when there is one, the reason
  if there is none, and that each code stands for the cell it came from.
-/

namespace CodeCausality

/-! ## 1. What codes stand for -/

section Decoding

variable {α : Type} [Scalar α]

/-- `x` is the code of `v`: the number itself, 0 or 1, or the position of a label. -/
inductive Domain.Stands : Domain → α → Value α → Prop where
  | number (x : α) : Domain.Stands .continuous x (.number x)
  | boolean (b : Bool) : Domain.Stands .boolean (Scalar.indicator b) (.boolean b)
  | category {labels : List String} {i : Nat} {label : String} (h : labels[i]? = some label) :
      Domain.Stands (.categorical labels) (Scalar.ofNat i) (.category label)

variable {d : Domain} {x : α} {v : Value α}

/-- A code that is found for a value stands for it. -/
theorem Domain.stands_of_encode? (h : d.encode? v = some x) : d.Stands x v := by
  cases d with
  | continuous =>
    cases v with
    | number y =>
      obtain ⟨-, hx⟩ := Option.ite_none_right_eq_some.mp h
      obtain rfl := Option.some.inj hx
      exact .number y
    | boolean | category => exact nomatch h
  | boolean =>
    cases v with
    | boolean b =>
      obtain rfl := Option.some.inj h
      exact .boolean b
    | number | category => exact nomatch h
  | categorical labels =>
    cases v with
    | category label =>
      obtain ⟨i, hi, rfl⟩ := Option.map_eq_some_iff.mp h
      obtain ⟨hlength, hlabel, -⟩ := List.idxOf?_eq_some_iff.mp hi
      exact .category (List.getElem?_eq_some_iff.mpr ⟨hlength, hlabel⟩)
    | number | boolean => exact nomatch h

/-- **What a code stands for is what it is decoded to**, in an arithmetic that counts as far as there
are labels. -/
theorem Domain.Stands.decode? (h : d.Stands x v) (hcounts : Scalar.Counts α d.labels.length) :
    d.decode? x = some v := by
  cases h with
  | number => rfl
  | boolean b =>
    cases b with
    | false => exact if_pos hcounts.zero
    | true => exact (if_neg (Bool.eq_false_iff.mp hcounts.one_ne_zero)).trans (if_pos hcounts.one)
  | category hlabel =>
    obtain ⟨hlength, -⟩ := List.getElem?_eq_some_iff.mp hlabel
    rw [Domain.decode?, hcounts.floor_ofNat _ hlength, hlabel]
    rfl

end Decoding

namespace TraceTable

variable {α : Type} [Scalar α]

/-! ## 2. Rows at fault -/

/-- The row has a value of the given kind at the node, and if that is a number it is finite. -/
def Fits (node : String) (kind : ValueKind) (r : TraceRow α) : Prop :=
  ∃ v, r.get? node = some v ∧ v.kind = kind ∧ ∀ x, v = .number x → Scalar.isFinite x = true

/-- What is wrong with the cell of a row, where the cells above are of the given kind: a gap, or
else another kind, or else a number that is not finite. -/
inductive CellFault (node : String) (kind : ValueKind) (row : Nat) :
    Option (Value α) → ColumnError → Prop where
  | gap : CellFault node kind row none (.missingValue node row)
  | mixed {v : Value α} (h : v.kind ≠ kind) :
      CellFault node kind row (some v) (.mixed node kind v.kind)
  | nonFinite {x : α} (h : kind = .number) (hx : Scalar.isFinite x = false) :
      CellFault node kind row (some (.number x)) (.nonFinite node row)

theorem isNonFinite_eq_false_iff {v : Value α} :
    isNonFinite v = false ↔ ∀ x, v = .number x → Scalar.isFinite x = true := by
  cases v with
  | number x =>
    rw [show isNonFinite (.number x) = !Scalar.isFinite x from rfl, Bool.not_eq_false']
    exact ⟨fun h _ hy => Value.number.inj hy ▸ h, fun h => h x rfl⟩
  | boolean | category => exact iff_of_true rfl fun _ h => nomatch h

variable {node : String} {kind : ValueKind} {row : Nat} {r : TraceRow α} {rs : List (TraceRow α)}
  {e : ColumnError}

/-- A cell that is not at fault is a value of the kind, and the other way round. -/
theorem fits_or_fault (node : String) (kind : ValueKind) (row : Nat) (r : TraceRow α) :
    Fits node kind r ∨ ∃ e, CellFault node kind row (r.get? node) e := by
  cases hget : r.get? node with
  | none => exact .inr ⟨_, .gap⟩
  | some v =>
    by_cases hkind : v.kind = kind
    · cases hfinite : isNonFinite v with
      | false => exact .inl ⟨v, hget, hkind, isNonFinite_eq_false_iff.mp hfinite⟩
      | true =>
        cases v with
        | number x => exact .inr ⟨_, .nonFinite hkind.symm (Bool.not_eq_eq_eq_not.mp hfinite)⟩
        | boolean | category => exact nomatch hfinite
    · exact .inr ⟨_, .mixed hkind⟩

theorem CellFault.not_fits (h : CellFault node kind row (r.get? node) e) : ¬ Fits node kind r := by
  rintro ⟨v, hget, hkind, hfinite⟩
  rw [hget] at h
  cases h with
  | mixed hne => exact hne hkind
  | nonFinite _ hx => exact Bool.false_ne_true (hx.symm.trans (hfinite _ rfl))

/-! ## 3. One row, and then the others -/

/-- A row that fits is passed. -/
theorem cells_of_fits (h : Fits node kind r) (row : Nat) (rs : List (TraceRow α)) : ∃ v,
    cells node (some kind) row (r :: rs) =
      (cells node (some kind) (row + 1) rs).map (v :: ·) := by
  obtain ⟨v, hget, hkind, hfinite⟩ := h
  refine ⟨v, ?_⟩
  rw [cells, hget]
  dsimp only
  rw [Option.getD_some, if_neg (not_not_intro hkind), isNonFinite_eq_false_iff.mpr hfinite,
    if_neg Bool.false_ne_true]

/-- A row at fault ends the reading, with what is wrong there. -/
theorem cells_of_fault (h : CellFault node kind row (r.get? node) e) :
    cells node (some kind) row (r :: rs) = .error e := by
  generalize hget : r.get? node = cell at h
  cases h with
  | gap => rw [cells, hget]
  | mixed hkind =>
    rw [cells, hget]
    exact if_pos hkind
  | nonFinite hkind hx =>
    obtain rfl := hkind
    rw [cells, hget]
    exact (if_neg (not_not_intro rfl)).trans (if_pos (congrArg not hx))

/-- Each fault has one reason. -/
theorem CellFault.unique {e' : ColumnError} (h : CellFault node kind row (r.get? node) e)
    (h' : CellFault node kind row (r.get? node) e') : e = e' := by
  have hcells : cells node (some kind) row [r] = .error e := cells_of_fault h
  exact Except.error.inj (hcells.symm.trans (cells_of_fault h'))

/-- Without a kind to go by, that of the first row's value is taken. -/
theorem cells_none (h : ∀ r ∈ rs.head?, ∀ v, r.get? node = some v → v.kind = kind) :
    cells node none row rs = cells node (some kind) row rs := by
  cases rs with
  | nil => rfl
  | cons r rest =>
    rw [cells, cells]
    cases hget : r.get? node with
    | none => rfl
    | some v =>
      obtain rfl := h r rfl v hget
      rfl

/-- **The reading succeeds if and only if every row fits.** -/
theorem exists_cells_iff :
    (∃ vs, cells node (some kind) row rs = .ok vs) ↔ ∀ r ∈ rs, Fits node kind r := by
  induction rs generalizing row with
  | nil => exact iff_of_true ⟨[], rfl⟩ fun _ h => absurd h List.not_mem_nil
  | cons r rest ih =>
    rw [List.forall_mem_cons]
    rcases fits_or_fault node kind row r with hfits | ⟨e, hfault⟩
    · obtain ⟨v, hcells⟩ := cells_of_fits hfits row rest
      have hrest : (∃ vs, cells node (some kind) (row + 1) rest = .ok vs) ↔ _ := ih
      rw [hcells, and_iff_right hfits, ← hrest]
      constructor
      · rintro ⟨vs, hvs⟩
        obtain ⟨tail, htail, -⟩ := map_eq_ok_iff.mp hvs
        exact ⟨tail, htail⟩
      · rintro ⟨tail, htail⟩
        exact ⟨v :: tail, map_eq_ok_iff.mpr ⟨tail, htail, rfl⟩⟩
    · rw [cells_of_fault hfault]
      exact iff_of_false (fun ⟨_, h⟩ => nomatch h) fun h => hfault.not_fits h.1

/-- **Otherwise the first row at fault is named.** -/
theorem cells_eq_error_iff :
    cells node (some kind) row rs = .error e ↔ ∃ before r after, rs = before ++ r :: after ∧
      (∀ q ∈ before, Fits node kind q) ∧
        CellFault node kind (row + before.length) (r.get? node) e := by
  induction rs generalizing row with
  | nil => exact iff_of_false (fun h => nomatch h) fun ⟨_, _, _, h, _⟩ => by simp at h
  | cons r rest ih =>
    rcases fits_or_fault node kind row r with hfits | ⟨d, hfault⟩
    · obtain ⟨v, hcells⟩ := cells_of_fits hfits row rest
      rw [hcells, map_eq_error_iff, ih]
      constructor
      · rintro ⟨before, q, after, rfl, hbefore, hq⟩
        refine ⟨r :: before, q, after, rfl, List.forall_mem_cons.mpr ⟨hfits, hbefore⟩, ?_⟩
        rwa [List.length_cons, Nat.add_comm before.length, ← Nat.add_assoc]
      · rintro ⟨before, q, after, heq, hbefore, hq⟩
        cases before with
        | nil =>
          obtain ⟨rfl, -⟩ := List.cons.inj heq
          exact absurd hfits hq.not_fits
        | cons b before =>
          obtain ⟨-, rfl⟩ := List.cons.inj heq
          refine ⟨before, q, after, rfl, (List.forall_mem_cons.mp hbefore).2, ?_⟩
          rwa [List.length_cons, Nat.add_comm before.length, ← Nat.add_assoc] at hq
    · rw [cells_of_fault hfault]
      constructor
      · intro h
        exact ⟨[], r, rest, rfl, fun _ hq => absurd hq List.not_mem_nil,
          Except.error.inj h ▸ hfault⟩
      · rintro ⟨before, q, after, heq, hbefore, hq⟩
        cases before with
        | nil =>
          obtain ⟨rfl, -⟩ := List.cons.inj heq
          exact congrArg _ (hfault.unique hq)
        | cons b before =>
          obtain ⟨rfl, -⟩ := List.cons.inj heq
          exact absurd (hbefore _ List.mem_cons_self) hfault.not_fits

/-! ## 4. The whole column -/

/-- The kind of the first row's value. A first row without one is refused whatever this says. -/
def firstKind (t : TraceTable α) (node : String) : ValueKind :=
  ((t.rows.head?.bind (·.get? node)).map Value.kind).getD .number

/-- Why the column of `node` is refused: no row has the node, or else what is wrong with the first
row at fault. -/
inductive Refused (t : TraceTable α) (node : String) : ColumnError → Prop where
  | missing (h : ∀ r ∈ t.rows, r.get? node = none) : Refused t node (.missing node)
  | row {before after : List (TraceRow α)} {r : TraceRow α} {e : ColumnError}
      (hrows : t.rows = before ++ r :: after) (hpresent : ∃ q ∈ t.rows, q.get? node ≠ none)
      (hbefore : ∀ q ∈ before, Fits node (t.firstKind node) q)
      (hfault : CellFault node (t.firstKind node) before.length (r.get? node) e) :
      Refused t node e

variable {t : TraceTable α}

omit [Scalar α] in
theorem kind_eq_firstKind {v : Value α} (hr : t.rows.head? = some r) (hv : r.get? node = some v) :
    v.kind = t.firstKind node := by
  rw [firstKind, hr, Option.bind_some, hv]
  rfl

omit [Scalar α] in
theorem any_contains_iff :
    t.rows.any (·.contains node) = true ↔ ∃ q ∈ t.rows, q.get? node ≠ none := by
  simp only [List.any_eq_true, Dictionary.contains, Option.isSome_iff_ne_none]

theorem column_of_present (h : ∃ q ∈ t.rows, q.get? node ≠ none) :
    t.column node = (cells node (some (t.firstKind node)) 0 t.rows).map fun vs =>
      ⟨domainOf vs, vs.map fun v => ((domainOf vs).encode? v).getD 0⟩ := by
  rw [column, if_pos (any_contains_iff.mpr h),
    cells_none fun r hr v hv => kind_eq_firstKind hr hv]

theorem column_of_absent (h : ¬ ∃ q ∈ t.rows, q.get? node ≠ none) :
    t.column node = .error (.missing node) :=
  if_neg fun hany => h (any_contains_iff.mp hany)

/-- **There is a column if and only if there is a row and every row fits one kind.** -/
theorem exists_column_iff :
    (∃ c, t.column node = .ok c) ↔ t.rows ≠ [] ∧ ∃ kind, ∀ r ∈ t.rows, Fits node kind r := by
  by_cases hpresent : ∃ q ∈ t.rows, q.get? node ≠ none
  · have hne : t.rows ≠ [] := by
      obtain ⟨q, hq, -⟩ := hpresent
      exact List.ne_nil_of_mem hq
    have hcells : (∃ c, t.column node = .ok c) ↔
        ∃ vs, cells node (some (t.firstKind node)) 0 t.rows = .ok vs := by
      rw [column_of_present hpresent]
      simp only [map_eq_ok_iff]
      exact ⟨fun ⟨_, vs, hvs, _⟩ => ⟨vs, hvs⟩, fun ⟨vs, hvs⟩ => ⟨_, vs, hvs, rfl⟩⟩
    rw [hcells, exists_cells_iff, and_iff_right hne]
    refine ⟨fun h => ⟨_, h⟩, fun ⟨kind, h⟩ => ?_⟩
    obtain ⟨r, rest, hrows⟩ := List.exists_cons_of_ne_nil hne
    obtain ⟨v, hv, hkind, -⟩ := h r (hrows ▸ List.mem_cons_self)
    rw [← kind_eq_firstKind (by rw [hrows]; rfl) hv, hkind]
    exact h
  · rw [column_of_absent hpresent]
    refine iff_of_false (fun ⟨_, h⟩ => nomatch h) fun ⟨hne, kind, h⟩ => hpresent ?_
    obtain ⟨r, hr⟩ := List.exists_mem_of_ne_nil _ hne
    obtain ⟨v, hv, -⟩ := h r hr
    exact ⟨r, hr, by rw [hv]; exact Option.some_ne_none v⟩

/-- **And if there is none, the reason is as `Refused` says.** -/
theorem column_eq_error_iff : t.column node = .error e ↔ Refused t node e := by
  by_cases hpresent : ∃ q ∈ t.rows, q.get? node ≠ none
  · rw [column_of_present hpresent, map_eq_error_iff, cells_eq_error_iff]
    simp only [Nat.zero_add]
    constructor
    · rintro ⟨before, r, after, hrows, hbefore, hfault⟩
      exact .row hrows hpresent hbefore hfault
    · intro h
      cases h with
      | missing h =>
        obtain ⟨q, hq, hne⟩ := hpresent
        exact absurd (h q hq) hne
      | row hrows _ hbefore hfault => exact ⟨_, _, _, hrows, hbefore, hfault⟩
  · rw [column_of_absent hpresent]
    constructor
    · intro h
      obtain rfl := Except.error.inj h
      exact .missing fun r hr => Classical.not_not.mp fun hne => hpresent ⟨r, hr, hne⟩
    · intro h
      cases h with
      | missing => rfl
      | row _ h => exact absurd h hpresent

/-! ## 5. The domain that is found -/

omit [Scalar α] in
/-- The labels found for values of one kind are strictly increasing. -/
theorem labels_domainOf_increasing (vs : List (Value α)) :
    (domainOf vs).labels.Pairwise (· < ·) := by
  match vs with
  | [] | .boolean _ :: _ | .number _ :: _ => exact .nil
  | .category _ :: _ => exact sortedIds_increasing _

omit [Scalar α] in
/-- They are the categories that occur. -/
theorem mem_labels_domainOf {vs : List (Value α)} (h : ∀ v ∈ vs, v.kind = kind) {label : String} :
    label ∈ (domainOf vs).labels ↔ .category label ∈ vs := by
  cases vs with
  | nil => exact iff_of_false List.not_mem_nil List.not_mem_nil
  | cons w rest =>
    have hkind : Value.category label ∈ w :: rest → w.kind = .category := fun hmem =>
      (h w List.mem_cons_self).trans (h _ hmem).symm
    cases w with
    | boolean | number => exact iff_of_false List.not_mem_nil fun hmem => nomatch hkind hmem
    | category c =>
      rw [show (domainOf (.category c :: rest)).labels = sortedIds (c :: rest.filterMap label?) from
        rfl, mem_sortedIds, List.mem_cons, List.mem_cons, List.mem_filterMap, Value.category.injEq]
      refine or_congr_right ⟨?_, fun hmem => ⟨_, hmem, rfl⟩⟩
      rintro ⟨v, hv, hlabel⟩
      cases v with
      | category c => exact Option.some.inj hlabel ▸ hv
      | boolean | number => exact nomatch hlabel

/-- The labels of a column are strictly increasing, and those that occur at the node. -/
theorem labels_of_column {c : Column α} (h : t.column node = .ok c) :
    c.domain.labels.Pairwise (· < ·) ∧ ∀ label, label ∈ c.domain.labels ↔
      ∃ r ∈ t.rows, r.get? node = some (.category label) := by
  rw [column] at h
  split at h
  · obtain ⟨vs, hvs, rfl⟩ := map_eq_ok_iff.mp h
    obtain ⟨kind, -, hcells⟩ := forall₂_of_cells hvs
    refine ⟨labels_domainOf_increasing vs, fun label => ?_⟩
    have hkinds : ∀ v ∈ vs, v.kind = kind := by
      intro v hv
      obtain ⟨_, -, -, hkind, -⟩ := exists_of_mem_forall₂ hcells hv
      exact hkind
    rw [mem_labels_domainOf hkinds]
    constructor
    · intro hmem
      obtain ⟨r, hr, hget, -⟩ := exists_of_mem_forall₂ hcells hmem
      exact ⟨r, hr, hget⟩
    · rintro ⟨r, hr, hget⟩
      obtain ⟨v, hv, hget', -⟩ := exists_of_mem_forall₂ hcells.flip hr
      exact Option.some.inj (hget.symm.trans hget') ▸ hv
  · cases h

/-- **The column of every table and every node**: when there is one, which reason there is for none,
and that a column has one code a row, found for the cell there, which it stands for and is decoded
to again. -/
theorem column_characterised (t : TraceTable α) (node : String) :
    ((∃ c, t.column node = .ok c) ↔ t.rows ≠ [] ∧ ∃ kind, ∀ r ∈ t.rows, Fits node kind r) ∧
    (∀ e, t.column node = .error e ↔ Refused t node e) ∧
    ∀ c, t.column node = .ok c →
      List.Forall₂ (fun r x => ∃ v, r.get? node = some v ∧ c.domain.encode? v = some x ∧
        c.domain.Stands x v ∧
          (Scalar.Counts α c.domain.labels.length → c.domain.decode? x = some v)) t.rows c.codes ∧
      c.domain.labels.Pairwise (· < ·) ∧
      ∀ label, label ∈ c.domain.labels ↔ ∃ r ∈ t.rows, r.get? node = some (.category label) := by
  refine ⟨exists_column_iff, fun e => column_eq_error_iff, fun c hc => ⟨?_, labels_of_column hc⟩⟩
  refine (forall₂_codes_of_column hc).imp fun r x h => ?_
  obtain ⟨v, hget, hcode⟩ := Option.bind_eq_some_iff.mp h
  have hstands := Domain.stands_of_encode? hcode
  exact ⟨v, hget, hcode, hstands, hstands.decode?⟩

end TraceTable

end CodeCausality
