import Mathlib.Data.List.Forall2
import CodeCausality.Proofs.Sorted
import CodeCausality.Proofs.Traversal
import CodeCausality.Trace

/-!
# Columns of a trace table

A column is read row by row, and then all its values are encoded in the domain that the first one
decides.

* `forall₂_of_cells` -- the values are those of the rows, all of one kind, and finite;
* `exists_encode?_domainOf` -- such values belong to the domain that is found for them;
* `forall₂_codes_of_column` -- **so there is one code for each row, and it is that of the row's
  value**: the zero that stands for a value without a code never does.
-/

namespace CodeCausality

namespace TraceTable

variable {α : Type} [Scalar α] {node : String}

/-- **The values that are read stand in the rows, and are of the kind that the first one has.** -/
theorem forall₂_of_cells {first : Option ValueKind} {row : Nat} {rs : List (TraceRow α)}
    {vs : List (Value α)} (h : cells node first row rs = .ok vs) :
    ∃ kind, (∀ k, first = some k → kind = k) ∧
      List.Forall₂ (fun r v => r.get? node = some v ∧ v.kind = kind ∧ isNonFinite v = false)
        rs vs := by
  induction rs generalizing first row vs with
  | nil =>
    cases h
    exact ⟨first.getD .number, fun k hk => by rw [hk]; rfl, .nil⟩
  | cons r rest ih =>
    rw [cells] at h
    split at h
    · cases h
    · rename_i v hv
      dsimp only at h
      split at h
      · cases h
      · rename_i hkind
        split at h
        · cases h
        · rename_i hfinite
          obtain ⟨tail, htail, rfl⟩ := map_eq_ok_iff.mp h
          obtain ⟨kind, hfirst, hrest⟩ := ih htail
          have hkind' : kind = first.getD v.kind := hfirst _ rfl
          refine ⟨kind, fun k hk => ?_, .cons ⟨hv, ?_, Bool.eq_false_iff.mpr hfinite⟩ hrest⟩
          · rw [hkind', hk]
            rfl
          · rw [hkind']
            exact Classical.not_not.mp hkind

/-- **Finite values of one kind belong to the domain that is found for them.** One case for each kind
of the first value. -/
theorem exists_encode?_domainOf {vs : List (Value α)} {kind : ValueKind}
    (h : ∀ v ∈ vs, v.kind = kind ∧ isNonFinite v = false) {v : Value α} (hv : v ∈ vs) :
    ∃ x, (domainOf vs).encode? v = some x := by
  cases vs with
  | nil => exact absurd hv List.not_mem_nil
  | cons w rest =>
    have hkind : v.kind = w.kind := (h v hv).1.trans (h w List.mem_cons_self).1.symm
    cases w with
    | boolean b =>
      cases v with
      | boolean c => exact ⟨_, rfl⟩
      | number | category => exact nomatch hkind
    | number y =>
      cases v with
      | number x =>
        have hx : (!Scalar.isFinite x) = false := (h _ hv).2
        rw [Bool.not_eq_false'] at hx
        exact ⟨x, if_pos hx⟩
      | boolean | category => exact nomatch hkind
    | category c =>
      cases v with
      | category d =>
        have hd : d ∈ sortedIds (c :: rest.filterMap label?) := by
          rw [mem_sortedIds]
          rcases List.mem_cons.mp hv with heq | hv
          · exact List.mem_cons.mpr (.inl (Value.category.inj heq))
          · exact List.mem_cons_of_mem _ (List.mem_filterMap.mpr ⟨_, hv, rfl⟩)
        obtain ⟨k, hk⟩ := Option.isSome_iff_exists.mp (List.isSome_idxOf?.mpr hd)
        exact ⟨Scalar.ofNat k, Option.map_eq_some_iff.mpr ⟨k, hk, rfl⟩⟩
      | boolean | number => exact nomatch hkind

/-- **A column has one code for each row: that of the row's value.** -/
theorem forall₂_codes_of_column {t : TraceTable α} {c : Column α} (h : t.column node = .ok c) :
    List.Forall₂ (fun r x => (r.get? node).bind c.domain.encode? = some x) t.rows c.codes := by
  rw [column] at h
  split at h
  · obtain ⟨vs, hvs, rfl⟩ := map_eq_ok_iff.mp h
    obtain ⟨kind, -, hcells⟩ := forall₂_of_cells hvs
    have hall : ∀ v ∈ vs, v.kind = kind ∧ isNonFinite v = false := fun v hv => by
      obtain ⟨r, -, -, hv⟩ := exists_of_mem_forall₂ hcells hv
      exact hv
    have hmem := (List.forall₂_and_left _ _).mpr ⟨fun v (hv : v ∈ vs) => hv, hcells.flip⟩
    dsimp only
    rw [List.forall₂_map_right_iff]
    refine (hmem.imp fun v r hr => ?_).flip
    obtain ⟨hv, hget, -⟩ := hr
    obtain ⟨x, hx⟩ := exists_encode?_domainOf hall hv
    show (r.get? node).bind (domainOf vs).encode? = some (((domainOf vs).encode? v).getD 0)
    rw [hget, Option.bind_some, hx, Option.getD_some]
  · cases h

end TraceTable

end CodeCausality
