import CodeCausality.Proofs.Record.Parents
import CodeCausality.Proofs.Time.Reread

/-!
# Records of loaded models

Writing a loaded model normalises its record: labels and parameters that nothing uses are dropped,
edges are merged and sorted, weights are cut into rows anew, the time is that of universal time in
microseconds. What is normalised must pass the checks of reading again.

* `readable_of_toMechanism` -- a mechanism that is read is readable;
* `recordable_of_toModel` -- **an accepted model is recordable, if its time is**;
* `toModel_fittedOn_of_fault` -- the time is checked last, and can be the only fault;
* `accepted_records_reload` -- **the record of a loaded model is accepted and written again as it is
  exactly if the year of its time, in universal time, has four digits**;
* `lateRecord`, `accepted_record_is_refused_when_rewritten` -- an accepted record that is refused
  once it was loaded and written.
-/

namespace CodeCausality

/-! ## 1. A mechanism -/

namespace MechanismRecord

variable {α : Type}

theorem length_rows (width n : Nat) (xs : List α) : (rows width n xs).length = n := by
  induction n generalizing xs with
  | zero => rfl
  | succ n ih => rw [rows, List.length_cons, ih]

/-- The rows that a table is cut into are of the width asked for. -/
theorem length_of_mem_rows {width n : Nat} {xs : List α} (h : xs.length = n * width) :
    ∀ w ∈ rows width n xs, w.length = width := by
  induction n generalizing xs with
  | zero => exact fun w hw => absurd hw List.not_mem_nil
  | succ n ih =>
    rw [Nat.succ_mul] at h
    intro w hw
    rcases List.mem_cons.mp hw with rfl | hw
    · rw [List.length_take]
      omega
    · refine ih ?_ w hw
      rw [List.length_drop]
      omega

variable {id : String} {d : MechanismRecord α} {domain : Domain} {m : Mechanism α}

/-- The ten families, one after another: where labels or rows matter they were compared. -/
theorem readable_of_mechanism (h : d.mechanism id domain = .ok m)
    (hsupports : m.family.supports domain = true) :
    NodeMechanism.Readable ⟨d.parents, domain, m⟩ := by
  unfold MechanismRecord.mechanism at h
  cases hfamily : Family.ofName? d.family with
  | none =>
    rw [hfamily] at h
    cases h
  | some family =>
    rw [hfamily] at h
    cases family with
    | staticPrior | marginalGaussian =>
      obtain ⟨mean, -, h⟩ := bind_eq_ok_iff.mp h
      obtain ⟨std, -, h⟩ := bind_eq_ok_iff.mp h
      cases h
      exact ⟨hsupports, rfl, nofun, 0, nofun⟩
    | marginalEmpirical | marginalBernoulli =>
      obtain ⟨parameter, -, h⟩ := bind_eq_ok_iff.mp h
      cases h
      exact ⟨hsupports, rfl, nofun, 0, nofun⟩
    | marginalCategorical =>
      obtain ⟨ps, -, h⟩ := bind_eq_ok_iff.mp h
      split at h
      · rename_i hlabels
        cases h
        exact ⟨hsupports, beq_iff_eq.mpr hlabels, nofun, 0, nofun⟩
      · cases h
    | linearStatic | linearRegression | linearRegressionEmpirical =>
      obtain ⟨b, -, h⟩ := bind_eq_ok_iff.mp h
      obtain ⟨cs, -, h⟩ := bind_eq_ok_iff.mp h
      obtain ⟨noise, -, h⟩ := bind_eq_ok_iff.mp h
      cases h
      exact ⟨hsupports, rfl, nofun, cs.length, fun w hw => List.mem_singleton.mp hw⟩
    | logisticRegression =>
      obtain ⟨b, -, h⟩ := bind_eq_ok_iff.mp h
      obtain ⟨cs, -, h⟩ := bind_eq_ok_iff.mp h
      cases h
      exact ⟨hsupports, rfl, nofun, cs.length, fun w hw => List.mem_singleton.mp hw⟩
    | softmaxRegression =>
      obtain ⟨bs, -, h⟩ := bind_eq_ok_iff.mp h
      obtain ⟨flat, -, h⟩ := bind_eq_ok_iff.mp h
      dsimp only at h
      split at h
      · obtain ⟨_, hfault, -⟩ := bind_eq_ok_iff.mp h
        cases hfault
      · rename_i hsound
        cases h
        have hclasses : bs.length = domain.labels.length := by omega
        have hcells : flat.length = bs.length * (flat.length / bs.length) := by
          have hdiv := Nat.div_add_mod flat.length bs.length
          omega
        refine ⟨hsupports, ?_, ?_, flat.length / bs.length, ?_⟩
        · simp [Model.labelsMatch, length_rows, hclasses]
        · rintro bs' ws' heq rfl
          cases heq
          simp at hsound
        · intro w hw
          obtain ⟨row, hrow, rfl⟩ := List.mem_map.mp hw
          exact length_of_mem_rows hcells row hrow

/-- **A mechanism that is read is readable.** -/
theorem readable_of_toMechanism {n : NodeMechanism α} (h : d.toMechanism id = .ok n) :
    n.Readable := by
  unfold toMechanism at h
  obtain ⟨domain, -, h⟩ := bind_eq_ok_iff.mp h
  obtain ⟨m, hm, h⟩ := bind_eq_ok_iff.mp h
  split at h
  · rename_i hsupports
    cases h
    exact readable_of_mechanism hm hsupports
  · cases h

end MechanismRecord

/-! ## 2. Accepted models -/

section Accepted

variable {α : Type} [Scalar α] {r : Record α} {m : Model α}

/-- The model with another time of fitting. -/
def Model.fittedOn (m : Model α) (t : Instant) : Model α :=
  { m with metadata := { m.metadata with fittedAt := t } }

/-- The record with another time of fitting. -/
def Record.fittedOn (r : Record α) (text : String) : Record α :=
  { r with metadata := { r.metadata with fittedAt := text } }

/-- The last stages of reading an accepted record: the widths are compared and the time is read. -/
theorem toModel_checked (h : r.toModel = .ok m) :
    checkAll (checkWidths m.mechanisms) m.mechanisms.entries = .ok () ∧
      Timestamp.read r.metadata.fittedAt = .ok m.metadata.fittedAt := by
  obtain ⟨hgraph, entries, hentries, hmechanisms⟩ := Model.toModel_eq_ok h
  unfold Record.toModel at h
  rw [hgraph] at h
  obtain ⟨_, hg, h⟩ := bind_eq_ok_iff.mp h
  cases hg
  obtain ⟨entries', hentries', h⟩ := bind_eq_ok_iff.mp h
  obtain rfl := Except.ok.inj (hentries.symm.trans hentries')
  obtain ⟨_, hwidths, h⟩ := bind_eq_ok_iff.mp h
  rw [hmechanisms]
  refine ⟨hwidths, ?_⟩
  cases htime : Timestamp.read r.metadata.fittedAt with
  | error fault =>
    rw [htime] at h
    obtain ⟨_, hfault, -⟩ := bind_eq_ok_iff.mp h
    cases hfault
  | ok t =>
    rw [htime] at h
    obtain ⟨_, ht, h⟩ := bind_eq_ok_iff.mp h
    cases ht
    exact congrArg (fun m : Model α => Except.ok m.metadata.fittedAt) (Except.ok.inj h)

/-- The mechanisms of an accepted model are those of entries that were read. -/
theorem exists_entry_of_accepted (h : r.toModel = .ok m) {id : String} {n : NodeMechanism α}
    (hn : m.mechanism? id = some n) :
    ∃ d : MechanismRecord α, id ∈ m.graph.ids ∧ d.parentsMatch m.graph id = true ∧
      d.toMechanism id = .ok n := by
  obtain ⟨-, entries, hentries, hmechanisms⟩ := Model.toModel_eq_ok h
  rw [Model.mechanism?, hmechanisms] at hn
  obtain ⟨⟨id', d⟩, -, hread⟩ :=
    exists_of_mem_mapM hentries (Dictionary.mem_of_get?_ofList hn)
  obtain ⟨hknown, hmatch, hid, hmechanism⟩ := readEntry_eq_ok hread
  obtain rfl : id = id' := hid
  exact ⟨d, hknown, hmatch, hmechanism⟩

/-- **An accepted model is recordable, if its time is.** -/
theorem recordable_of_toModel (h : r.toModel = .ok m) {t : Instant}
    (ht : Timestamp.read t.text = .ok t) : (m.fittedOn t).Recordable where
  graph := CausalGraph.wellFormed_of_ofParts (Model.toModel_eq_ok h).1
  known id n hn := by
    obtain ⟨d, hknown, -⟩ := exists_entry_of_accepted h hn
    exact hknown
  parents id n hn := by
    obtain ⟨d, -, hmatch, hmechanism⟩ := exists_entry_of_accepted h hn
    rw [toMechanism_parents hmechanism]
    exact parentsMatch_iff.mp hmatch
  readable id n hn := by
    obtain ⟨d, -, -, hmechanism⟩ := exists_entry_of_accepted h hn
    exact MechanismRecord.readable_of_toMechanism hmechanism
  widths id n hn width hwidth w hw := by
    have hmem : (id, n) ∈ m.mechanisms.entries := m.mechanisms.get?_eq_some_iff.mp hn
    have hchecked := checkAll_eq_ok_iff.mp (toModel_checked h).1 (id, n) hmem
    have hwidth' : expectedWidth m.mechanisms n.parents = some width := hwidth
    unfold checkWidths at hchecked
    simp only [hwidth'] at hchecked
    split at hchecked
    · rename_i hall
      exact beq_iff_eq.mp (List.all_eq_true.mp hall w hw)
    · cases hchecked
  fittedAt := ht

/-- The time is checked last: with another time that is none, an accepted record is refused for
that. -/
theorem toModel_fittedOn_of_fault (h : r.toModel = .ok m) {text : String} {fault : TimestampFault}
    (hfault : Timestamp.read text = .error fault) :
    (r.fittedOn text).toModel = .error (.invalidTimestamp text fault) := by
  obtain ⟨hgraph, entries, hentries, hmechanisms⟩ := Model.toModel_eq_ok h
  obtain ⟨hwidths, -⟩ := toModel_checked h
  rw [hmechanisms] at hwidths
  unfold Record.toModel Record.fittedOn
  simp only [hgraph, hfault]
  show (r.mechanisms.entries.mapM (MechanismRecord.readEntry m.graph) >>= _) = _
  rw [hentries]
  show (checkAll (checkWidths (Dictionary.ofList entries)) (Dictionary.ofList entries).entries
    >>= _) = _
  rw [hwidths]
  rfl

omit [Scalar α] in
/-- What is finer than a microsecond does not show in the record. -/
theorem ofModel_fittedOn_toMicros (m : Model α) :
    Record.ofModel (m.fittedOn m.metadata.fittedAt.toMicros) = Record.ofModel m := by
  simp only [Record.ofModel, Model.fittedOn, Instant.text_toMicros]

/-! ## 3. Loading what was written of a loaded model -/

/-- **A loaded model is written as a record that is accepted if the year of its time, in universal
time, has four digits: it is loaded as the same model, up to a microsecond, and written as the same
record. In any other year the record is refused for its time, however well the rest is formed.** -/
theorem accepted_records_reload (h : r.toModel = .ok m) :
    (0 ≤ m.metadata.fittedAt.year ∧ m.metadata.fittedAt.year ≤ 9999 →
      ∃ again, (Record.ofModel m).toModel = .ok again ∧
        again = m.fittedOn m.metadata.fittedAt.toMicros ∧
        Record.ofModel again = Record.ofModel m) ∧
    (¬ (0 ≤ m.metadata.fittedAt.year ∧ m.metadata.fittedAt.year ≤ 9999) →
      (Record.ofModel m).toModel =
        .error (.invalidTimestamp m.metadata.fittedAt.text .invalid)) := by
  have hclock := Timestamp.onClock_of_read (toModel_checked h).2
  constructor
  · intro hyear
    have hread := Timestamp.read_text_toMicros hclock hyear
    rw [← Instant.text_toMicros] at hread
    refine ⟨m.fittedOn m.metadata.fittedAt.toMicros, ?_, rfl, ofModel_fittedOn_toMicros m⟩
    rw [← ofModel_fittedOn_toMicros]
    exact toModel_ofModel (recordable_of_toModel h hread)
  · intro hyear
    -- all but the time is as in a record of the first instant of 1970, which is accepted
    have hepoch : Timestamp.read (Instant.text ⟨0, 0⟩) = .ok ⟨0, 0⟩ :=
      Timestamp.read_text ⟨by decide, fun h => absurd h (by decide)⟩ rfl (by decide)
    have haccepted := toModel_ofModel (recordable_of_toModel h hepoch)
    exact toModel_fittedOn_of_fault haccepted (Timestamp.read_text_of_long_year hyear)

end Accepted

/-! ## 4. Two records -/

section Records

variable (α : Type) [Scalar α]

/-- A record as it may be written by hand: an edge twice, a label and a parameter too many, a time
of another zone with a digit more than is kept. -/
def handwritten : Record α where
  nodes := [.of "y" .namedValue [], .of "n" .namedValue []]
  edges := [⟨"n", "y", .dataFlow, none⟩, ⟨"n", "y", .dataFlow, none⟩]
  mechanisms := .ofList [
    ("y", ⟨"linear-static", "continuous", ["n"], ["high"],
      .ofList [("intercept", [0]), ("coefficients", [1]), ("noise_std", [1]), ("p", [])]⟩)]
  metadata := ⟨"2024-05-06t09:08:09.1234567+02:00", 0, 0.6, true, .empty, .empty, 5⟩

def handwrittenModel : Model α where
  graph := .of (handwritten α).nodes ((handwritten α).edges.take 1)
  mechanisms := .ofList [("y", ⟨["n"], .continuous, .linearStatic 0 [1] 1⟩)]
  metadata := ⟨⟨1714979289, 123456700⟩, 0, 0.6, true, .empty, .empty, 5⟩

theorem toModel_handwritten : (handwritten α).toModel = .ok (handwrittenModel α) := by cbv

/-- A record of the last hour of 9999, west of Greenwich. -/
def lateRecord : Record α where
  nodes := [.of "n" .namedValue []]
  edges := []
  mechanisms := .empty
  metadata := ⟨"9999-12-31T23:59:59-01:00", 0, 1, true, .empty, .empty, 0⟩

def lateModel : Model α where
  graph := .of (lateRecord α).nodes []
  mechanisms := .empty
  metadata := ⟨⟨253402304399, 0⟩, 0, 1, true, .empty, .empty, 0⟩

theorem toModel_lateRecord : (lateRecord α).toModel = .ok (lateModel α) := by cbv

end Records

theorem accepted_records_reload_handwritten :
    ∃ again, (Record.ofModel (handwrittenModel Float)).toModel = .ok again ∧
      again.metadata.fittedAt = ⟨1714979289, 123456000⟩ ∧
      Record.ofModel again = Record.ofModel (handwrittenModel Float) := by
  obtain ⟨haccepted, -⟩ := accepted_records_reload (toModel_handwritten Float)
  obtain ⟨again, hread, rfl, hwritten⟩ := haccepted (by decide +kernel)
  exact ⟨_, hread, rfl, hwritten⟩

/-- An accepted record that is refused once it was loaded and written: in universal time, its year
has five digits. -/
theorem accepted_record_is_refused_when_rewritten :
    ∃ m, (lateRecord Float).toModel = .ok m ∧
      (Record.ofModel m).metadata.fittedAt = "+10000-01-01T00:59:59.000000Z" ∧
      (Record.ofModel m).toModel =
        .error (.invalidTimestamp "+10000-01-01T00:59:59.000000Z" .invalid) :=
  ⟨lateModel Float, toModel_lateRecord Float, by decide +kernel, by cbv⟩

end CodeCausality
