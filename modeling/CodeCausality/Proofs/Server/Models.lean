import CodeCausality.Proofs.Simulation.Baselines
import CodeCausality.Server.State

/-!
# Queries on a loaded model

A query leaves a model read and its baselines kept, which the next query finds. Neither shows:

* `LoadedModel.Sound` -- what is kept is what reading the record would give, and what a query on that
  model would draw;
* `Looks` -- a query that keeps a model sound and answers the same from all that is kept soundly;
  `looks_impact`, `looks_plain`: those of a server do;
* `ServerState.records` -- the records that are loaded; `unchanged_withModel`: a query leaves them;
* `answer_withModel` -- **a query on a name answers as it would on a model just loaded from the record
  that is loaded under the name**, and `sound_withModel` -- leaves the state sound.
-/

namespace CodeCausality

namespace Server

open Simulation (Faithful Intervention)

/-! ## 1. What is kept of a model -/

/-- The kept outcome is that of reading the record, and the kept baselines are those of its model. -/
structure LoadedModel.Sound (l : LoadedModel) : Prop where
  outcome : ∀ o, l.lazy.outcome = some o → o = l.lazy.record.toModel
  kept : ∀ m, l.lazy.record.toModel = .ok m → Faithful Random.Generator m l.kept

theorem LoadedModel.sound_ofRecord (r : Record Float) : (LoadedModel.ofRecord r).Sound where
  outcome _ h := nomatch h
  kept _ _ _ _ h := nomatch h

namespace LoadedModel.Sound

variable {l : LoadedModel} (h : l.Sound)

include h

theorem result_eq : l.lazy.result = l.lazy.record.toModel := by
  rw [LazyModel.result]
  cases ho : l.lazy.outcome with
  | none => rfl
  | some o => exact h.outcome o ho

/-- Reading the record changes nothing but that it has been read. -/
theorem materialise : LoadedModel.Sound { l with lazy := l.lazy.materialise } where
  outcome _ ho := (Option.some.inj ho).symm.trans h.result_eq
  kept := h.kept

/-- The model of a query is that of the record, or there is none because of the record. -/
theorem get_eq : l.lazy.materialise.get =
    l.lazy.record.toModel.mapError fun e => .unmaterialised e.message := by
  have hresult : l.lazy.materialise.result = l.lazy.record.toModel := h.result_eq
  rw [LazyModel.get, hresult]
  cases l.lazy.record.toModel <;> rfl

end LoadedModel.Sound

/-! ## 2. Queries -/

/-- A query on a model. -/
abbrev Query (β : Type) := LoadedModel → Model Float → Except Failure β × LoadedModel

/-- The query keeps what was kept faithfully, and its answer does not depend on that. -/
structure Looks {β : Type} (query : Query β) : Prop where
  lazy : ∀ l m, (query l m).2.lazy = l.lazy
  kept : ∀ l m, Faithful Random.Generator m l.kept → Faithful Random.Generator m (query l m).2.kept
  alike : ∀ l l' m, m.Grounded → Faithful Random.Generator m l.kept →
    Faithful Random.Generator m l'.kept → (query l m).1 = (query l' m).1

/-- A query that keeps nothing. -/
theorem looks_plain {β : Type} (f : Model Float → Except Failure β) :
    Looks fun l m => (f m, l) where
  lazy _ _ := rfl
  kept _ _ h := h
  alike _ _ _ _ _ _ := rfl

/-- The query for the impact of an intervention. -/
theorem looks_impact (settings : SimulationSettings Float) (i : Intervention Float) (n : Nat) :
    Looks fun l m =>
      let (outcome, kept) :=
        Simulation.estimateImpact Random.Generator settings m i n false l.kept
      ((outcome.map Reply.impact).mapError .impact, { l with kept }) where
  lazy _ _ := rfl
  kept _ _ h := Simulation.faithful_estimateImpact h settings i n false
  alike _ _ _ hm hk hk' := by
    dsimp only
    rw [Simulation.estimateImpact_eq_of_faithful hm hk hk']

/-- The answer to a query on a model just loaded from a record, if there is one. -/
def answerFrom {β : Type} (name : String) (query : Query β) :
    Option (Record Float) → Except Failure β
  | none => .error (.notLoaded name)
  | some r =>
    match r.toModel with
    | .error e => .error (.impact (.unmaterialised e.message))
    | .ok m => (query (.ofRecord r) m).1

/-! ## 3. The state -/

namespace ServerState

variable {σ : Type} {s : ServerState σ} {β : Type} {query : Query β} {name : String}

/-- The records that are loaded, by name. -/
def records (s : ServerState σ) : Dictionary (Record Float) :=
  s.models.map fun _ l => l.lazy.record

theorem get?_records (s : ServerState σ) (name : String) : s.records.get? name = s.record? name :=
  Dictionary.get?_map _ _ _

theorem keys_records (s : ServerState σ) : s.records.keys = s.names := by
  rw [Dictionary.keys, records, Dictionary.map, List.map_map]
  rfl

/-- Everything loaded is sound. -/
def Sound (s : ServerState σ) : Prop := ∀ name l, s.models.get? name = some l → l.Sound

theorem sound_insert (hs : s.Sound) {l : LoadedModel} (hl : l.Sound) :
    Sound { s with models := s.models.insert name l } := by
  intro other l' h
  rcases Dictionary.eq_or_of_get?_insert h with rfl | hold
  · exact hl
  · exact hs other l' hold

theorem records_insert (s : ServerState σ) (name : String) (l : LoadedModel) :
    records { s with models := s.models.insert name l } = s.records.insert name l.lazy.record := by
  refine Dictionary.eq_of_get? fun other => ?_
  rw [records, records, Dictionary.get?_map, Dictionary.get?_insert, Dictionary.get?_insert,
    Dictionary.get?_map]
  split <;> rfl

/-- Putting a model back with the record it had leaves the records. -/
theorem records_insert_of_get? {l l' : LoadedModel} (h : s.models.get? name = some l)
    (hrecord : l'.lazy.record = l.lazy.record) :
    records { s with models := s.models.insert name l' } = s.records := by
  rw [records_insert]
  refine Dictionary.eq_of_get? fun other => ?_
  rw [Dictionary.get?_insert]
  split
  · rename_i heq
    rw [get?_records, record?, ← heq, h, hrecord]
    rfl
  · rfl

/-- The two states have the same records, store, settings and flag. -/
structure Unchanged (s s' : ServerState σ) : Prop where
  records : s'.records = s.records
  settings : s'.settings = s.settings
  store : s'.store = s.store
  stopping : s'.stopping = s.stopping

theorem Unchanged.refl (s : ServerState σ) : s.Unchanged s := ⟨rfl, rfl, rfl, rfl⟩

theorem unchanged_insert {l l' : LoadedModel} (h : s.models.get? name = some l)
    (hrecord : l'.lazy.record = l.lazy.record) :
    s.Unchanged { s with models := s.models.insert name l' } :=
  ⟨records_insert_of_get? h hrecord, rfl, rfl, rfl⟩

/-- **A query leaves the state as it is**, in whatever state the models are. -/
theorem unchanged_withModel (hq : Looks query) (s : ServerState σ) (name : String) :
    s.Unchanged (s.withModel name query).2 := by
  rw [withModel]
  split
  · exact .refl s
  · rename_i l hl
    dsimp only
    split
    · exact unchanged_insert hl rfl
    · rename_i m _
      have hrecord := congrArg LazyModel.record (hq.lazy { l with lazy := l.lazy.materialise } m)
      exact unchanged_insert hl hrecord

/-- **A query leaves the state sound.** -/
theorem sound_withModel (hq : Looks query) (hs : s.Sound) (name : String) :
    (s.withModel name query).2.Sound := by
  rw [withModel]
  split
  · exact hs
  · rename_i l hl
    have hread := (hs name l hl).materialise
    dsimp only
    split
    · exact sound_insert hs hread
    · rename_i m hm
      have hmodel : l.lazy.record.toModel = .ok m := by
        rw [(hs name l hl).get_eq] at hm
        exact mapError_eq_ok_iff.mp hm
      refine sound_insert hs ⟨fun o ho => ?_, fun m' hm' => ?_⟩
      · rw [hq.lazy] at ho ⊢
        exact hread.outcome o ho
      · rw [hq.lazy] at hm'
        obtain rfl := Except.ok.inj (hmodel.symm.trans hm')
        exact hq.kept _ m (hread.kept m hmodel)

/-- **A query answers as on a model just loaded from the record of the name.** -/
theorem answer_withModel (hq : Looks query) (hs : s.Sound) (name : String) :
    (s.withModel name query).1 = answerFrom name query (s.record? name) := by
  rw [withModel, record?]
  cases hl : s.models.get? name with
  | none => rfl
  | some l =>
    have hget := (hs name l hl).get_eq
    dsimp only [Option.map_some, answerFrom]
    rw [hget]
    cases hmodel : l.lazy.record.toModel with
    | error e => rfl
    | ok m =>
      have hgrounded := Model.grounded_of_toModel hmodel
      exact hq.alike _ _ m hgrounded ((hs name l hl).materialise.kept m hmodel)
        ((LoadedModel.sound_ofRecord l.lazy.record).kept m hmodel)

/-! ## 4. A server with one model -/

/-- A server with at most one model, just loaded under the name. -/
def fresh (settings : SimulationSettings Float) (name : String) :
    Option (Record Float) → ServerState σ
  | none => start settings none
  | some r => (start settings none).load name r

theorem settings_fresh (settings : SimulationSettings Float) (name : String)
    (r : Option (Record Float)) : (fresh settings name r : ServerState σ).settings = settings := by
  cases r <;> rfl

theorem sound_start (settings : SimulationSettings Float) (store : Option σ) :
    (start settings store).Sound := fun _ _ h => nomatch h

theorem sound_load (hs : s.Sound) (name : String) (r : Record Float) : (s.load name r).Sound :=
  sound_insert hs (LoadedModel.sound_ofRecord r)

theorem sound_fresh (settings : SimulationSettings Float) (name : String)
    (r : Option (Record Float)) : (fresh settings name r : ServerState σ).Sound := by
  cases r with
  | none => exact sound_start settings none
  | some r => exact sound_load (sound_start settings none) name r

theorem record?_fresh (settings : SimulationSettings Float) (name : String)
    (r : Option (Record Float)) : (fresh settings name r : ServerState σ).record? name = r := by
  cases r with
  | none => rfl
  | some r =>
    rw [record?, fresh, load]
    dsimp only
    rw [Dictionary.get?_insert, if_pos rfl]
    rfl

end ServerState

end Server

end CodeCausality
