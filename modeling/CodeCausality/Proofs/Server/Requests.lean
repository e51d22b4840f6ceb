import CodeCausality.Proofs.Server.Models
import CodeCausality.Proofs.Store.Access

/-!
# One request

What a request changes, in whatever state the server is:

* `unchanged_of_looks` -- a request that only looks leaves the records, the settings, the store and
  the flag, and so does one that fails (`unchanged_of_error`);
* `Provides` -- where the record of a model comes from; `LoadedAs` -- the record under one name, in
  the store as well if there is one, and everything else as it was;
* `loaded_of_answer` -- **a request to load that succeeds does just this**;
* `answer_of_model` -- in a sound state the reply to a query about a model follows from the query,
  the settings and the record that is loaded under the name.
-/

namespace CodeCausality

namespace Server

open Binary.Format (Fits float)

/-! ## 1. Requests -/

namespace Request

/-- A request that is to change nothing. -/
def Looks : Request → Prop
  | .loadModel .. | .shutdown => False
  | _ => True

theorem looks_or (request : Request) :
    request.Looks ∨ request = .shutdown ∨ ∃ name source, request = .loadModel name source := by
  cases request with
  | loadModel name source => exact .inr (.inr ⟨name, source, rfl⟩)
  | shutdown => exact .inr (.inl rfl)
  | _ => exact .inl trivial

/-- The model that a query is about. -/
def model? : Request → Option String
  | .impact name .. | .paths name .. | .rootCauses name _ => some name
  | _ => none

end Request

namespace ServerState

variable {σ : Type} [RecordStore σ] {files : Files} {s s' : ServerState σ} {name : String}
  {source : RecordSource} {r : Record Float} {request : Request}

/-! ## 2. Looking -/

/-- **What only looks changes nothing.** -/
theorem unchanged_of_looks (h : request.Looks) : s.Unchanged (s.answerRequest files request).2 := by
  cases request with
  | ping => exact .refl s
  | listModels => exact .refl s
  | loadModel name source => exact h.elim
  | shutdown => exact h.elim
  | impact name intervention samples =>
    exact unchanged_withModel (looks_impact s.settings intervention _) s name
  | paths name source target limit => exact unchanged_withModel (looks_plain _) s name
  | rootCauses name node => exact unchanged_withModel (looks_plain _) s name

/-! ## 3. Loading -/

/-- The source of a request to load the name provides the record: as it is given, read from a file,
or fetched from the store. -/
inductive Provides (files : Files) (s : ServerState σ) (name : String) :
    RecordSource → Record Float → Prop
  | given {r : Record Float} : Provides files s name (.given r) r
  | read {path text : String} {r : Record Float} (hfile : files path = .ok text)
      (hread : Record.ofText? text = some r) : Provides files s name (.file path) r
  | fetched {t : σ} {r : Record Float} (hstore : s.store = some t)
      (hget : RecordStore.get t name = .ok (some r)) : Provides files s name .store r

theorem recordOf_eq_ok_iff :
    s.recordOf files name source = .ok r ↔ Provides files s name source r := by
  constructor
  · intro h
    cases source with
    | given q =>
      obtain rfl := Except.ok.inj h
      exact .given
    | file path =>
      unfold recordOf at h
      dsimp only at h
      split at h
      · cases h
      · rename_i text hfile
        split at h
        · rename_i q hq
          obtain rfl := Except.ok.inj h
          exact .read hfile hq
        · cases h
    | store =>
      unfold recordOf at h
      dsimp only at h
      split at h
      · cases h
      · rename_i t hstore
        split at h
        · cases h
        · cases h
        · rename_i q hget
          obtain rfl := Except.ok.inj h
          exact .fetched hstore hget
  · intro h
    cases h with
    | given => rfl
    | read hfile hread =>
      unfold recordOf
      simp only [hfile, hread]
    | fetched hstore hget =>
      unfold recordOf
      simp only [hstore, hget]

/-- The store after a record was kept in it under a name: there it is found, unless it has 2^64 bytes
or more, and under all other names the same as before. -/
inductive KeptIn (name : String) (r : Record Float) : Option σ → Option σ → Prop
  | none : KeptIn name r none none
  | some {t t' : σ}
      (hsame : Fits (Record.format float) r → RecordStore.get t' name = .ok (.some r))
      (hothers : ∀ other, other ≠ name → RecordStore.get t' other = RecordStore.get t other) :
      KeptIn name r (.some t) (.some t')

/-- The record is loaded under the name, and kept there if there is a store. -/
structure LoadedAs (name : String) (r : Record Float) (s s' : ServerState σ) : Prop where
  records : s'.records = s.records.insert name r
  settings : s'.settings = s.settings
  store : KeptIn name r s.store s'.store
  stopping : s'.stopping = s.stopping

theorem loadedAs_load {store : Option σ} (h : KeptIn name r s.store store) :
    LoadedAs name r s (({ s with store } : ServerState σ).load name r) where
  records := records_insert { s with store } name (.ofRecord r)
  settings := rfl
  store := h
  stopping := rfl

/-- What is said about a record that was loaded. -/
def summary (name : String) (r : Record Float) : Summary :=
  ⟨name, r.nodes.length, r.mechanisms.size, r.metadata.score⟩

section Lawful

variable [RecordStore.Lawful σ]

/-- A record is kept, or the state is as it was. -/
theorem keep_cases (s : ServerState σ) (name : String) (r : Record Float) :
    (∃ f, s.keep name r = (.error f, s)) ∨
      ∃ store, KeptIn name r s.store store ∧ s.keep name r = (.ok (), { s with store }) := by
  obtain ⟨models, settings, store, stopping⟩ := s
  unfold keep
  cases store with
  | none => exact .inr ⟨none, .none, rfl⟩
  | some t =>
    dsimp only
    cases hput : (RecordStore.put t name r).1 with
    | error e =>
      refine .inl ⟨.store e, ?_⟩
      rw [RecordStore.Lawful.put_error hput]
      rfl
    | ok u =>
      refine .inr ⟨some (RecordStore.put t name r).2, .some ?_ fun other => ?_, rfl⟩
      · exact RecordStore.Lawful.get_put hput
      · exact RecordStore.Lawful.get_put_of_ne hput

/-- **A request to load fails and leaves the state, or keeps the record that its source provides and
loads it.** -/
theorem loadModel_cases (files : Files) (s : ServerState σ) (name : String)
    (source : RecordSource) :
    (∃ f, s.answerRequest files (.loadModel name source) = (.error f, s)) ∨
      ∃ r store, Provides files s name source r ∧ KeptIn name r s.store store ∧
        s.answerRequest files (.loadModel name source) =
          (.ok (.loaded (summary name r)), ({ s with store } : ServerState σ).load name r) := by
  unfold answerRequest
  dsimp only
  cases hr : s.recordOf files name source with
  | error f => exact .inl ⟨f, rfl⟩
  | ok r =>
    dsimp only
    rcases s.keep_cases name r with ⟨f, hkeep⟩ | ⟨store, hstore, hkeep⟩
    · refine .inl ⟨f, ?_⟩
      rw [hkeep]
    · refine .inr ⟨r, store, recordOf_eq_ok_iff.mp hr, hstore, ?_⟩
      rw [hkeep]
      rfl

/-- **A request to load that succeeds sets the record of its name, and nothing else.** -/
theorem loaded_of_answer {reply : Reply}
    (h : (s.answerRequest files (.loadModel name source)).1 = .ok reply) :
    ∃ r, Provides files s name source r ∧ reply = .loaded (summary name r) ∧
      LoadedAs name r s (s.answerRequest files (.loadModel name source)).2 := by
  rcases s.loadModel_cases files name source with ⟨f, heq⟩ | ⟨r, store, hr, hstore, heq⟩
  · rw [heq] at h
    cases h
  · rw [heq] at h ⊢
    exact ⟨r, hr, (Except.ok.inj h).symm, loadedAs_load hstore⟩

/-! ## 4. Failing -/

/-- **A request that fails changes nothing.** -/
theorem unchanged_of_error {f : Failure} (h : (s.answerRequest files request).1 = .error f) :
    s.Unchanged (s.answerRequest files request).2 := by
  rcases request.looks_or with hlooks | rfl | ⟨name, source, rfl⟩
  · exact unchanged_of_looks hlooks
  · cases h
  · rcases s.loadModel_cases files name source with ⟨f, heq⟩ | ⟨r, store, -, -, heq⟩
    · rw [heq]
      exact .refl s
    · rw [heq] at h
      cases h

/-! ## 5. Sound states -/

/-- **Every request leaves a sound state sound.** -/
theorem sound_answerRequest (hs : s.Sound) : (s.answerRequest files request).2.Sound := by
  cases request with
  | ping => exact hs
  | listModels => exact hs
  | shutdown => exact hs
  | loadModel name source =>
    rcases s.loadModel_cases files name source with ⟨f, heq⟩ | ⟨r, store, -, -, heq⟩
    · rw [heq]
      exact hs
    · rw [heq]
      exact sound_insert (s := { s with store }) hs (LoadedModel.sound_ofRecord r)
  | impact name intervention samples =>
    exact sound_withModel (looks_impact s.settings intervention _) hs name
  | paths name source target limit => exact sound_withModel (looks_plain _) hs name
  | rootCauses name node => exact sound_withModel (looks_plain _) hs name

end Lawful

/-- **In a sound state the reply to a query about a model follows from the query, the settings and
the record that is loaded under the name**: it is that of a server that holds nothing else, whatever
files there are. -/
theorem answer_of_model (hs : s.Sound) (h : request.model? = some name) (files' : Files) :
    (s.answerRequest files request).1 =
      ((fresh s.settings name (s.record? name) : ServerState σ).answerRequest files' request).1 := by
  have hfresh := sound_fresh (σ := σ) s.settings name (s.record? name)
  -- both sides answer from the same record
  have hsame {β : Type} {query : Query β} (hq : Looks query) : (s.withModel name query).1 =
      ((fresh s.settings name (s.record? name) : ServerState σ).withModel name query).1 := by
    rw [answer_withModel hq hs, answer_withModel hq hfresh, record?_fresh]
  cases request with
  | ping => cases h
  | listModels => cases h
  | loadModel => cases h
  | shutdown => cases h
  | impact model intervention samples =>
    obtain rfl := Option.some.inj h
    unfold answerRequest
    dsimp only
    rw [settings_fresh]
    exact hsame (looks_impact s.settings intervention _)
  | paths model source target limit =>
    obtain rfl := Option.some.inj h
    exact hsame (looks_plain _)
  | rootCauses model node =>
    obtain rfl := Option.some.inj h
    exact hsame (looks_plain _)

end ServerState

end Server

end CodeCausality
