import CodeCausality.Proofs.Record.Reload
import CodeCausality.Proofs.Server.Requests
import CodeCausality.Proofs.Text.ByteOrder

/-!
# Runs of a server

What a server holds after models were put among its loaded ones and lines came, in any order:

* `loads?` -- the record that an event loads; `sets_step`: an event sets this record and no other;
  `sound_step`: it leaves a sound state sound;
* `loaded` -- the records that a run loads, in order; `records_after`: **these are held, of each name
  the last**;
* `models_stay_apart` -- what a line changes, and that a reply about a model follows from the record
  that was last loaded under its name.
-/

namespace CodeCausality

namespace Server

/-- What happens to a server: a model is put among the loaded ones, or a line comes. The files may
differ from line to line. -/
inductive Event where
  | preload (name : String) (r : Record Float)
  | line (files : ServerState.Files) (text : String)

namespace ServerState

variable {σ : Type} [RecordStore σ]

/-! ## 1. Steps -/

def step (s : ServerState σ) : Event → ServerState σ
  | .preload name r => s.load name r
  | .line files text => (s.answer files text).2

/-- The name and the record that an event loads: those of a preload, and those of a request to load
that succeeds. -/
def loads? (s : ServerState σ) : Event → Option (String × Record Float)
  | .preload name r => some (name, r)
  | .line files text =>
    match Request.ofText text, (s.answer files text).1 with
    | .ok (.loadModel name source), .ok _ => (s.recordOf files name source).toOption.map (name, ·)
    | _, _ => none

/-- The state after the events. -/
def after (s : ServerState σ) (events : List Event) : ServerState σ := events.foldl step s

/-- The records that the events load, one after another. -/
def loaded (s : ServerState σ) : List Event → List (String × Record Float)
  | [] => []
  | e :: rest => (s.loads? e).toList ++ (s.step e).loaded rest

variable {s : ServerState σ} {files : Files} {text name : String} {request : Request}

theorem answer_of_ofText (h : Request.ofText text = .ok request) :
    s.answer files text = s.answerRequest files request := by
  rw [answer, h]

/-- A line that is no request changes nothing at all. -/
theorem answer_of_no_request {e : RequestError} (h : Request.ofText text = .error e) :
    s.answer files text = (.error (.request e), s) := by
  rw [answer, h]

/-- Only a request to load loads. -/
theorem loads?_line_of_ne (h : ∀ name source, Request.ofText text ≠ .ok (.loadModel name source)) :
    s.loads? (.line files text) = none := by
  unfold loads?
  dsimp only
  split
  · rename_i heq _
    exact (h _ _ heq).elim
  · rfl

section Lawful

variable [RecordStore.Lawful σ]

/-- A line that fails changes nothing. -/
theorem unchanged_of_failure {f : Failure} (h : (s.answer files text).1 = .error f) :
    s.Unchanged (s.answer files text).2 := by
  cases hrequest : Request.ofText text with
  | error e =>
    rw [answer_of_no_request hrequest]
    exact .refl s
  | ok request =>
    rw [answer_of_ofText hrequest] at h ⊢
    exact unchanged_of_error h

/-- From the first state to the second the settings stay, and so do all records but the one that is
set, if one is. -/
structure Sets (load? : Option (String × Record Float)) (s s' : ServerState σ) : Prop where
  settings : s'.settings = s.settings
  records : s'.records = load?.elim s.records fun e => s.records.insert e.1 e.2

omit [RecordStore σ] in
theorem Unchanged.sets {s' : ServerState σ} (h : s.Unchanged s') : Sets none s s' :=
  ⟨h.settings, h.records⟩

/-- A request to load sets what it loads. -/
theorem sets_load {source : RecordSource}
    (h : Request.ofText text = .ok (.loadModel name source)) :
    Sets (s.loads? (.line files text)) s (s.answer files text).2 := by
  unfold loads?
  dsimp only
  rw [answer_of_ofText h, h]
  rcases s.loadModel_cases files name source with ⟨f, heq⟩ | ⟨r, store, hr, hstore, heq⟩
  · rw [heq]
    exact (Unchanged.refl s).sets
  · have hload : LoadedAs name r s (({ s with store } : ServerState σ).load name r) :=
      loadedAs_load hstore
    rw [heq]
    dsimp only
    rw [recordOf_eq_ok_iff.mpr hr]
    exact ⟨hload.settings, hload.records⟩

/-- **An event sets the record that it loads, and no other.** -/
theorem sets_step (s : ServerState σ) (e : Event) : Sets (s.loads? e) s (s.step e) := by
  cases e with
  | preload name r => exact ⟨rfl, records_insert s name (.ofRecord r)⟩
  | line files text =>
    show Sets (s.loads? (.line files text)) s (s.answer files text).2
    cases h : Request.ofText text with
    | error e =>
      have hne : ∀ name source, Request.ofText text ≠ .ok (.loadModel name source) :=
        fun _ _ hload => nomatch h.symm.trans hload
      rw [loads?_line_of_ne hne, answer_of_no_request h]
      exact (Unchanged.refl s).sets
    | ok request =>
      rcases request.looks_or with hlooks | rfl | ⟨name, source, rfl⟩
      · have hne : ∀ name source, Request.ofText text ≠ .ok (.loadModel name source) := by
          intro name source hload
          obtain rfl := Except.ok.inj (h.symm.trans hload)
          exact hlooks
        rw [loads?_line_of_ne hne, answer_of_ofText h]
        exact (unchanged_of_looks hlooks).sets
      · have hne : ∀ name source, Request.ofText text ≠ .ok (.loadModel name source) :=
          fun _ _ hload => nomatch h.symm.trans hload
        rw [loads?_line_of_ne hne, answer_of_ofText h]
        exact ⟨rfl, rfl⟩
      · exact sets_load h

/-- **An event leaves a sound state sound.** -/
theorem sound_step (hs : s.Sound) (e : Event) : (s.step e).Sound := by
  cases e with
  | preload name r => exact sound_load hs name r
  | line files text =>
    show (s.answer files text).2.Sound
    cases hrequest : Request.ofText text with
    | error e =>
      rw [answer_of_no_request hrequest]
      exact hs
    | ok request =>
      rw [answer_of_ofText hrequest]
      exact sound_answerRequest hs

/-! ## 2. Runs -/

theorem sound_after (hs : s.Sound) (events : List Event) : (s.after events).Sound := by
  induction events generalizing s with
  | nil => exact hs
  | cons e rest ih => exact ih (sound_step hs e)

theorem settings_after (s : ServerState σ) (events : List Event) :
    (s.after events).settings = s.settings := by
  induction events generalizing s with
  | nil => rfl
  | cons e rest ih => exact (ih (s.step e)).trans (sets_step s e).settings

/-- **A run sets the records that it loads, one after another.** -/
theorem records_after (s : ServerState σ) (events : List Event) :
    (s.after events).records =
      (s.loaded events).foldl (fun d e => d.insert e.1 e.2) s.records := by
  induction events generalizing s with
  | nil => rfl
  | cons e rest ih =>
    have hstep := (sets_step s e).records
    calc (s.after (e :: rest)).records
        = ((s.step e).loaded rest).foldl (fun d e => d.insert e.1 e.2) (s.step e).records :=
          ih (s.step e)
      _ = (s.loaded (e :: rest)).foldl (fun d e => d.insert e.1 e.2) s.records := by
          rw [loaded, List.foldl_append, hstep]
          cases s.loads? e <;> rfl

section Start

variable (settings : SimulationSettings Float) (store : Option σ) (events : List Event)

theorem records_after_start : ((start settings store).after events).records =
    .ofList ((start settings store).loaded events) :=
  records_after _ events

/-- **A server that started with nothing loaded holds, under each name, the record that was loaded
last.** -/
theorem record?_after_start (name : String) : ((start settings store).after events).record? name =
    ((start settings store).loaded events).reverse.lookup name := by
  rw [← get?_records, records_after_start, Dictionary.get?_ofList]

theorem mem_names_after_start {name : String} : name ∈ ((start settings store).after events).names ↔
    ∃ r, (name, r) ∈ (start settings store).loaded events := by
  rw [← keys_records, records_after_start, Dictionary.mem_keys_ofList, List.mem_map]
  constructor
  · rintro ⟨⟨_, r⟩, hmem, rfl⟩
    exact ⟨r, hmem⟩
  · rintro ⟨r, hmem⟩
    exact ⟨(name, r), hmem, rfl⟩

/-- **The reply to a query about a model is that of a server that was given the record last loaded
under its name, and nothing else.** -/
theorem answer_after_start (h : request.model? = some name) (files' : Files) :
    (((start settings store).after events).answerRequest files request).1 =
      ((fresh settings name (((start settings store).loaded events).reverse.lookup name) :
        ServerState σ).answerRequest files' request).1 := by
  have hsound := sound_after (sound_start settings store) events
  rw [answer_of_model hsound h files', settings_after, record?_after_start]
  rfl

end Start

/-- **A line that fails, and one that only looks, leaves the records, the store and the flag; one
that loads sets the record of its name. After any run the names are those of the records that were
loaded, and the reply to a query follows from the query, the settings and the record that was last
loaded under the name.** -/
theorem models_stay_apart :
    (∀ (s : ServerState σ) (files : Files) (text : String),
      (∀ f, (s.answer files text).1 = .error f → s.Unchanged (s.answer files text).2) ∧
      (∀ request, Request.ofText text = .ok request → request.Looks →
        s.Unchanged (s.answer files text).2) ∧
      ∀ name source reply, Request.ofText text = .ok (.loadModel name source) →
        (s.answer files text).1 = .ok reply →
        ∃ r, Provides files s name source r ∧ reply = .loaded (summary name r) ∧
          LoadedAs name r s (s.answer files text).2) ∧
    ∀ (settings : SimulationSettings Float) (store : Option σ) (events : List Event)
      (files : Files) (text : String),
      let s := (start settings store).after events
      let history := (start settings store).loaded events
      (Request.ofText text = .ok .listModels →
        ∃ names, (s.answer files text).1 = .ok (.names names) ∧
          names.Pairwise (fun a b => utf8 a < utf8 b) ∧
          ∀ name, name ∈ names ↔ ∃ r, (name, r) ∈ history) ∧
      ∀ request name, Request.ofText text = .ok request → request.model? = some name →
        ∀ files', (s.answer files text).1 =
          ((fresh settings name (history.reverse.lookup name) :
            ServerState σ).answerRequest files' request).1 := by
  refine ⟨fun s files text => ⟨fun f => unchanged_of_failure, fun request h hlooks => ?_,
    fun name source reply h hreply => ?_⟩, fun settings store events files text =>
    ⟨fun h => ?_, fun request name h hmodel files' => ?_⟩⟩
  · rw [answer_of_ofText h]
    exact unchanged_of_looks hlooks
  · rw [answer_of_ofText h] at hreply ⊢
    exact loaded_of_answer hreply
  · rw [answer_of_ofText h]
    refine ⟨_, rfl, ?_, fun name => mem_names_after_start settings store events⟩
    exact (Dictionary.keys_increasing _).imp utf8_lt
  · rw [answer_of_ofText h]
    exact answer_after_start settings store events hmodel files'

end Lawful

/-! ## 3. A model loaded twice -/

def listLine : String := "\x7b\"command\":\"LIST_MODELS\"\x7d"

def loadLine : String := "\x7b\"command\":\"LOAD_MODEL\",\"params\":\x7b\"name\":\"m\"\x7d\x7d"

def rootsLine : String :=
  "\x7b\"command\":\"ROOT_CAUSES\",\"params\":\x7b\"model\":\"m\",\"node\":\"y\"\x7d\x7d"

theorem ofText_listLine : Request.ofText listLine = .ok .listModels := by
  unfold Request.ofText Request.envelope? Json.parse? listLine
  simp only [String.reduceToList]
  rfl

theorem ofText_loadLine : Request.ofText loadLine = .ok (.loadModel "m" .store) := by
  unfold Request.ofText Request.envelope? Json.parse? loadLine
  simp only [String.reduceToList]
  rfl

theorem ofText_rootsLine : Request.ofText rootsLine = .ok (.rootCauses "m" "y") := by
  unfold Request.ofText Request.envelope? Json.parse? rootsLine
  simp only [String.reduceToList]
  rfl

/-- A record is put among the loaded ones, and then another is fetched from the store under the same
name: the replies are about the second. Where there is no store, the request fails and the first
stays. -/
theorem models_stay_apart_reloaded :
    let files : Files := fun _ => .error ""
    let first : ServerState := (start {} none).load "m" (lateRecord Float)
    let store := MemoryStore.empty.put "m" (handwritten Float)
    let events := [.preload "m" (lateRecord Float), .line files loadLine]
    let s := (start {} (some store)).after events
    ((first.answer files loadLine).1 = .error .noRecord ∧
      first.Unchanged (first.answer files loadLine).2) ∧
    (start {} (some store)).loaded events = [("m", lateRecord Float), ("m", handwritten Float)] ∧
    (∃ names, (s.answer files listLine).1 = .ok (.names names) ∧
      ∀ name, name ∈ names ↔ name = "m") ∧
    (s.answer files rootsLine).1 = .ok (.roots ["n"]) ∧
    s.Unchanged (s.answer files rootsLine).2 := by
  intro files first store events s
  obtain ⟨hline, hrun⟩ := models_stay_apart (σ := MemoryStore)
  have hfailed : (first.answer files loadLine).1 = .error .noRecord := by
    rw [answer_of_ofText ofText_loadLine]
    rfl
  have hloaded : (start {} (some store)).loaded events =
      [("m", lateRecord Float), ("m", handwritten Float)] := by
    have hsecond : ((start {} (some store)).load "m" (lateRecord Float)).loads?
        (.line files loadLine) = some ("m", handwritten Float) := by
      unfold loads?
      dsimp only
      rw [answer_of_ofText ofText_loadLine, ofText_loadLine]
      rfl
    rw [loaded, loaded, loaded, step, hsecond]
    rfl
  refine ⟨⟨hfailed, (hline first files loadLine).1 _ hfailed⟩, hloaded, ?_, ?_,
    (hline s files rootsLine).2.1 _ ofText_rootsLine trivial⟩
  · obtain ⟨names, hreply, -, hnames⟩ :=
      (hrun {} (some store) events files listLine).1 ofText_listLine
    refine ⟨names, hreply, fun name => ?_⟩
    rw [hnames, hloaded]
    constructor
    · rintro ⟨r, hmem⟩
      simp only [List.mem_cons, Prod.mk.injEq, List.not_mem_nil, or_false] at hmem
      exact hmem.elim And.left And.left
    · rintro rfl
      exact ⟨lateRecord Float, List.mem_cons_self⟩
  · rw [(hrun {} (some store) events files rootsLine).2 _ _ ofText_rootsLine rfl files, hloaded]
    show ((fresh {} "m" (some (handwritten Float)) : ServerState).answerRequest files _).1 = _
    rw [answerRequest, answer_withModel (looks_plain _) (sound_fresh _ _ _), record?_fresh,
      answerFrom]
    have hroots : (handwrittenModel Float).graph.rootCauses "y" = .ok ["n"] := by decide +kernel
    dsimp only
    rw [toModel_handwritten]
    dsimp only
    rw [hroots]
    rfl

end ServerState

end Server

end CodeCausality
