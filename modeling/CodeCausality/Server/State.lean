import CodeCausality.Graph.Answer
import CodeCausality.Record.Lazy
import CodeCausality.Server.Request
import CodeCausality.Simulation.Text
import CodeCausality.Store.Access

/-!
# The server

A server holds models by name and answers requests about them, one line at a time. This file fixes

* `ServerState`, what a server holds: the loaded models, perhaps a store, and whether it is to stop;
* `ServerState.answer`, the reply to a request and the state after it.

Loading a model has two effects, each of them at once: the record is kept in the store, if there is
one, and then the model is put among the loaded ones; if it cannot be kept, it is not loaded. A
record is read as a model when it is first needed. All other requests only look, apart from
`SHUTDOWN`.
-/

namespace CodeCausality

namespace Server

/-! ## 1. Replies -/

/-- What is said about a model that has been loaded. -/
structure Summary where
  name : String
  nodes : Nat
  mechanisms : Nat
  score : Float

inductive Reply where
  | pong
  | loaded (s : Summary)
  | names (xs : List String)
  | impact (i : Simulation.Impact Float)
  | paths (a : PathAnswer)
  | roots (xs : List String)
  | stopping

/-- Why a request has no answer. -/
inductive Failure where
  | request (e : RequestError)
  | notLoaded (name : String)
  /-- No record is given, and there is no store. -/
  | noRecord
  | notStored (name : String)
  | unreadableFile (path reason : String)
  | invalidRecord
  | store (e : StoreError)
  | impact (e : ImpactError Float)
  | path (e : PathError)

def Failure.message : Failure → String
  | request e => e.message
  | notLoaded name => s!"Model not loaded: {name}"
  | noRecord => "LOAD_MODEL needs 'record' or 'path'"
  | notStored name => s!"Model not in store: {name}"
  | unreadableFile file reason => s!"Failed to read model {file}: {reason}"
  | invalidRecord => "Invalid model record"
  | store e => e.message
  | impact e => e.message
  | path e => e.message

namespace Reply

/-- The content of a reply. -/
def toJson : Reply → Json
  | pong => .text "PONG"
  | loaded s =>
    .object [("name", .text s.name), ("nodes", Json.ofNat s.nodes),
      ("mechanisms", Json.ofNat s.mechanisms), ("validation_r2", Json.ofFloat s.score)]
  | names xs => Json.ofStrings xs
  | impact i => i.toJson
  | paths a => a.toJson
  | roots xs => Json.ofStrings xs
  | stopping => .text "Shutting down..."

end Reply

/-- The line that is sent back. -/
def replyJson : Except Failure Reply → Json
  | .ok r => .object [("status", .text "success"), ("data", r.toJson)]
  | .error f => .object [("status", .text "error"), ("message", .text f.message)]

/-! ## 2. What a server holds -/

/-- A model that has been loaded, and the baselines that queries have left behind. -/
structure LoadedModel where
  lazy : LazyModel Float
  kept : Simulation.Baselines Float

def LoadedModel.ofRecord (r : Record Float) : LoadedModel := ⟨.ofRecord r, []⟩

/-- Any store can be attached; one in memory unless said otherwise. -/
structure ServerState (σ : Type := MemoryStore) where
  models : Dictionary LoadedModel
  settings : SimulationSettings Float
  store : Option σ
  stopping : Bool

namespace ServerState

variable {σ : Type}

def start (settings : SimulationSettings Float) (store : Option σ) : ServerState σ :=
  ⟨.empty, settings, store, false⟩

/-- Puts a model among the loaded ones. -/
def load (s : ServerState σ) (name : String) (r : Record Float) : ServerState σ :=
  { s with models := s.models.insert name (.ofRecord r) }

/-- Keeps a record in the store, if there is one. -/
def keep [RecordStore σ] (s : ServerState σ) (name : String) (r : Record Float) :
    Except Failure Unit × ServerState σ :=
  match s.store with
  | none => (.ok (), s)
  | some t =>
    let (outcome, t) := RecordStore.put t name r
    (outcome.mapError .store, { s with store := some t })

def names (s : ServerState σ) : List String := s.models.keys

/-- The record that is loaded under a name. -/
def record? (s : ServerState σ) (name : String) : Option (Record Float) :=
  (s.models.get? name).map fun m => m.lazy.record

/-! ## 3. Answers -/

/-- How files are read: a text, or why there is none. -/
abbrev Files := String → Except String String

/-- The record that a request to load names. -/
def recordOf [RecordStore σ] (files : Files) (s : ServerState σ) (name : String) :
    RecordSource → Except Failure (Record Float)
  | .given r => .ok r
  | .file path =>
    match files path with
    | .error reason => .error (.unreadableFile path reason)
    | .ok text =>
      match Record.ofText? text with
      | some r => .ok r
      | none => .error .invalidRecord
  | .store =>
    match s.store with
    | none => .error .noRecord
    | some t =>
      match RecordStore.get t name with
      | .error e => .error (.store e)
      | .ok none => .error (.notStored name)
      | .ok (some r) => .ok r

/-- Looks at the model of a name; its record is read if it has not been. -/
def withModel {β : Type} (s : ServerState σ) (name : String)
    (query : LoadedModel → Model Float → Except Failure β × LoadedModel) :
    Except Failure β × ServerState σ :=
  match s.models.get? name with
  | none => (.error (.notLoaded name), s)
  | some loaded =>
    let loaded := { loaded with lazy := loaded.lazy.materialise }
    match loaded.lazy.get with
    | .error e => (.error (.impact e), { s with models := s.models.insert name loaded })
    | .ok m =>
      let (answer, loaded) := query loaded m
      (answer, { s with models := s.models.insert name loaded })

/-- The reply to a request, and the state after it. -/
def answerRequest [RecordStore σ] (files : Files) (s : ServerState σ) :
    Request → Except Failure Reply × ServerState σ
  | .ping => (.ok .pong, s)
  | .listModels => (.ok (.names s.names), s)
  | .shutdown => (.ok .stopping, { s with stopping := true })
  | .loadModel name source =>
    match s.recordOf files name source with
    | .error f => (.error f, s)
    | .ok r =>
      match s.keep name r with
      | (.error f, s) => (.error f, s)
      | (.ok (), s) =>
        (.ok (.loaded ⟨name, r.nodes.length, r.mechanisms.size, r.metadata.score⟩), s.load name r)
  | .impact name intervention samples =>
    s.withModel name fun loaded m =>
      let n := samples.getD s.settings.sampleCount
      let (outcome, kept) :=
        Simulation.estimateImpact Random.Generator s.settings m intervention n false loaded.kept
      ((outcome.map Reply.impact).mapError .impact, { loaded with kept })
  | .paths name source target limit =>
    s.withModel name fun loaded m =>
      let outcome := m.graph.pathAnswer source target (limit.getD defaultPathLimit)
      ((outcome.map Reply.paths).mapError .path, loaded)
  | .rootCauses name node =>
    s.withModel name fun loaded m =>
      (((m.graph.rootCauses node).map Reply.roots).mapError .path, loaded)

/-- The reply to a line, and the state after it. -/
def answer [RecordStore σ] (files : Files) (s : ServerState σ) (line : String) :
    Except Failure Reply × ServerState σ :=
  match Request.ofText line with
  | .error e => (.error (.request e), s)
  | .ok r => s.answerRequest files r

end ServerState

end Server

end CodeCausality
