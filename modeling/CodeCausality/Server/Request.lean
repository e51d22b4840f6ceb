import CodeCausality.Json.Reader
import CodeCausality.Record.Text
import CodeCausality.Value

/-!
# Requests to a server

A request is one JSON value a line: a command and its parameters. Within the parameters the later
of two members of one name stands; the request itself may have no member twice.
-/

namespace CodeCausality

namespace Server

open Json

/-- Where the record of a model comes from. -/
inductive RecordSource where
  | given (r : Record Float)
  | file (path : String)
  /-- Neither is given: only a store can help. -/
  | store

inductive Request where
  | ping
  | loadModel (name : String) (source : RecordSource)
  | listModels
  | impact (model : String) (intervention : Dictionary (Value Float)) (samples : Option Nat)
  | paths (model source target : String) (limit : Option Nat)
  | rootCauses (model node : String)
  | shutdown

/-- Why a line is no request. -/
inductive RequestError where
  | notJson
  | missingParams (command : String)
  | invalidParams (command : String)
  | unknownCommand (command : String)
  deriving Repr, DecidableEq

def RequestError.message : RequestError → String
  | notJson => "Invalid JSON format"
  | missingParams command => s!"Missing params for {command}"
  | invalidParams command => s!"Invalid params for {command}"
  | unknownCommand command => s!"Unknown command: {command}"

namespace Request

/-! ## 1. Parameters -/

def loadModel? (j : Json) : Option Request := do
  match ← fields? [⟨"name", .required⟩, ⟨"record", .nullable⟩, ⟨"path", .nullable⟩] j with
  | [name, record, path] =>
    let name ← requiredField? asString? name
    let record ← optionalField? Record.ofJson? record
    let path ← optionalField? asString? path
    return .loadModel name (match record, path with
      | some r, _ => .given r
      | none, some p => .file p
      | none, none => .store)
  | _ => none

def impact? (j : Json) : Option Request := do
  match ← fields? [⟨"model", .required⟩, ⟨"intervention", .required⟩, ⟨"num_samples", .nullable⟩]
      j with
  | [model, intervention, samples] =>
    let model ← requiredField? asString? model
    let intervention ← requiredField? (asDictionary? Value.ofJson?) intervention
    let samples ← optionalField? asWord? samples
    return .impact model intervention samples
  | _ => none

def paths? (j : Json) : Option Request := do
  match ← fields? [⟨"model", .required⟩, ⟨"source", .required⟩, ⟨"target", .required⟩,
      ⟨"max_paths", .nullable⟩] j with
  | [model, source, target, limit] =>
    let model ← requiredField? asString? model
    let source ← requiredField? asString? source
    let target ← requiredField? asString? target
    let limit ← optionalField? asWord? limit
    return .paths model source target limit
  | _ => none

def rootCauses? (j : Json) : Option Request := do
  match ← fields? [⟨"model", .required⟩, ⟨"node", .required⟩] j with
  | [model, node] =>
    let model ← requiredField? asString? model
    let node ← requiredField? asString? node
    return .rootCauses model node
  | _ => none

/-! ## 2. Requests -/

/-- The command and the parameters of a line, if it is a request. -/
def envelope? (line : String) : Option (String × Option Json) := do
  match ← fields? [⟨"command", .required⟩, ⟨"params", .nullable⟩] (← parse? line) with
  | [command, params] =>
    let command ← requiredField? asString? command
    let params ← optionalField? (fun j => if j.isUsable then some j else none) params
    return (command, params)
  | _ => none

/-- The request of a command that needs parameters. -/
def withParams (command : String) (read : Json → Option Request) :
    Option Json → Except RequestError Request
  | none => .error (.missingParams command)
  | some j =>
    match read j.withoutRepeats with
    | some r => .ok r
    | none => .error (.invalidParams command)

/-- The request that a line is. -/
def ofText (line : String) : Except RequestError Request :=
  match envelope? line with
  | none => .error .notJson
  | some (command, params) =>
    match command with
    | "PING" => .ok .ping
    | "LOAD_MODEL" => withParams command loadModel? params
    | "LIST_MODELS" => .ok .listModels
    | "IMPACT" => withParams command impact? params
    | "PATHS" => withParams command paths? params
    | "ROOT_CAUSES" => withParams command rootCauses? params
    | "SHUTDOWN" => .ok .shutdown
    | _ => .error (.unknownCommand command)

end Request

end Server

end CodeCausality
