import CodeCausality.Settings.Basic
import CodeCausality.Text.Blank
import CodeCausality.Text.Word
import CodeCausality.Toml.Reader

/-!
# Settings from files and from the environment

A settings file is a TOML document with a table for each group of settings; keys that are no setting
do not matter, and a key that is missing leaves its setting open. Variables of the environment
override what the file says.
-/

namespace CodeCausality

namespace Settings

/-! ## 1. Groups and their keys -/

/-- The values of the keys of a group, from a table by name or from a list by position. -/
def group? (keys : List String) : Toml.Value → Option (List (Option Toml.Value))
  | .table _ es => some (keys.map fun k => es.lookup k)
  | .inlineTable es => some (keys.map fun k => es.lookup k)
  | .list xs => some (keys.zipIdx.map fun (_, i) => xs[i]?)
  | .tables elements =>
    let xs := elements.reverse.map (Toml.Value.table .header)
    some (keys.zipIdx.map fun (_, i) => xs[i]?)
  | _ => none

/-- A setting that may be missing. -/
def setting? {β : Type} (f : Toml.Value → Option β) : Option Toml.Value → Option (Option β)
  | none => some none
  | some v => (f v).map some

def asFloat? : Toml.Value → Option Float
  | .float x => some x
  | .integer n => some (Float.ofInt n)
  | _ => none

def asNat? : Toml.Value → Option Nat
  | .integer n => if 0 ≤ n then some n.toNat else none
  | _ => none

def asSeed? (v : Toml.Value) : Option UInt64 := (asNat? v).map UInt64.ofNat

def asText? : Toml.Value → Option String
  | .text s => some s
  | _ => none

def asTexts? : Toml.Value → Option (List String)
  | .list xs => xs.mapM asText?
  | _ => none

/-- A value without content. -/
def isEmptyValue : Toml.Value → Bool
  | .list xs => xs.isEmpty
  | .inlineTable es | .table _ es => es.isEmpty
  | _ => false

/-- The name of a noise model, alone or as the only key over an empty value. -/
def asNoise? : Toml.Value → Option NoiseModel
  | .text s => NoiseModel.ofName? s
  | .inlineTable [(k, v)] | .table _ [(k, v)] =>
    if isEmptyValue v then NoiseModel.ofName? k else none
  | _ => none

/-! ## 2. Reading a document -/

def builder? (v : Toml.Value) : Option BuilderSettings := do
  match ← group? ["side_effect_patterns"] v with
  | [patterns] => return { sideEffectPatterns := ← setting? asTexts? patterns }
  | _ => none

def fitting? (v : Toml.Value) : Option (FitSettings Float) := do
  match ← group? ["validation_threshold", "folds", "noise_model", "static_target_r2",
      "classifier_l2", "logistic_iterations", "softmax_iterations", "seed"] v with
  | [threshold, folds, noise, target, penalty, newton, gradient, seed] => return {
      validationThreshold := ← setting? asFloat? threshold
      folds := ← setting? asNat? folds
      noiseModel := ← setting? asNoise? noise
      staticTarget := ← setting? asFloat? target
      classifierPenalty := ← setting? asFloat? penalty
      logisticSteps := ← setting? asNat? newton
      softmaxSteps := ← setting? asNat? gradient
      seed := ← setting? asSeed? seed }
  | _ => none

def simulation? (v : Toml.Value) : Option (SimulationSettings Float) := do
  match ← group? ["num_samples", "bootstrap_resamples", "confidence_level", "seed"] v with
  | [samples, resamples, confidence, seed] => return {
      samples := ← setting? asNat? samples
      resamples := ← setting? asNat? resamples
      confidence := ← setting? asFloat? confidence
      seed := ← setting? asSeed? seed }
  | _ => none

/-- The settings of a document. -/
def ofEntries? (es : Toml.Entries) : Option Settings := do
  let part {β : Type} (f : Toml.Value → Option β) (d : β) (k : String) : Option β :=
    match es.lookup k with
    | none => some d
    | some v => f v
  return {
    builder := ← part builder? {} "builder"
    fitting := ← part fitting? {} "fitting"
    simulation := ← part simulation? {} "simulation" }

/-- The settings of a text; `path` is where it stands. -/
def ofText (path text : String) : Except SettingsError Settings :=
  match Toml.parse? text >>= ofEntries? with
  | some s => .ok s
  | none => .error (.malformed path)

/-! ## 3. The environment -/

/-- The variable that sets the seed of fits and simulations. -/
def seedVariable : String := "LIFT_CAUSAL_SEED"

/-- The variable that sets the number of draws. -/
def samplesVariable : String := "LIFT_CAUSAL_SAMPLES"

/-- The number that a variable is set to, if it is set. -/
def overriding (environment : String → Option String) (key : String) :
    Except SettingsError (Option Nat) :=
  match environment key with
  | none => .ok none
  | some raw =>
    match Text.word? (Text.trim raw.toList) with
    | some n => .ok (some n)
    | none => .error (.invalidValue key raw)

/-- The settings with the environment's overrides. -/
def override (environment : String → Option String) (s : Settings) :
    Except SettingsError Settings := do
  let s ← match ← overriding environment seedVariable with
    | some n => pure { s with
        fitting := { s.fitting with seed := some (UInt64.ofNat n) }
        simulation := { s.simulation with seed := some (UInt64.ofNat n) } }
    | none => pure s
  match ← overriding environment samplesVariable with
  | some n => return { s with simulation := { s.simulation with samples := some n } }
  | none => return s

/-! ## 4. Loading -/

/-- The name of a settings file in the root of a project. -/
def fileName : String := "lift-causal.toml"

/-- What stands at a path: a file with a text, a file that is no text, or a directory. -/
inductive Found where
  | text (content : String)
  | unreadable

/-- The settings of a project whose root holds the given thing under `fileName`. -/
def load (path : String) (found : Option Found) (environment : String → Option String) :
    Except SettingsError Settings := do
  let s ← match found with
    | none => pure {}
    | some .unreadable => throw (.unreadable path)
    | some (.text content) => ofText path content
  s.override environment

end Settings

end CodeCausality
