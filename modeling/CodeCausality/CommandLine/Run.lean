import CodeCausality.Analysis
import CodeCausality.CommandLine.Command
import CodeCausality.Graph.Answer
import CodeCausality.Graph.Dot
import CodeCausality.Graph.Text
import CodeCausality.Record.Text
import CodeCausality.Settings.File
import CodeCausality.Simulation.Text
import CodeCausality.Source.Loading
import CodeCausality.Store.Directory

/-!
# Running commands

A command reads files, computes, and answers with a text, which goes to a file or is shown. The
first thing that fails ends it. This file fixes

* `Failure`, what can fail, with its causes from the outermost to the innermost;
* `Invocation.run`, the text that is shown in the end, or why there is none.

The settings are read before anything else.
-/

namespace CodeCausality

namespace CommandLine

/-! ## 1. Failures -/

inductive Failure where
  | settings (e : SettingsError)
  | noSources
  | loading (e : Source.LoadError)
  | unreadable (path : String) (fault : FileFault)
  | notJson (path : String)
  | invalidGraph (path : String) (e : GraphError Float)
  | invalidModel (path : String) (e : RecordError Float)
  | analysis (e : Analysis.Failure)
  | store (directory : String) (fault : StoreFault)
  | unwritable (path : String) (fault : FileFault)
  | impact (e : ImpactError Float)
  | path (e : PathError)

/-- The sentence about a record, and the one about its graph if that is at fault. -/
def recordCauses : RecordError Float → List String
  | .invalidGraph e => [(RecordError.invalidGraph e).message, e.message]
  | e => [e.message]

def storeCauses : StoreFault → List String
  | .file fault =>
    let cause := s!"IO error: {fault.message}"
    [s!"storage backend error: {cause}", cause]
  | .damaged _ => ["storage backend error: the store is damaged"]

namespace Failure

/-- What fails, and what causes it. -/
def causes : Failure → List String
  | settings e => ["Failed to load configuration", e.message]
  | noSources =>
    ["Please provide at least one --input <file>, --folder <dir> or --workspace <Cargo.toml>"]
  | loading e => e.causes
  | unreadable file fault => [s!"Cannot read {file}", fault.message]
  | notJson file => [s!"Invalid JSON in {file}"]
  | invalidGraph file e => [s!"Invalid graph in {file}", e.message]
  | invalidModel file e => s!"Invalid model in {file}" :: recordCauses e
  | analysis e => [e.message]
  | store directory fault => s!"Cannot open store {directory}" :: storeCauses fault
  | unwritable file fault => [s!"Cannot write {file}", fault.message]
  | impact e => [e.message]
  | path e => [e.message]

def message (f : Failure) : String := ": ".intercalate f.causes

/-- The number that the program ends with: a score that is too low has one of its own. -/
def exitCode : Failure → Nat
  | analysis (.fit (.lowScore ..)) => 2
  | _ => 1

end Failure

/-! ## 2. Files -/

variable {m : Type → Type} [Monad m] [FileAccess m]

/-- An action that can fail. -/
abbrev Attempt (m : Type → Type) := ExceptT Failure m

def attempt {ε β : Type} (f : ε → Failure) (action : m (Except ε β)) : Attempt m β :=
  ExceptT.mk (return (← action).mapError f)

def orFail {ε β : Type} (f : ε → Failure) (e : Except ε β) : Attempt m β :=
  attempt f (pure e)

/-- The value that a JSON file holds. -/
def readJson {β : Type} (read : Json → Option β) (path : String) : Attempt m β := do
  let text ← attempt (.unreadable path) (FileAccess.readText path)
  match Json.parse? text >>= read with
  | some b => return b
  | none => throw (.notJson path)

def readGraph (path : String) : Attempt m (CausalGraph Float) := do
  let parts ← readJson GraphParts.ofJson? path
  orFail (.invalidGraph path) parts.toGraph

def readModel (path : String) : Attempt m (Model Float) := do
  let r ← readJson Record.ofJson? path
  orFail (.invalidModel path) r.toModel

def GraphInput.read : GraphInput → Attempt m (CausalGraph Float)
  | .graph path => readGraph path
  | .model path => return (← readModel path).graph

/-- The settings in a directory, with those of the environment. -/
def readSettings (environment : String → Option String) (directory : String) :
    Attempt m Settings := do
  let path := Path.join directory Settings.fileName
  let found : Option Settings.Found ← match ← FileAccess.kind? (m := m) path with
    | none => pure none
    | some _ => match ← FileAccess.readText (m := m) path with
      | .ok text => pure (some (.text text))
      | .error _ => pure (some .unreadable)
  orFail .settings (Settings.load path found environment)

/-- The package of sources that are named on a command line. -/
def package : String := "input"

/-- All sources at the paths, which have to be some. -/
def readSources (paths : List String) : Attempt m (List SourceFile) := do
  let files ← paths.mapM fun path => attempt .loading (Source.load package path)
  match files.flatten with
  | [] => throw .noSources
  | files => return files

/-- Writes a text to a file, or shows it as a line. -/
def emit (output : Option String) (text : String) : Attempt m String := do
  match output with
  | none => return text ++ "\n"
  | some path =>
    attempt (.unwritable path) (FileAccess.writeText path text)
    return ""

/-! ## 3. Commands -/

/-- What a command needs besides files. -/
structure Circumstances where
  settings : Settings
  now : Instant

def runExtract (c : Circumstances) (o : ExtractOptions) : Attempt m String := do
  let files ← readSources (o.files ++ o.folders)
  let (g, _) ← orFail .analysis (Analysis.graph o.strict c.settings.builder.patterns files)
  emit o.output (match o.format with
    | .json => g.toJson.pretty
    | .dot => Dot.render g)

def runFit (c : Circumstances) (o : FitOptions) : Attempt m String := do
  let g ← readGraph o.graph
  let traces ← o.traces.mapM (readJson TraceTable.ofJson?)
  let fitted ← orFail .analysis
    (Analysis.model c.settings.fitting c.now g traces o.staticOnly o.acceptLow)
  let r := Record.ofModel fitted
  if let some (directory, name) := o.keep then
    attempt (.store directory) (DiskStore.keepAt directory name r)
  emit o.output r.toText

def runImpact (c : Circumstances) (model : String) (intervention : Dictionary (Value Float))
    (samples : Option Nat) : Attempt m String := do
  let fitted ← readModel model
  let settings := c.settings.simulation
  let (outcome, _) := Simulation.estimateImpact Random.Generator settings fitted intervention
    (samples.getD settings.sampleCount) false []
  let impact ← orFail .impact outcome
  emit none impact.toJson.pretty

def Command.run (c : Circumstances) : Command → Attempt m String
  | .extract o => runExtract c o
  | .fit o => runFit c o
  | .impact model intervention samples => runImpact c model intervention samples
  | .paths input source target limit => do
    let g ← input.read
    let answer ← orFail .path (g.pathAnswer source target limit)
    emit none answer.toJson.pretty
  | .roots input node => do
    let g ← input.read
    let roots ← orFail .path (g.rootCauses node)
    emit none (Json.ofStrings roots).pretty
  | .draw input output => do
    let g ← input.read
    emit (some output) (Dot.render g)

/-- What a command line shows, or why it fails. -/
def Invocation.run (environment : String → Option String) (now : Instant) (i : Invocation) :
    m (Except Failure String) := ExceptT.run do
  let settings ← readSettings environment i.settings
  i.command.run ⟨settings, now⟩

end CommandLine

end CodeCausality
