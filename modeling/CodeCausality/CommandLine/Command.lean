import CodeCausality.CommandLine.Options
import CodeCausality.Dictionary
import CodeCausality.Graph.Paths
import CodeCausality.Text.Blank
import CodeCausality.Text.Word
import CodeCausality.Value

/-!
# Commands

What a user can ask for on a command line: a graph from sources, a model from a graph, and questions
to either. `Invocation.ofWords?` reads the words of a command line; words that are no command line
have no reading, and of these no more is said than that.
-/

namespace CodeCausality

namespace CommandLine

/-! ## 1. Commands -/

inductive GraphFormat where
  | json
  | dot
  deriving Repr, DecidableEq

/-- The file that holds a graph, alone or within a model. -/
inductive GraphInput where
  | graph (path : String)
  | model (path : String)
  deriving Repr, DecidableEq

structure ExtractOptions where
  files : List String
  folders : List String
  strict : Bool
  output : Option String
  format : GraphFormat

structure FitOptions where
  graph : String
  traces : Option String
  staticOnly : Bool
  acceptLow : Bool
  output : Option String
  /-- The store to keep the model in, and the model's name there. -/
  keep : Option (String × String)

inductive Command where
  | extract (o : ExtractOptions)
  | fit (o : FitOptions)
  | impact (model : String) (intervention : Dictionary (Value Float)) (samples : Option Nat)
  | paths (input : GraphInput) (source target : String) (limit : Nat)
  | roots (input : GraphInput) (node : String)
  | draw (input : GraphInput) (output : String)

/-- A command and the directory that holds the settings. -/
structure Invocation where
  settings : String
  command : Command

/-! ## 2. Values of options -/

/-- A path is not empty. -/
def path? (v : String) : Option String := if v.isEmpty then none else some v

/-- `node=value` up to the first equals sign; the node is what is not blank. -/
def assignment? (v : String) : Option (String × Value Float) :=
  match splitEquals v.toList with
  | (_, none) => none
  | (node, some value) =>
    match Text.trim node with
    | [] => none
    | node => some (String.ofList node, Value.ofLiteral (String.ofList value))

def format? (v : String) : Option GraphFormat :=
  match v with
  | "json" => some .json
  | "dot" => some .dot
  | _ => none

def count? (v : String) : Option Nat := Text.word? v.toList

/-- The value of an option that may be missing. -/
def optional? {β : Type} (given : List GivenOption) (name : String) (read : String → Option β) :
    Option (Option β) :=
  match valuesOf given name with
  | [] => some none
  | v :: _ => (read v).map some

/-- The value of an option that must be there. -/
def required? {β : Type} (given : List GivenOption) (name : String) (read : String → Option β) :
    Option β := do
  (← valuesOf given name |>.head?) |> read

def repeated? {β : Type} (given : List GivenOption) (name : String) (read : String → Option β) :
    Option (List β) :=
  (valuesOf given name).mapM read

/-! ## 3. Commands from their options -/

/-- The options that stand before or behind the name of the command. -/
def commonRules : List OptionRule :=
  [⟨"config-dir", none, .single⟩, ⟨"threads", none, .single⟩]

def inputRules : List OptionRule := [⟨"graph", some 'g', .single⟩, ⟨"model", some 'm', .single⟩]

/-- Either a graph or a model is given. -/
def input? (given : List GivenOption) : Option GraphInput := do
  match ← optional? given "graph" path?, ← optional? given "model" path? with
  | some path, none => return .graph path
  | none, some path => return .model path
  | _, _ => none

def extract? (given : List GivenOption) : Option Command := do
  let files ← repeated? given "input" path?
  let folders ← repeated? given "folder" path?
  let output ← optional? given "output" path?
  let format := (← optional? given "format" format?).getD .json
  return .extract ⟨files, folders, isGiven given "strict", output, format⟩

def fit? (given : List GivenOption) : Option Command := do
  let graph ← required? given "graph" path?
  let traces ← optional? given "traces" path?
  let output ← optional? given "output" path?
  let name ← optional? given "name" some
  let keep ← match ← optional? given "store" path?, name with
    | none, _ => some none
    | some store, some name => some (some (store, name))
    | some _, none => none
  return .fit ⟨graph, traces, isGiven given "static-only", isGiven given "accept-low-score", output,
    keep⟩

def impact? (given : List GivenOption) : Option Command := do
  let model ← required? given "model" path?
  let assignments ← repeated? given "set" assignment?
  let samples ← optional? given "samples" count?
  if assignments.isEmpty then none
  else return .impact model (.ofList assignments) samples

def paths? (given : List GivenOption) : Option Command := do
  let input ← input? given
  let source ← required? given "source" some
  let target ← required? given "target" some
  let limit := (← optional? given "max-paths" count?).getD defaultPathLimit
  return .paths input source target limit

def roots? (given : List GivenOption) : Option Command := do
  return .roots (← input? given) (← required? given "node" some)

def draw? (given : List GivenOption) : Option Command := do
  return .draw (← input? given) (← required? given "output" path?)

/-- The options of a command, and how it is read from them. -/
structure CommandRule where
  name : String
  options : List OptionRule
  read : List GivenOption → Option Command

def commandRules : List CommandRule := [
  ⟨"extract", [⟨"input", some 'i', .repeated⟩, ⟨"folder", some 'd', .repeated⟩,
    ⟨"strict", none, .flag⟩, ⟨"output", some 'o', .single⟩, ⟨"format", some 'f', .single⟩],
    extract?⟩,
  ⟨"fit", [⟨"graph", some 'g', .single⟩, ⟨"traces", some 't', .single⟩,
    ⟨"static-only", none, .flag⟩, ⟨"accept-low-score", none, .flag⟩, ⟨"output", some 'o', .single⟩,
    ⟨"store", none, .single⟩, ⟨"name", none, .single⟩], fit?⟩,
  ⟨"impact", [⟨"model", some 'm', .single⟩, ⟨"set", some 's', .repeated⟩,
    ⟨"samples", some 'n', .single⟩], impact?⟩,
  ⟨"paths", inputRules ++ [⟨"source", none, .single⟩, ⟨"target", none, .single⟩,
    ⟨"max-paths", none, .single⟩], paths?⟩,
  ⟨"roots", inputRules ++ [⟨"node", none, .single⟩], roots?⟩,
  ⟨"export", inputRules ++ [⟨"output", some 'o', .single⟩], draw?⟩]

/-- The names of the commands, for a user whose words are none. -/
def usage : String := "one of the commands " ++ ", ".intercalate (commandRules.map (·.name))

/-! ## 4. Command lines -/

/-- The options at the front of the words, if they are read and none is given too often. -/
def options? (rules : List OptionRule) (words : List String) :
    Option (List GivenOption × List String) := do
  let (given, rest) ← scan? rules words
  if withinBounds rules given then return (given, rest) else none

/-- The directory of the settings among the common options, if it is given. The number of threads
has to be a number; no answer depends on it. -/
def common? (given : List GivenOption) : Option (Option String) := do
  let _ ← optional? given "threads" count?
  optional? given "config-dir" path?

/-- The invocation that the words are. A common option behind the name of the command stands over
one before it. -/
def Invocation.ofWords? (words : List String) : Option Invocation := do
  let (before, rest) ← options? commonRules words
  match rest with
  | [] => none
  | name :: rest =>
    let rule ← commandRules.find? (·.name == name)
    let (given, rest) ← options? (rule.options ++ commonRules) rest
    let outer ← common? before
    let inner ← common? given
    if rest.isEmpty then return ⟨(inner <|> outer).getD ".", ← rule.read given⟩ else none

end CommandLine

end CodeCausality
