import CodeCausality.Graph.Build
import CodeCausality.Model.Fit
import CodeCausality.Source.Passes

/-!
# From sources to a model

The two steps that a user of the library takes: the causal graph of a program from its sources, and
a fitted model from the graph. A failure says at which step it happened.
-/

namespace CodeCausality

namespace Analysis

/-- Why there is no graph or no model. -/
inductive Failure where
  /-- A source file could not be read. -/
  | source (path : String)
  | graph (error : GraphError Float)
  | fit (error : FitError Float)

def Failure.message : Failure → String
  | source path => s!"Failed to extract program structure: failed to parse {path}"
  | graph error => s!"Failed to build causal graph: {error.message}"
  | fit error => s!"Failed to fit mechanisms: {error.message}"

/-- The graph of the program that the files make up. If `strict`, every file has to be
readable;
the patterns name pure side effects. -/
def graph (strict : Bool) (patterns : List String) (files : List SourceFile) :
    Except Failure (CausalGraph Float × BuildReport) :=
  match Source.extract strict files with
  | .error e => .error (.source e.path)
  | .ok p =>
    (build (SideEffect.isPure patterns) p.elements p.relations p.controls).mapError .graph

/-- A model of the graph, fitted to the traces if there are any. A low score is a failure unless it
is accepted. -/
def model (settings : FitSettings Float) (now : Instant) (graph : CausalGraph Float)
    (traces : Option (TraceTable Float)) (staticOnly acceptLow : Bool) :
    Except Failure (Model Float) :=
  let outcome := CodeCausality.fit Random.Generator settings now graph traces staticOnly
  if acceptLow then (acceptLowScore outcome).mapError fun f => .fit (.fault f)
  else outcome.mapError .fit

end Analysis

end CodeCausality
