import CodeCausality.Simulation.Impact

/-!
# The streams of noise that a query starts

A query with a note of each stream that it starts: for each draw its seed and the streams of its
nodes, for each node that is measured the streams of its resamples.

* `Stream` -- what selects a stream; all noise of a query is `Stream.start` of one that is noted;
* `drawNoting`, `simulateNoting`, `effectsNoting`, `measureNoting`, `compareNoting`,
  `baselineNoting`, `impactNoting` -- drawing, resampling, measuring and answering with notes.
-/

namespace CodeCausality

namespace Simulation

/-! ## 1. Notes -/

/-- A stream of noise: the seed of a generator and the position of one of its streams. -/
structure Stream where
  seed : UInt64
  position : UInt64
  deriving Repr, DecidableEq

/-- The noise at the start of a stream. -/
def Stream.start {α : Type} (ρ : Type) [Noise ρ α] (s : Stream) : ρ := Noise.start s.seed s.position

/-- What is noted of a draw: its seed and the streams that its nodes start. -/
structure DrawNote where
  seed : UInt64
  streams : List Stream
  deriving Repr, DecidableEq

/-- What is noted of a query: its draws without the intervention (none where kept samples are
found), its draws with it and, node by node, the streams of its resamples. -/
structure Notes where
  baseline : List DrawNote
  forced : List DrawNote
  resamples : List (List Stream)
  deriving Repr, DecidableEq

section Noting

variable {α : Type} [Scalar α] (ρ : Type) [Noise ρ α]

/-! ## 2. Draws -/

/-- `advance`, with the streams that are started. A clamped node starts none. -/
def DrawState.advanceNoting (seed : UInt64) (run : DrawState α × List Stream)
    (entry : Step α × Nat) : DrawState α × List Stream :=
  let (step, position) := entry
  match step.clamp with
  | some v => ({ run.1 with values := run.1.values ++ [v] }, run.2)
  | none =>
    let buffer := gather step run.1.values
    let stream : Stream := ⟨seed, UInt64.ofNat position⟩
    (⟨run.1.values ++ [(step.mechanism.sample buffer (stream.start ρ)).1], buffer⟩,
      run.2 ++ [stream])

/-- The values of all nodes in one draw, and what is noted of it. -/
def drawNoting (steps : List (Step α)) (seed : UInt64) : List α × DrawNote :=
  let run := steps.zipIdx.foldl (DrawState.advanceNoting ρ seed) (⟨[], []⟩, [])
  (run.1.values, ⟨seed, run.2⟩)

/-- The draws by node, and what is noted of them. -/
def simulateNoting (steps : List (Step α)) (n : Nat) (seed : UInt64) :
    Samples α × List DrawNote :=
  let drawn := (List.range n).map fun i => drawNoting ρ steps (streamSeed seed (UInt64.ofNat i))
  let rows := drawn.map (·.1)
  (⟨(List.range steps.length).map fun position => rows.map fun row => row.getD position 0⟩,
    drawn.map (·.2))

/-! ## 3. Resamples -/

/-- The stream of resample `b` at the node of a position. -/
def resampleStream (seed : UInt64) (position b : Nat) : Stream :=
  ⟨streamSeed (seed ^^^ resampleSalt) (UInt64.ofNat b), UInt64.ofNat position⟩

/-- The effect sizes of the resamples, in increasing order, and the streams that they are from. -/
def effectsNoting (settings : SimulationSettings α) (reference : Stats.Reference α)
    (intervened : List α) (seed : UInt64) (position : Nat) : List α × List Stream :=
  let xs := intervened.toArray
  let noted := (List.range settings.resampleCount).map fun b =>
    let stream := resampleStream seed position b
    (reference.effectSize (resample ρ xs xs.size (stream.start ρ) []), stream)
  ((noted.map (·.1)).mergeSort Scalar.totalLE, noted.map (·.2))

def measureNoting (settings : SimulationSettings α) (domain : Domain)
    (baseline intervened : List α) (seed : UInt64) (position : Nat) :
    NodeImpact α × List Stream :=
  let (base, forced) := outcomes domain baseline intervened
  let reference := Stats.Reference.ofSample base
  let resampled := effectsNoting ρ settings reference forced seed position
  ({ effect := reference.effectSize forced
     interval := interval settings.confidenceLevel resampled.1
     shift := Stats.mean forced - reference.mean }, resampled.2)

/-! ## 4. Queries -/

/-- `compare`, with the streams of the resamples at each node. -/
def compareNoting (settings : SimulationSettings α) (m : Model α) (order : List String)
    (i : Intervention α) (n : Nat) (seed : UInt64) (baseline intervened : Samples α) :
    Impact α × List (List Stream) :=
  let noted := (affectedNodes m i).map fun id =>
    let position := order.idxOf id
    (id, measureNoting ρ settings (domainOf m id) (baseline.column position)
      (intervened.column position) seed position)
  let measured := noted.map fun e => (e.1, e.2.1)
  ({ intervention := i
     effects := Dictionary.ofList (measured.map fun e => (e.1, e.2.effect))
     intervals := Dictionary.ofList (measured.map fun e => (e.1, e.2.interval))
     shifts := Dictionary.ofList (measured.map fun e => (e.1, e.2.shift))
     samples := n }, noted.map fun e => e.2.2)

/-- `baselineSamples`, with what is noted of the draws. -/
def baselineNoting (m : Model α) (order : List String) (n : Nat) (seed : UInt64)
    (cancelled : Bool) (kept : Baselines α) :
    (Except (ImpactError α) (Samples α) × Baselines α) × List DrawNote :=
  match kept.lookup (n, seed) with
  | some s => ((.ok s, kept), [])
  | none =>
    match plan m order [] with
    | .error f => ((.error f.toError, kept), [])
    | .ok steps =>
      if cancelled then ((.error .cancelled, kept), [])
      else
        let drawn := simulateNoting ρ steps n seed
        ((.ok drawn.1, kept.keep (n, seed) drawn.1), drawn.2)

/-- `estimateImpact`, with what is noted of the query. -/
def impactNoting (settings : SimulationSettings α) (m : Model α) (i : Intervention α) (n : Nat)
    (cancelled : Bool) (kept : Baselines α) :
    (Except (ImpactError α) (Impact α) × Baselines α) × Notes :=
  match checkIntervention m i n with
  | .error e => ((.error e, kept), ⟨[], [], []⟩)
  | .ok clamps =>
    let order := m.graph.topologicalOrder
    let seed := settings.seed.getD m.metadata.seed
    match baselineNoting ρ m order n seed cancelled kept with
    | ((.error e, kept), notes) => ((.error e, kept), ⟨notes, [], []⟩)
    | ((.ok baseline, kept), notes) =>
      match plan m order clamps with
      | .error f => ((.error f.toError, kept), ⟨notes, [], []⟩)
      | .ok steps =>
        if cancelled then ((.error .cancelled, kept), ⟨notes, [], []⟩)
        else
          let intervened := simulateNoting ρ steps n seed
          let compared := compareNoting ρ settings m order i n seed baseline intervened.1
          ((.ok compared.1, kept), ⟨notes, intervened.2, compared.2⟩)

end Noting

end Simulation

end CodeCausality
