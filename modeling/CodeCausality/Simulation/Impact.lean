import CodeCausality.Graph.Reach
import CodeCausality.Numeric.Stats
import CodeCausality.Settings.Basic
import CodeCausality.Simulation.Draw

/-!
# The impact of an intervention

An intervention forces values at some nodes. Its impact on a node that depends on them is measured
by comparing draws with and without the forced values; both use the same noise. Reported are the
standardised difference of means, its bootstrap interval and the difference of means itself. A
category counts as an indicator of its most frequent label without the intervention.

The draws without intervention depend on the sample size and the seed only. A few of them are kept
(`Baselines`), so that a query may find them; they are what it would draw itself.
-/

namespace CodeCausality

/-! ## 1. Why a query fails -/

inductive ImpactError (α : Type) where
  | emptyIntervention
  | tooFewSamples (requested : Nat)
  | unknownNode (node : String)
  | unfitted (nodes : List String)
  | incompatibleValue (node : String) (domain : Domain) (value : Value α)
  | unmaterialised (reason : String)
  | cancelled

def ImpactError.message : ImpactError Float → String
  | emptyIntervention => "intervention is empty"
  | tooFewSamples n => s!"need at least 2 samples, got {n}"
  | unknownNode node => s!"node {node} is not in the causal graph"
  | unfitted nodes => "model has no fitted mechanism for: " ++ ", ".intercalate nodes
  | incompatibleValue node domain value =>
    "value " ++ value.display ++ s!" is incompatible with the {domain.name} domain of node {node}"
  | unmaterialised reason => s!"model could not be materialised: {reason}"
  | cancelled => "query cancelled"

namespace Simulation

variable {α : Type}

def PlanFault.toError : PlanFault → ImpactError α
  | .unfitted node => .unfitted [node]
  | .unusableParent node parent =>
    .unmaterialised s!"mechanism of {node} depends on unusable parent {parent}"

/-! ## 2. Interventions -/

/-- Forced values by node. -/
abbrev Intervention (α : Type) := Dictionary (Value α)

/-- The codes of the forced values. -/
def encodeClamps [Scalar α] (m : Model α) : List (String × Value α) →
    Except (ImpactError α) (List (String × α))
  | [] => .ok []
  | (id, value) :: rest =>
    match m.mechanism? id with
    | none => .error (.unfitted [id])
    | some n =>
      match n.domain.encode? value with
      | none => .error (.incompatibleValue id n.domain value)
      | some code => (encodeClamps m rest).map ((id, code) :: ·)

/-- The codes of an intervention that the model accepts. -/
def checkIntervention [Scalar α] (m : Model α) (i : Intervention α) (samples : Nat) :
    Except (ImpactError α) (List (String × α)) :=
  if i.isEmpty then .error .emptyIntervention
  else if samples < 2 then .error (.tooFewSamples samples)
  else match i.keys.find? fun id => !m.graph.contains id with
    | some id => .error (.unknownNode id)
    | none =>
      match m.missingMechanisms with
      | [] => encodeClamps m i.entries
      | missing => .error (.unfitted missing)

/-- The nodes that depend on the intervention and are not part of it. -/
def affectedNodes (m : Model α) (i : Intervention α) : List String :=
  (sortedIds (i.keys.flatMap m.graph.descendants)).filter fun id => !i.contains id

/-! ## 3. Kept baselines -/

/-- Draws without intervention, by sample size and seed. -/
abbrev Baselines (α : Type) := List ((Nat × UInt64) × Samples α)

def keptBaselines : Nat := 4

/-- Keeps the samples unless there are some of that key or no place is left. -/
def Baselines.keep (kept : Baselines α) (key : Nat × UInt64) (s : Samples α) : Baselines α :=
  if (kept.lookup key).isSome || decide (keptBaselines ≤ kept.length) then kept
  else kept ++ [(key, s)]

/-! ## 4. Measuring -/

variable [Scalar α] (ρ : Type) [Noise ρ α]

/-- The impact on all affected nodes. -/
structure Impact (α : Type) where
  intervention : Intervention α
  effects : Dictionary α
  intervals : Dictionary (α × α)
  shifts : Dictionary α
  samples : Nat

/-- Outcomes to compare: the codes themselves, for a category indicators of the label that is most
frequent in the baseline. -/
def outcomes (domain : Domain) (baseline intervened : List α) : List α × List α :=
  match domain with
  | .categorical labels =>
    let modal : α := Scalar.ofNat (Stats.mode baseline labels.length)
    let indicate (xs : List α) : List α := xs.map fun x => Scalar.indicator (x == modal)
    (indicate baseline, indicate intervened)
  | _ => (baseline, intervened)

/-- `n` members drawn with replacement. -/
def resample (xs : Array α) : Nat → ρ → List α → List α
  | 0, _, drawn => drawn.reverse
  | n + 1, r, drawn =>
    let (i, r) := Noise.choice xs.size r
    resample xs n r (xs.getD i 0 :: drawn)

/-- What separates the seeds of resamples from those of draws. -/
def resampleSalt : UInt64 := 0xb00757a9

/-- The effect sizes of resamples of the outcomes, in increasing order. -/
def resampledEffects (settings : SimulationSettings α) (reference : Stats.Reference α)
    (intervened : List α) (seed : UInt64) (position : Nat) : List α :=
  let xs := intervened.toArray
  let effect (b : Nat) : α :=
    let noise : ρ := Noise.start (streamSeed (seed ^^^ resampleSalt) (UInt64.ofNat b))
      (UInt64.ofNat position)
    reference.effectSize (resample ρ xs xs.size noise [])
  ((List.range settings.resampleCount).map effect).mergeSort Scalar.totalLE

/-- The bounds that leave out the same share on either side. -/
def interval (level : α) (sorted : List α) : α × α :=
  let outside := 1 - level
  (Stats.percentile sorted (outside / 2), Stats.percentile sorted (1 - outside / 2))

/-- What is measured at one node. -/
structure NodeImpact (α : Type) where
  effect : α
  interval : α × α
  shift : α

def measure (settings : SimulationSettings α) (domain : Domain) (baseline intervened : List α)
    (seed : UInt64) (position : Nat) : NodeImpact α :=
  let (base, forced) := outcomes domain baseline intervened
  let reference := Stats.Reference.ofSample base
  { effect := reference.effectSize forced
    interval := interval settings.confidenceLevel
      (resampledEffects ρ settings reference forced seed position)
    shift := Stats.mean forced - reference.mean }

/-- The domain of a node; continuous if it has no mechanism. -/
def domainOf (m : Model α) (id : String) : Domain :=
  match m.mechanism? id with
  | some n => n.domain
  | none => .continuous

/-- The impact of an intervention, from the samples with and without it. -/
def compare (settings : SimulationSettings α) (m : Model α) (order : List String)
    (i : Intervention α) (n : Nat) (seed : UInt64) (baseline intervened : Samples α) : Impact α :=
  let measured := (affectedNodes m i).map fun id =>
    let position := order.idxOf id
    (id, measure ρ settings (domainOf m id) (baseline.column position)
      (intervened.column position) seed position)
  { intervention := i
    effects := Dictionary.ofList (measured.map fun e => (e.1, e.2.effect))
    intervals := Dictionary.ofList (measured.map fun e => (e.1, e.2.interval))
    shifts := Dictionary.ofList (measured.map fun e => (e.1, e.2.shift))
    samples := n }

/-! ## 5. Queries -/

/-- The draws without intervention, kept ones or new ones, and the baselines kept from then on. -/
def baselineSamples (m : Model α) (order : List String) (n : Nat) (seed : UInt64)
    (cancelled : Bool) (kept : Baselines α) :
    Except (ImpactError α) (Samples α) × Baselines α :=
  match kept.lookup (n, seed) with
  | some s => (.ok s, kept)
  | none =>
    match plan m order [] with
    | .error f => (.error f.toError, kept)
    | .ok steps =>
      if cancelled then (.error .cancelled, kept)
      else
        let s := simulate ρ steps n seed
        (.ok s, kept.keep (n, seed) s)

/-- The impact of an intervention, measured with `n` draws, and the baselines kept from then on. A
query that is cancelled ends with that error as soon as it starts to draw. -/
def estimateImpact (settings : SimulationSettings α) (m : Model α) (i : Intervention α) (n : Nat)
    (cancelled : Bool) (kept : Baselines α) : Except (ImpactError α) (Impact α) × Baselines α :=
  match checkIntervention m i n with
  | .error e => (.error e, kept)
  | .ok clamps =>
    let order := m.graph.topologicalOrder
    let seed := settings.seed.getD m.metadata.seed
    match baselineSamples ρ m order n seed cancelled kept with
    | (.error e, kept) => (.error e, kept)
    | (.ok baseline, kept) =>
      match plan m order clamps with
      | .error f => (.error f.toError, kept)
      | .ok steps =>
        if cancelled then (.error .cancelled, kept)
        else
          let intervened := simulate ρ steps n seed
          (.ok (compare ρ settings m order i n seed baseline intervened), kept)

end Simulation

end CodeCausality
