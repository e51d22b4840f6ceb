import CodeCausality.Simulation.Impact

/-!
# Queries that are cancelled

A query looks at a flag before each draw, before it measures a node and before each resample. The
first look that finds the flag set ends the query, and what was drawn in the current run is given
up; samples without the intervention that were complete before are kept nevertheless.

* `Looks` -- what the looks of one query find;
* `watchedImpact` -- a query with such a flag. With a flag that is set from the start, or never, it
  is `estimateImpact`;
* `runQueries` -- queries on one model, one after another.
-/

namespace CodeCausality

namespace Simulation

/-- What a query finds when it looks at its flag. -/
structure Looks where
  /-- Before a draw without the intervention. -/
  baseline : Nat → Bool
  /-- Before a draw with it. -/
  forced : Nat → Bool
  /-- Before measuring a node. -/
  node : String → Bool
  /-- Before a resample at a node. -/
  resample : String → Nat → Bool

namespace Looks

/-- All looks find the same. -/
def always (isSet : Bool) : Looks :=
  ⟨fun _ => isSet, fun _ => isSet, fun _ => isSet, fun _ _ => isSet⟩

/-- A flag that is set before a draw without the intervention is still set before those with it. -/
def Lasting (looks : Looks) : Prop :=
  ∀ k j, looks.baseline k = true → looks.forced j = true

/-- Whether the flag is found set while the nodes are measured. -/
def interrupts {α : Type} [Scalar α] (looks : Looks) (settings : SimulationSettings α)
    (nodes : List String) : Bool :=
  nodes.any fun id => looks.node id || (List.range settings.resampleCount).any (looks.resample id)

end Looks

section Watched

variable {α : Type} [Scalar α] (ρ : Type) [Noise ρ α]

/-- The samples of a plan, unless the flag is found set before one of the draws. -/
def watchedSimulate (steps : List (Step α)) (n : Nat) (seed : UInt64) (look : Nat → Bool) :
    Except (ImpactError α) (Samples α) :=
  if (List.range n).any look then .error .cancelled else .ok (simulate ρ steps n seed)

/-- The draws without intervention, kept ones or new ones, and the baselines kept from then on. -/
def watchedBaseline (m : Model α) (n : Nat) (seed : UInt64) (looks : Looks) (kept : Baselines α) :
    Except (ImpactError α) (Samples α) × Baselines α :=
  match kept.lookup (n, seed) with
  | some s => (.ok s, kept)
  | none =>
    match plan m m.graph.topologicalOrder [] with
    | .error f => (.error f.toError, kept)
    | .ok steps =>
      match watchedSimulate ρ steps n seed looks.baseline with
      | .error e => (.error e, kept)
      | .ok s => (.ok s, kept.keep (n, seed) s)

/-- The impact of clamped values, given the samples without them. -/
def watchedCompare (settings : SimulationSettings α) (m : Model α) (i : Intervention α) (n : Nat)
    (seed : UInt64) (looks : Looks) (clamps : List (String × α)) (baseline : Samples α) :
    Except (ImpactError α) (Impact α) :=
  match plan m m.graph.topologicalOrder clamps with
  | .error f => .error f.toError
  | .ok steps =>
    match watchedSimulate ρ steps n seed looks.forced with
    | .error e => .error e
    | .ok intervened =>
      if looks.interrupts settings (affectedNodes m i) then .error .cancelled
      else .ok (compare ρ settings m m.graph.topologicalOrder i n seed baseline intervened)

/-- The impact of an intervention, and the baselines kept from then on, while the flag is watched. -/
def watchedImpact (settings : SimulationSettings α) (m : Model α) (i : Intervention α) (n : Nat)
    (looks : Looks) (kept : Baselines α) : Except (ImpactError α) (Impact α) × Baselines α :=
  match checkIntervention m i n with
  | .error e => (.error e, kept)
  | .ok clamps =>
    let seed := settings.seed.getD m.metadata.seed
    let found := watchedBaseline ρ m n seed looks kept
    (found.1.bind (watchedCompare ρ settings m i n seed looks clamps), found.2)

/-- A query, with the settings that it is asked under. -/
structure Query (α : Type) where
  settings : SimulationSettings α
  intervention : Intervention α
  samples : Nat
  looks : Looks

/-- The answer to a query, and the baselines kept from then on. -/
def Query.run (m : Model α) (q : Query α) (kept : Baselines α) :
    Except (ImpactError α) (Impact α) × Baselines α :=
  watchedImpact ρ q.settings m q.intervention q.samples q.looks kept

/-- The answers to queries, one after another, and the baselines kept in the end. -/
def runQueries (m : Model α) : Baselines α → List (Query α) →
    List (Except (ImpactError α) (Impact α)) × Baselines α
  | kept, [] => ([], kept)
  | kept, q :: rest =>
    let answered := q.run ρ m kept
    let later := runQueries m answered.2 rest
    (answered.1 :: later.1, later.2)

end Watched

end Simulation

end CodeCausality
