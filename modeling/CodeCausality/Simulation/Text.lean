import CodeCausality.Json.Printer
import CodeCausality.Simulation.Impact

/-!
# Impacts as JSON
-/

namespace CodeCausality

namespace Simulation

open Json

/-- An impact as an object: the intervention, and per affected node its effect, the interval of the
effect and the shift of the mean. -/
def Impact.toJson (i : Impact Float) : Json :=
  let byNode := fun {β : Type} (f : β → Json) (d : Dictionary β) =>
    Json.object (d.entries.map fun e => (e.1, f e.2))
  .object [("intervention", byNode Value.toJson i.intervention),
    ("affected_nodes", byNode ofFloat i.effects),
    ("confidence_intervals", byNode (fun b => .array [ofFloat b.1, ofFloat b.2]) i.intervals),
    ("mean_shifts", byNode ofFloat i.shifts), ("sample_size", ofNat i.samples)]

end Simulation

end CodeCausality
