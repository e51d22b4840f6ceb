import CodeCausality.Source.Flow

/-!
# What walks find together

What the walks through all functions of the sources find, put together: of several elements with
one id the first stands, and a relation or a dependency whose ends are not both elements is left
out. A function whose id belongs to another one is not walked.
-/

namespace CodeCausality

namespace Source

variable {α : Type}

/-- The first of the elements of each id; those whose ids are among `seen` have been there. -/
def firstOfEach (seen : List String) : List Element → List Element
  | [] => []
  | e :: rest =>
    if seen.contains e.id then firstOfEach seen rest else e :: firstOfEach (e.id :: seen) rest

/-- The walk through a function, if the index holds it. -/
def walkOf? (index : FunctionIndex) (u : SourceUnit) (d : Definition) : Option (Walk α) := do
  let f ← index.get? d.id
  if f.place = d.place u.path then
    let setting : Setting := ⟨index, u.module, u.path, f.id, f.hasReturn⟩
    return Walk.ofFunction setting f d.function.body
  failure

/-- The walks through all functions, in the order of the text. -/
def walks (units : List SourceUnit) : List (Walk α) :=
  let index := FunctionIndex.ofUnits units
  units.flatMap fun u => u.definitions.filterMap (walkOf? index u)

/-- What several walks have found. -/
def merged (ws : List (Walk α)) : ProgramStructure α :=
  let elements := firstOfEach [] (ws.flatMap fun w => w.elements.reverse)
  let known := fun id => elements.any (·.id == id)
  { elements
    relations := (ws.flatMap fun w => w.relations.reverse).filter fun r =>
      known r.source && known r.target
    controls := (ws.flatMap fun w => w.controls.reverse).filter fun c =>
      known c.condition && known c.dependent }

end Source

end CodeCausality
