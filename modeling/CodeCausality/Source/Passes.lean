import CodeCausality.Source.Extraction

/-!
# The structure of a program

The files are gone through twice. The first pass collects the signatures of all functions in an
index; a file that cannot be read ends it if `strict`, and is passed over otherwise. The second pass
goes through the items of each file again and walks through every function that it finds in the
index under the same id and at the same place.

Neither pass hands the other anything but the index, so that both visit the same functions has to be
shown: `FunctionIndex.build_eq` and `extract_eq`, in `Proofs/Source/Passes`.
-/

namespace CodeCausality

namespace Source

/-! ## 1. The index -/

/-- The signature of a function that stands inside of `outer` in the file at a path. -/
def signature (path outer : String) (isMethod : Bool) (f : Function) : Signature where
  id := within outer f.name
  name := f.name
  params := f.params
  hasReturn := f.hasReturn
  isMethod
  place := ⟨path, f.line⟩

mutual

/-- The signatures of the functions in an item, in the order of the text. -/
def signaturesOfItem (path outer : String) : Item → List Signature
  | .function f => [signature path outer false f]
  | .implementation (some t) methods => methods.map (signature path (within outer t) true)
  | .implementation none _ => []
  | .module name items => signaturesOf path (within outer name) items
  | .other => []

def signaturesOf (path outer : String) : List Item → List Signature
  | [] => []
  | i :: rest => signaturesOfItem path outer i ++ signaturesOf path outer rest

end

namespace FunctionIndex

/-- Adds the functions of one file after another. -/
def addFiles (strict : Bool) : FunctionIndex → List SourceFile → Except Unreadable FunctionIndex
  | x, [] => .ok x
  | x, file :: rest =>
    match itemsOf? file.content with
    | some items =>
      addFiles strict ((signaturesOf file.path (moduleOf file.path) items).foldl add x) rest
    | none => if strict then .error ⟨file.path⟩ else addFiles strict x rest

/-- The index of all functions in the files. -/
def build (strict : Bool) (files : List SourceFile) : Except Unreadable FunctionIndex :=
  addFiles strict empty files

end FunctionIndex

/-! ## 2. The walks -/

section Walks

variable {α : Type} (index : FunctionIndex) (module path : String)

/-- The walk through a function, if the index holds one of its id at its place. -/
def walkFunction? (outer : String) (f : Function) : Option (Walk α) := do
  let s ← index.get? (within outer f.name)
  if s.place = ⟨path, f.line⟩ then
    return Walk.ofFunction ⟨index, module, path, s.id, s.hasReturn⟩ s f.body
  failure

mutual

/-- The walks through the functions in an item, in the order of the text. -/
def walksOfItem (outer : String) : Item → List (Walk α)
  | .function f => (walkFunction? index module path outer f).toList
  | .implementation (some t) methods =>
    methods.filterMap (walkFunction? index module path (within outer t))
  | .implementation none _ => []
  | .module name items => walksOf (within outer name) items
  | .other => []

def walksOf (outer : String) : List Item → List (Walk α)
  | [] => []
  | i :: rest => walksOfItem outer i ++ walksOf outer rest

end

/-- The walks through the functions of a file; none if it cannot be read. -/
def walksOfFile (file : SourceFile) : List (Walk α) :=
  match itemsOf? file.content with
  | some items => walksOf index (moduleOf file.path) file.path (moduleOf file.path) items
  | none => []

end Walks

/-- The structure of the program that the files make up. -/
def extract {α : Type} (strict : Bool) (files : List SourceFile) :
    Except Unreadable (ProgramStructure α) :=
  (FunctionIndex.build strict files).map fun index => merged (files.flatMap (walksOfFile index))

end Source

end CodeCausality
