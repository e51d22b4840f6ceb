import CodeCausality.Files.Path
import CodeCausality.Source.Grammar.File
import CodeCausality.Program.Element
import CodeCausality.Dictionary

/-!
# The index of functions

Every function of the sources has an id: the module of its file, the modules and the type around
it, and its name, with `::` between them. This file fixes

* `moduleOf`, the module of a file;
* `FunctionIndex`, one signature an id; of several functions with one id the first stands;
* how a call is resolved: only where a single function comes into question.
-/

namespace CodeCausality

namespace Source

/-! ## 1. Modules of files -/

/-- The module of the file at a path, `module` if the path ends with no file. -/
def moduleOf (path : String) : String :=
  match Path.fileName? path with
  | some name => String.ofList (Path.splitExtension name).1
  | none => "module"

/-! ## 2. Signatures -/

/-- A line of a file. -/
structure Place where
  path : String
  line : Nat
  deriving Repr, DecidableEq

def Place.text (p : Place) : String := p.path ++ ":" ++ toString p.line

/-- What a caller has to know about a function. A parameter that is not a single name has none. -/
structure Signature where
  id : String
  name : String
  params : List (Option String)
  hasReturn : Bool
  isMethod : Bool
  place : Place
  deriving Repr, DecidableEq

/-- A name inside of what has the id `outer`. -/
def within (outer name : String) : String := outer ++ "::" ++ name

/-- A function, the id of what stands around it, and whether it is a method. -/
structure Definition where
  outer : String
  isMethod : Bool
  function : Function

namespace Definition

def id (d : Definition) : String := within d.outer d.function.name

def place (path : String) (d : Definition) : Place := ⟨path, d.function.line⟩

def signature (path : String) (d : Definition) : Signature where
  id := d.id
  name := d.function.name
  params := d.function.params
  hasReturn := d.function.hasReturn
  isMethod := d.isMethod
  place := d.place path

end Definition

mutual

/-- The functions that an item defines inside of `outer`, in the order of the text. -/
def definitionsOfItem (outer : String) : Item → List Definition
  | .function f => [⟨outer, false, f⟩]
  | .implementation (some t) methods => methods.map fun f => ⟨within outer t, true, f⟩
  | .implementation none _ => []
  | .module name items => definitions (within outer name) items
  | .other => []

def definitions (outer : String) : List Item → List Definition
  | [] => []
  | i :: rest => definitionsOfItem outer i ++ definitions outer rest

end

/-! ## 3. Files -/

/-- A file that has been read: its path and the functions in it. -/
structure SourceUnit where
  path : String
  definitions : List Definition

def SourceUnit.module (u : SourceUnit) : String := moduleOf u.path

/-- Reads a file. -/
def SourceUnit.ofFile? (file : SourceFile) : Option SourceUnit :=
  (itemsOf? file.content).map fun items => ⟨file.path, Source.definitions (moduleOf file.path) items⟩

/-- A file that could not be read. -/
structure Unreadable where
  path : String
  deriving Repr, DecidableEq

/-- The files that can be read. If `strict`, all of them have to be; the first that cannot is the
error. -/
def readFiles (strict : Bool) : List SourceFile → Except Unreadable (List SourceUnit)
  | [] => .ok []
  | file :: rest =>
    match SourceUnit.ofFile? file with
    | some u => (readFiles strict rest).map (u :: ·)
    | none => if strict then .error ⟨file.path⟩ else readFiles strict rest

/-! ## 4. The index -/

/-- One signature an id. -/
structure FunctionIndex where
  signatures : Dictionary Signature
  keyed : ∀ e ∈ signatures.entries, e.1 = e.2.id

namespace FunctionIndex

def empty : FunctionIndex := ⟨.empty, fun _ h => nomatch h⟩

/-- The index with one more signature, unless its id is taken. -/
def add (x : FunctionIndex) (s : Signature) : FunctionIndex :=
  if x.signatures.contains s.id then x
  else
    ⟨x.signatures.insert s.id s, fun _ h => (Entries.mem_place h).elim (fun h => h ▸ rfl) (x.keyed _)⟩

/-- The index of the given files. -/
def ofUnits (units : List SourceUnit) : FunctionIndex :=
  (units.flatMap fun u => u.definitions.map (·.signature u.path)).foldl add empty

def get? (x : FunctionIndex) (id : String) : Option Signature := x.signatures.get? id

def size (x : FunctionIndex) : Nat := x.signatures.size

/-- All signatures in the order of their ids. -/
def toList (x : FunctionIndex) : List Signature := x.signatures.values

/-- The signatures of a name. -/
def named (x : FunctionIndex) (name : String) : List Signature :=
  x.toList.filter fun s => s.name == name

/-- The member of a list that has no other. -/
def single? {α : Type} : List α → Option α
  | [a] => some a
  | _ => none

/-- Whether an id ends with the given last two segments, something before them. -/
def endsWith (id outer name : String) : Bool :=
  (within ("::" ++ outer) name).toList.isSuffixOf id.toList

/-- The function that a path calls from inside of a module. A single name is first that of a
function of the module, then that of the only function of the name that is no method; with more
segments, the last two decide. -/
def resolveCall (x : FunctionIndex) (segments : List String) (module : String) :
    Option Signature :=
  match segments.reverse with
  | [] => none
  | [name] =>
    match x.get? (within module name) with
    | some s => some s
    | none => single? ((x.named name).filter fun s => !s.isMethod)
  | name :: outer :: _ =>
    single? ((x.named name).filter fun s =>
      endsWith s.id outer name || s.id == within module name)

/-- The only method of a name. -/
def resolveMethod (x : FunctionIndex) (name : String) : Option Signature :=
  single? ((x.named name).filter fun s => s.isMethod)

end FunctionIndex

end Source

end CodeCausality
