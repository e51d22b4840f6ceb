import CodeCausality.Files.Basic
import CodeCausality.Files.Path
import CodeCausality.Program.Element

/-!
# Loading source files

A path stands for the source file at it, or for all source files below it, in the order of their
paths. Directories of build products and of version control are passed over.
-/

namespace CodeCausality

namespace Source

/-- Why sources cannot be loaded. -/
inductive LoadError where
  | notFound (path : String)
  | unreadable (path : String) (fault : FileFault)
  deriving Repr, DecidableEq

/-- The failure and what caused it. -/
def LoadError.causes : LoadError → List String
  | notFound path => [s!"Source path not found: {path}"]
  | unreadable path fault => [s!"Failed to read file {path}", fault.message]

/-- The extension of source files. -/
def extension : String := "rs"

/-- The names of directories that hold no sources of a program. -/
def passedOver : List String := ["target", ".git"]

variable {m : Type → Type} [Monad m] [FileAccess m]

/-- The paths of the source files that a path stands for. -/
def pathsAt (path : String) : m (Except LoadError (List String)) := do
  match ← FileAccess.kind? path with
  | none => return .error (.notFound path)
  | some kind =>
    if passedOver.any (Path.endsWith · path) then return .ok []
    match kind with
    | .file => return .ok ([path].filter (Path.hasExtension extension))
    | .directory =>
      let names ← FileAccess.below (fun name => !passedOver.contains name) path
      return .ok ((names.filter (Path.hasExtension extension)).map (Path.join path))

/-- The source files that a path stands for, as parts of a package. -/
def load (package path : String) : m (Except LoadError (List SourceFile)) := ExceptT.run do
  let paths ← ExceptT.mk (pathsAt path)
  (paths.mergeSort fun p q => decide (p ≤ q)).mapM fun p => do
    match ← FileAccess.readText (m := m) p with
    | .ok content => return ⟨package, p, content⟩
    | .error fault => throw (.unreadable p fault)

end Source

end CodeCausality
