import CodeCausality.Dictionary
import CodeCausality.Files.Basic

/-!
# Trees of files

A tree of files is what stands below a directory, by path. Every path leads from this directory;
a path that starts elsewhere leads nowhere, and above the directory is only itself.
-/

namespace CodeCausality

inductive FileEntry where
  | file (content : ByteArray)
  | directory

/-- Entries by the names that lead to them, with slashes between. -/
structure FileTree where
  entries : Dictionary FileEntry

namespace FileTree

/-! ## 1. Places -/

/-- The names that lead from the top of the tree. -/
abbrev Place := List String

def key (place : Place) : String := "/".intercalate place

def empty : FileTree := ⟨.empty⟩

/-- What stands at a place; the top is a directory. -/
def entry? (t : FileTree) : Place → Option FileEntry
  | [] => some .directory
  | place => t.entries.get? (key place)

/-- Where a part of a path leads from a place. -/
def step (place : Place) (part : String) : Place :=
  if part = "" ∨ part = "." then place
  else if part = ".." then place.dropLast
  else place ++ [part]

/-- Where the parts of a path lead from a place. All but the last stand for directories. -/
def resolveFrom (t : FileTree) (place : Place) : List String → Except FileFault Place
  | [] => .ok place
  | part :: rest =>
    match t.entry? place with
    | none => .error .missing
    | some (.file _) => .error .notDirectory
    | some .directory => resolveFrom t (step place part) rest

def partsOf (path : String) : List String := (path.toList.splitOn '/').map String.ofList

/-- Where a path leads. -/
def resolve (t : FileTree) (path : String) : Except FileFault Place :=
  match partsOf path with
  | "" :: _ => .error .missing
  | parts => t.resolveFrom [] parts

/-! ## 2. Reading -/

def kind? (t : FileTree) (path : String) : Option FileKind :=
  match t.resolve path with
  | .error _ => none
  | .ok place => (t.entry? place).map fun
    | .file _ => .file
    | .directory => .directory

def read (t : FileTree) (path : String) : Except FileFault ByteArray := do
  let place ← t.resolve path
  match t.entry? place with
  | none => .error .missing
  | some .directory => .error .isDirectory
  | some (.file content) => .ok content

/-- The names that lead from the one place to the other, if it is below. -/
def between : Place → Place → Option Place
  | [], place => some place
  | a :: top, b :: place => if a = b then between top place else none
  | _ :: _, [] => none

/-- The files below a directory, in the order of their paths. -/
def below (t : FileTree) (enter : String → Bool) (path : String) : List String :=
  match t.resolve path with
  | .error _ => []
  | .ok top => t.entries.entries.filterMap fun
    | (_, .directory) => none
    | (k, .file _) =>
      match between top (partsOf k) with
      | none => none
      | some names => if names.dropLast.all enter then some (key names) else none

/-! ## 3. Writing -/

/-- The tree with an entry at a place, whatever stood there. -/
def put (t : FileTree) (place : Place) (e : FileEntry) : FileTree :=
  ⟨t.entries.insert (key place) e⟩

def write (t : FileTree) (path : String) (content : ByteArray) : Except FileFault FileTree := do
  let parts := partsOf path
  let place ← t.resolve ("/".intercalate (parts.reverse.dropWhile (· = "")).reverse)
  if parts.getLast? = some "" then .error .isDirectory
  else
    match t.entry? place with
    | some .directory => .error .isDirectory
    | _ => .ok (t.put place (.file content))

/-- Makes the directories along the parts of a path, where there are none. -/
def makeAlong (t : FileTree) (place : Place) (parts : List String) : Except FileFault FileTree :=
  match t.entry? place, parts with
  | some (.file _), _ => .error .notDirectory
  | some .directory, [] => .ok t
  | some .directory, part :: rest => makeAlong t (step place part) rest
  | none, [] => .ok (t.put place .directory)
  | none, part :: rest => makeAlong (t.put place .directory) (step place part) rest

def makeDirectory (t : FileTree) (path : String) : Except FileFault FileTree :=
  match partsOf path with
  | "" :: _ => .error .missing
  | parts => t.makeAlong [] parts

/-- The tree with a file, or with a directory if there is no content, and all directories above. -/
def add (t : FileTree) (path : String) (content : Option String) : Except FileFault FileTree :=
  match content with
  | none => t.makeDirectory path
  | some text => do
    let t ← t.makeAlong [] (partsOf path).dropLast
    t.write path text.toByteArray

/-! ## 4. Access -/

/-- Actions that may change a tree of files. -/
abbrev Action := StateM FileTree

/-- The action of a change that may fail, and then changes nothing. -/
def changing (change : FileTree → Except FileFault FileTree) : Action (Except FileFault Unit) :=
  fun t =>
    match change t with
    | .ok changed => (.ok (), changed)
    | .error f => (.error f, t)

instance : FileAccess Action where
  kind? path := return (← get).kind? path
  read path := return (← get).read path
  write path content := changing (·.write path content)
  makeDirectory path := changing (·.makeDirectory path)
  below enter path := return (← get).below enter path

end FileTree

end CodeCausality
