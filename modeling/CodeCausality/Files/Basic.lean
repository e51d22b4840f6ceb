/-!
# Access to files

What a program asks of files: what stands at a path, to read and to write, to make directories and
to list what is below them. `FileAccess m` says that the actions of `m` can do this; a tree of files
can (`FileTree`), and so can a disk.
-/

namespace CodeCausality

/-- Why a file cannot be read or written. -/
inductive FileFault where
  | missing
  | notDirectory
  | isDirectory
  /-- The bytes of a file are no text. -/
  | notText
  | other (description : String) (code : Nat)
  deriving Repr, DecidableEq

/-- A description with the number that the operating system gives the fault. -/
def FileFault.numbered (description : String) (code : Nat) : String :=
  s!"{description} (os error {code})"

def FileFault.message : FileFault → String
  | missing => numbered "No such file or directory" 2
  | notDirectory => numbered "Not a directory" 20
  | isDirectory => numbered "Is a directory" 21
  | notText => "stream did not contain valid UTF-8"
  | other description code => numbered description code

inductive FileKind where
  | file
  | directory
  deriving Repr, DecidableEq

class FileAccess (m : Type → Type) where
  /-- What stands at a path, if anything does. -/
  kind? : String → m (Option FileKind)
  read : String → m (Except FileFault ByteArray)
  /-- Puts bytes into a file, in place of what was there. -/
  write : String → ByteArray → m (Except FileFault Unit)
  /-- Makes a directory and those above it, where there are none. -/
  makeDirectory : String → m (Except FileFault Unit)
  /-- The paths of the files below a directory, seen from there. Below it only the directories are
  entered whose names may be. -/
  below : (String → Bool) → String → m (List String)

namespace FileAccess

variable {m : Type → Type} [Monad m] [FileAccess m]

/-- The text of a file in UTF-8. -/
def readText (path : String) : m (Except FileFault String) := do
  match ← read path with
  | .error f => return .error f
  | .ok bytes =>
    match String.fromUTF8? bytes with
    | some text => return .ok text
    | none => return .error .notText

def writeText (path text : String) : m (Except FileFault Unit) := write path text.toByteArray

end FileAccess

end CodeCausality
