import CodeCausality.Files.Basic
import CodeCausality.Files.Path
import CodeCausality.Store.Basic

/-!
# Stores in directories

A store on a disk is a directory with the tree of the store in one of its files. Opening a store
where there is none makes an empty one.
-/

namespace CodeCausality

namespace Binary.Format

def byte : Format UInt8 where
  write b := [b]
  read bs := (takeNat 1 bs).map fun (n, rest) => (UInt8.ofNat n, rest)

end Binary.Format

namespace ByteTree

open Binary Binary.Format

/-- The entries in the order of their keys. -/
def format : Format ByteTree :=
  (byte.list.pair byte.list).list.convert
    (fun es => es.foldl (fun t e => t.insert e.1 e.2) empty) ByteTree.entries

end ByteTree

/-- Why a store cannot be opened or closed. -/
inductive StoreFault where
  | file (fault : FileFault)
  | damaged (fault : Binary.Fault)
  deriving Repr, DecidableEq

namespace DiskStore

variable {m : Type → Type} [Monad m] [FileAccess m]

/-- The file in a store's directory that holds its tree. -/
def fileName : String := "models"

/-- The store in a directory. -/
def openAt (directory : String) : m (Except StoreFault DiskStore) := do
  match ← FileAccess.makeDirectory directory with
  | .error fault => return .error (.file fault)
  | .ok () =>
    match ← FileAccess.read (Path.join directory fileName) with
    | .error .missing => return .ok empty
    | .error fault => return .error (.file fault)
    | .ok bytes =>
      match ByteTree.format.read bytes.toList with
      | .ok (tree, _) => return .ok ⟨tree⟩
      | .error fault => return .error (.damaged fault)

/-- Writes a store into a directory. -/
def saveAt (s : DiskStore) (directory : String) : m (Except FileFault Unit) :=
  FileAccess.write (Path.join directory fileName) (ByteTree.format.write s.tree).toByteArray

/-- Opens the store in a directory, keeps a record in it and closes it. -/
def keepAt (directory name : String) (r : Record Float) : m (Except StoreFault Unit) := do
  match ← openAt directory with
  | .error fault => return .error fault
  | .ok s =>
    match ← (s.put name r).saveAt directory with
    | .error fault => return .error (.file fault)
    | .ok () => return .ok ()

end DiskStore

end CodeCausality
