import CodeCausality.Record.Binary
import CodeCausality.Store.Tree

/-!
# Stores of models

A store keeps one record a name and lists the names in order. This file fixes

* `MemoryStore`, which keeps the records themselves;
* `DiskStore`, which keeps a tree of bytes: the name in UTF-8, the record in the binary format;
* the steps that a store can be asked for, and the answers of either store to them.
-/

namespace CodeCausality

open Binary (Bytes)

/-! ## 1. In memory -/

structure MemoryStore where
  records : Dictionary (Record Float)

namespace MemoryStore

def empty : MemoryStore := ⟨.empty⟩

/-- Keeps the record under the name, in place of what was there. -/
def put (s : MemoryStore) (name : String) (r : Record Float) : MemoryStore :=
  ⟨s.records.insert name r⟩

def get? (s : MemoryStore) (name : String) : Option (Record Float) := s.records.get? name

def contains (s : MemoryStore) (name : String) : Bool := s.records.contains name

def remove (s : MemoryStore) (name : String) : MemoryStore := ⟨s.records.erase name⟩

def names (s : MemoryStore) : List String := s.records.keys

end MemoryStore

/-! ## 2. On a disk -/

structure DiskStore where
  tree : ByteTree

namespace DiskStore

def empty : DiskStore := ⟨.empty⟩

/-- The key under which a name is kept. -/
def key (name : String) : Bytes := name.toByteArray.toList

/-- The name that is kept under a key. -/
def nameOf? (key : Bytes) : Option String := String.fromUTF8? key.toByteArray

def put (s : DiskStore) (name : String) (r : Record Float) : DiskStore :=
  ⟨s.tree.insert (key name) r.toBytes⟩

/-- The record under the name, if there is one that can be read. -/
def get (s : DiskStore) (name : String) : Except Binary.Fault (Option (Record Float)) :=
  match s.tree.get? (key name) with
  | some bytes => (Record.ofBytes bytes).map some
  | none => .ok none

def contains (s : DiskStore) (name : String) : Bool := (s.tree.get? (key name)).isSome

def remove (s : DiskStore) (name : String) : DiskStore := ⟨s.tree.erase (key name)⟩

def names (s : DiskStore) : List String := s.tree.keys.filterMap nameOf?

/-- The store after it has been closed and opened again: the tree is durable. -/
def reopened (s : DiskStore) : DiskStore := ⟨s.tree⟩

end DiskStore

/-! ## 3. Steps and answers -/

inductive StoreStep where
  | put (name : String) (r : Record Float)
  | get (name : String)
  | remove (name : String)
  | list
  | reopen

inductive StoreAnswer where
  | done
  | found (r : Option (Record Float))
  /-- Whether there was a record to remove. -/
  | removed (b : Bool)
  | names (xs : List String)
  | unreadable (f : Binary.Fault)

def MemoryStore.step (s : MemoryStore) : StoreStep → StoreAnswer × MemoryStore
  | .put name r => (.done, s.put name r)
  | .get name => (.found (s.get? name), s)
  | .remove name => (.removed (s.contains name), s.remove name)
  | .list => (.names s.names, s)
  | .reopen => (.done, s)

def DiskStore.step (s : DiskStore) : StoreStep → StoreAnswer × DiskStore
  | .put name r => (.done, s.put name r)
  | .get name =>
    match s.get name with
    | .ok r => (.found r, s)
    | .error f => (.unreadable f, s)
  | .remove name => (.removed (s.contains name), s.remove name)
  | .list => (.names s.names, s)
  | .reopen => (.done, s.reopened)

/-- The answers to steps after one another. -/
def answersOf {σ : Type} (step : σ → StoreStep → StoreAnswer × σ) :
    σ → List StoreStep → List StoreAnswer
  | _, [] => []
  | s, a :: rest => (step s a).1 :: answersOf step (step s a).2 rest

end CodeCausality
